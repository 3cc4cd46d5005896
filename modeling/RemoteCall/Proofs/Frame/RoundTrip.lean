/-
  RemoteCall.Proofs.Frame.RoundTrip
  ─────────────────────────────────
  **WHAT IS WRITTEN IS READ BACK.**

  The written form of a frame (`bytes`) is a size field and a body.  A frame of
  less than 2³² bytes whose size field is true is read back from the front of
  any buffer; if the reader's limit is below its size it is a fault:

      decode max (f.bytes ++ rest)  =  frame f rest        if it fits
                                       fault (too large)   otherwise

  So the beginning of some frames is decoded as the first of them, and nothing
  else.

  Main statements:
    • `RequestFrame.decode_bytes`, `ResponseFrame.decode_bytes` — one frame,
    • `RequestFrame.drain_bytes`, `ResponseFrame.drain_bytes`   — the beginning of a stream,
    • `ResponseFrame.drain_flatMap_bytes`                       — a stream that is within limits.
-/
import RemoteCall.Proofs.Frame.Stream

namespace RemoteCall

namespace Frame

variable {φ : Type} {least max size : Nat} {parse : Nat → Bytes → Outcome φ} {body : Bytes}

/-! ## §1. A size field and a body. -/

/-- What the size field says is found again. -/
theorem size_field (hword : size < 2 ^ 32) (rest : Bytes) :
    (BigEndian.encode sizeLength size ++ rest).take sizeLength = BigEndian.encode sizeLength size
      ∧ (BigEndian.encode sizeLength size ++ rest).drop sizeLength = rest
      ∧ BigEndian.decode (BigEndian.encode sizeLength size) = size := by
  have hlength : (BigEndian.encode sizeLength size).length = sizeLength :=
    BigEndian.length_encode _ _
  refine ⟨List.take_left' hlength, List.drop_left' hlength, BigEndian.decode_encode ?_⟩
  exact hword

/-- **A whole frame is parsed.** -/
theorem decodeWith_whole (hbody : body.length = size) (hword : size < 2 ^ 32)
    (hleast : least ≤ size) (hmax : size ≤ max) (rest : Bytes) :
    decodeWith least parse max (BigEndian.encode sizeLength size ++ body ++ rest)
      = match parse size body with
        | .ok f => .frame f rest
        | .error e => .fault e rest := by
  have hlength : (BigEndian.encode sizeLength size ++ (body ++ rest)).length
      = sizeLength + (size + rest.length) := by
    rw [List.length_append, BigEndian.length_encode, List.length_append, hbody]
  obtain ⟨htake, hdrop, hdecode⟩ := size_field hword (body ++ rest)
  have htail : (BigEndian.encode sizeLength size ++ (body ++ rest)).drop (sizeLength + size)
      = rest := by
    rw [← List.drop_drop, hdrop]
    exact List.drop_left' hbody
  -- none of the four refusals applies
  unfold decodeWith
  dsimp only
  rewrite [List.append_assoc, hlength, if_neg (by omega), htake, hdecode, if_neg (by omega),
    if_neg (by omega), if_neg (by omega), hdrop, htail, List.take_left' hbody]
  cases parse size body <;> rfl

/-- **A frame beyond the limit is a fault.** -/
theorem decodeWith_excess (hword : size < 2 ^ 32) (hleast : least ≤ size) (hmax : max < size)
    (rest : Bytes) :
    decodeWith least parse max (BigEndian.encode sizeLength size ++ rest)
      = .fault (.messageTooLarge size max) (BigEndian.encode sizeLength size ++ rest) := by
  have hlength : (BigEndian.encode sizeLength size ++ rest).length = sizeLength + rest.length := by
    rw [List.length_append, BigEndian.length_encode]
  obtain ⟨htake, _, hdecode⟩ := size_field hword rest
  unfold decodeWith
  dsimp only
  rw [hlength, if_neg (by omega), htake, hdecode, if_neg (by omega), if_pos hmax]

/-- A buffer that starts with the written form of a frame yields it, or is at fault. -/
def Readable (least : Nat) (parse : Nat → Bytes → Outcome φ) (max : Nat) (bytes : Bytes) (f : φ) :
    Prop :=
  ∀ rest, decodeWith least parse max (bytes ++ rest) = .frame f rest
    ∨ ∃ e, decodeWith least parse max (bytes ++ rest) = .fault e (bytes ++ rest)

/-- **The written form of a frame is readable.** -/
theorem readable (hbody : body.length = size) (hword : size < 2 ^ 32) (hleast : least ≤ size)
    {f : φ} (hparse : parse size body = .ok f) (max : Nat) :
    Readable least parse max (BigEndian.encode sizeLength size ++ body) f := by
  intro rest
  by_cases hmax : max < size
  · refine .inr ⟨.messageTooLarge size max, ?_⟩
    rw [List.append_assoc]
    exact decodeWith_excess hword hleast hmax _
  · refine .inl ?_
    rw [decodeWith_whole hbody hword hleast (Nat.le_of_not_lt hmax), hparse]

/-- Draining the written forms of some frames yields the first of them. -/
theorem drainWith_flatMap {write : φ → Bytes} {frames : List φ}
    (h : ∀ f ∈ frames, Readable least parse max (write f) f) :
    (drainWith least parse max (frames.flatMap write)).1 <+: frames := by
  induction frames with
  | nil =>
    have hnone : decodeWith least parse max [] = .incomplete := if_pos (by decide)
    rewrite [List.flatMap_nil, drainWith_incomplete hnone]
    exact List.nil_prefix
  | cons f frames ih =>
    rw [List.flatMap_cons]
    rcases h f List.mem_cons_self (frames.flatMap write) with hframe | ⟨e, hfault⟩
    · rw [drainWith_frame hframe]
      exact List.cons_prefix_cons.mpr ⟨rfl, ih fun g hg => h g (List.mem_cons_of_mem f hg)⟩
    · -- beyond the limit of the reader, which stops here
      rw [drainWith_fault hfault]
      exact List.nil_prefix

/-- **Written frames that are within the limit are all read back**, and nothing else is. -/
theorem drainWith_flatMap_eq {write : φ → Bytes} {frames : List φ}
    (h : ∀ f ∈ frames, ∀ rest, decodeWith least parse max (write f ++ rest) = .frame f rest) :
    drainWith least parse max (frames.flatMap write) = (frames, none, []) := by
  induction frames with
  | nil =>
    have hnone : decodeWith least parse max [] = .incomplete := if_pos (by decide)
    rw [List.flatMap_nil, drainWith_incomplete hnone]
  | cons f frames ih =>
    rw [List.flatMap_cons, drainWith_frame (h f List.mem_cons_self _),
      ih fun g hg => h g (List.mem_cons_of_mem f hg)]

/-- **The beginning of some frames is read as the first of them.** -/
theorem drainWith_received {write : φ → Bytes} {frames : List φ}
    (h : ∀ f ∈ frames, Readable least parse max (write f) f) {received : Bytes}
    (hreceived : received <+: frames.flatMap write) :
    (drainWith least parse max received).1 <+: frames := by
  obtain ⟨tail, htail⟩ := hreceived
  refine (drainWith_isPrefix received tail).trans ?_
  rw [htail]
  exact drainWith_flatMap h

end Frame

/-! ## §2. Request frames. -/

namespace RequestFrame

/-- The number of bytes behind the size field. -/
def bodyLength (frame : RequestFrame) : Nat :=
  requestHeaderLength + frame.payload.length

/-- The bytes behind the size field. -/
def body (frame : RequestFrame) : Bytes :=
  [frame.kind.code] ++ BigEndian.encode 4 frame.version.toNat
    ++ BigEndian.encode 8 frame.sequence.toNat ++ frame.payload

/-- The written form of a frame. -/
def bytes (frame : RequestFrame) : Bytes :=
  BigEndian.encode Frame.sizeLength frame.bodyLength ++ frame.body

/-- The size field says what there is, and 32 bits are enough for it. -/
def Sized (frame : RequestFrame) : Prop :=
  frame.size = frame.bodyLength.toUInt32 ∧ frame.bodyLength < 2 ^ 32

theorem encode_eq (max : Nat) (frame : RequestFrame) :
    frame.encode max = if max < frame.bodyLength then
        .error (.messageTooLarge frame.bodyLength max)
      else .ok frame.bytes := by
  unfold encode bytes body
  simp only [List.append_assoc]
  rfl

theorem length_body (frame : RequestFrame) : frame.body.length = frame.bodyLength := by
  unfold body bodyLength requestHeaderLength
  simp only [List.length_append, BigEndian.length_encode, List.length_singleton]

theorem ofBody_body {frame : RequestFrame} (h : frame.Sized) :
    ofBody frame.bodyLength frame.body = .ok frame := by
  have hversion : BigEndian.decode (BigEndian.encode 4 frame.version.toNat)
      = frame.version.toNat := BigEndian.decode_encode frame.version.toNat_lt
  have hsequence : BigEndian.decode (BigEndian.encode 8 frame.sequence.toNat)
      = frame.sequence.toNat := BigEndian.decode_encode frame.sequence.toNat_lt
  have hkind : RequestKind.ofCode frame.kind.code = .ok frame.kind := by
    cases frame.kind <;> rfl
  have hhead : frame.body.headD 0 = frame.kind.code := rfl
  have hfour : (BigEndian.encode 4 frame.version.toNat).length = 4 := BigEndian.length_encode _ _
  have height : (BigEndian.encode 8 frame.sequence.toNat).length = 8 := BigEndian.length_encode _ _
  -- what the reader finds behind each field that it has passed
  have hafterKind : frame.body.drop 1 = BigEndian.encode 4 frame.version.toNat
      ++ (BigEndian.encode 8 frame.sequence.toNat ++ frame.payload) := by
    unfold body
    rw [List.append_assoc, List.append_assoc]
    rfl
  have hafterVersion : frame.body.drop 5
      = BigEndian.encode 8 frame.sequence.toNat ++ frame.payload := by
    rw [show 5 = 1 + 4 from rfl, ← List.drop_drop, hafterKind, List.drop_left' hfour]
  have hafterSequence : frame.body.drop requestHeaderLength = frame.payload := by
    rw [show requestHeaderLength = 5 + 8 from rfl, ← List.drop_drop, hafterVersion,
      List.drop_left' height]
  unfold ofBody
  rw [hhead, hkind, hafterKind, hafterVersion, hafterSequence, List.take_left' hfour,
    List.take_left' height, hversion, hsequence]
  show Except.ok _ = Except.ok frame
  -- the size is a word, and it is that of the body
  rw [← h.1]
  simp

/-- **A request is read back**, unless it is beyond the reader's limit. -/
theorem decode_bytes {frame : RequestFrame} (h : frame.Sized) (max : Nat) :
    Frame.Readable requestHeaderLength ofBody max frame.bytes frame :=
  Frame.readable frame.length_body h.2 (Nat.le_add_right _ _) (ofBody_body h) max

/-- A frame within the limit of the reader is read. -/
theorem decode_bytes_of_le {frame : RequestFrame} (h : frame.Sized) {max : Nat}
    (hmax : frame.bodyLength ≤ max) (rest : Bytes) :
    decode max (frame.bytes ++ rest) = .frame frame rest := by
  unfold decode bytes
  rw [Frame.decodeWith_whole frame.length_body h.2 (Nat.le_add_right _ _) hmax rest,
    ofBody_body h]

/-- **The beginning of some requests is read as the first of them.** -/
theorem drain_bytes {frames : List RequestFrame} (h : ∀ frame ∈ frames, frame.Sized)
    {received : Bytes} (hreceived : received <+: frames.flatMap bytes) (max : Nat) :
    (drain max received).1 <+: frames :=
  Frame.drainWith_received (fun frame hmem => decode_bytes (h frame hmem) max) hreceived

end RequestFrame

/-! ## §3. Response frames. -/

namespace ResponseFrame

/-- The number of bytes behind the size field. -/
def bodyLength (frame : ResponseFrame) : Nat :=
  responseHeaderLength + frame.payload.length

/-- The bytes behind the size field. -/
def body (frame : ResponseFrame) : Bytes :=
  BigEndian.encode 8 frame.sequence.toNat ++ [frame.status.code] ++ frame.payload

/-- The written form of a frame. -/
def bytes (frame : ResponseFrame) : Bytes :=
  BigEndian.encode Frame.sizeLength frame.bodyLength ++ frame.body

/-- The size field says what there is, and 32 bits are enough for it. -/
def Sized (frame : ResponseFrame) : Prop :=
  frame.size = frame.bodyLength.toUInt32 ∧ frame.bodyLength < 2 ^ 32

theorem encode_eq (max : Nat) (frame : ResponseFrame) :
    frame.encode max = if max < frame.bodyLength then
        .error (.messageTooLarge frame.bodyLength max)
      else .ok frame.bytes := by
  unfold encode bytes body
  simp only [List.append_assoc]
  rfl

theorem length_body (frame : ResponseFrame) : frame.body.length = frame.bodyLength := by
  unfold body bodyLength responseHeaderLength
  simp only [List.length_append, BigEndian.length_encode, List.length_singleton]

theorem ofBody_body {frame : ResponseFrame} (h : frame.Sized) :
    ofBody frame.bodyLength frame.body = .ok frame := by
  have hsequence : BigEndian.decode (BigEndian.encode 8 frame.sequence.toNat)
      = frame.sequence.toNat := BigEndian.decode_encode frame.sequence.toNat_lt
  have hstatus : Status.ofCode frame.status.code = .ok frame.status := by
    cases frame.status <;> rfl
  have height : (BigEndian.encode 8 frame.sequence.toNat).length = 8 := BigEndian.length_encode _ _
  have hbody : frame.body = BigEndian.encode 8 frame.sequence.toNat
      ++ ([frame.status.code] ++ frame.payload) := List.append_assoc _ _ _
  have hafterSequence : frame.body.drop 8 = [frame.status.code] ++ frame.payload := by
    rw [hbody, List.drop_left' height]
  have hafterStatus : frame.body.drop responseHeaderLength = frame.payload := by
    rw [show responseHeaderLength = 8 + 1 from rfl, ← List.drop_drop, hafterSequence]
    rfl
  have hhead : ([frame.status.code] ++ frame.payload).headD 0 = frame.status.code := rfl
  unfold ofBody
  rw [hafterSequence, hafterStatus, hhead, hstatus, hbody, List.take_left' height, hsequence]
  show Except.ok _ = Except.ok frame
  -- the size is a word, and it is that of the body
  rw [← h.1]
  simp

/-- **A response is read back**, unless it is beyond the reader's limit. -/
theorem decode_bytes {frame : ResponseFrame} (h : frame.Sized) (max : Nat) :
    Frame.Readable responseHeaderLength ofBody max frame.bytes frame :=
  Frame.readable frame.length_body h.2 (Nat.le_add_right _ _) (ofBody_body h) max

/-- A frame within the limit of the reader is read. -/
theorem decode_bytes_of_le {frame : ResponseFrame} (h : frame.Sized) {max : Nat}
    (hmax : frame.bodyLength ≤ max) (rest : Bytes) :
    decode max (frame.bytes ++ rest) = .frame frame rest := by
  unfold decode bytes
  rw [Frame.decodeWith_whole frame.length_body h.2 (Nat.le_add_right _ _) hmax rest,
    ofBody_body h]

/-- **The beginning of some responses is read as the first of them.** -/
theorem drain_bytes {frames : List ResponseFrame} (h : ∀ frame ∈ frames, frame.Sized)
    {received : Bytes} (hreceived : received <+: frames.flatMap bytes) (max : Nat) :
    (drain max received).1 <+: frames :=
  Frame.drainWith_received (fun frame hmem => decode_bytes (h frame hmem) max) hreceived

/-- **Written responses that are within the limit are all read back**, and nothing else is. -/
theorem drain_flatMap_bytes {frames : List ResponseFrame} {max : Nat}
    (h : ∀ frame ∈ frames, frame.Sized ∧ frame.bodyLength ≤ max) :
    drain max (frames.flatMap bytes) = (frames, none, []) := by
  refine Frame.drainWith_flatMap_eq fun frame hmem rest => ?_
  obtain ⟨hsized, hmax⟩ := h frame hmem
  exact decode_bytes_of_le hsized hmax rest

end ResponseFrame

end RemoteCall
