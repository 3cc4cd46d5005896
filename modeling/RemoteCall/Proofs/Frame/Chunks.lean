/-
  RemoteCall.Proofs.Frame.Chunks
  ──────────────────────────────
  **STREAMS THAT COME IN CHUNKS.**

  A reader appends each chunk to what was left in its buffer and takes off it
  the whole frames.  Up to the first fault that yields what the whole stream
  would yield at once:

      untilFault (feed [] chunks)  =  frames and fault of drain chunks.flatten

  So the frames that were written come back, each with the chunk that brings
  its last byte, wherever the stream is cut.

  Main statements:
    • `untilFault_feed`              — the cuts do not matter,
    • `Format.drain_received`        — the beginning of a stream,
    • `Format.conveyed`              — the whole stream,
    • `frames_survive_any_chunking`  — for requests and for responses.
-/
import RemoteCall.Proofs.Frame.Format

namespace RemoteCall.Frame

variable {φ : Type} {least max : Nat} {parse : Nat → Bytes → Outcome φ} {src buffer left : Bytes}
  {frames : List φ}

/-! ## §1. One chunk after the other. -/

/-- What chunks bring up to the first fault. -/
def untilFault : List (Fed φ) → List φ × Option Failure
  | [] => ([], none)
  | fed :: later =>
    match fed.fault with
    | some e => (fed.frames, some e)
    | none => (fed.frames ++ (untilFault later).1, (untilFault later).2)

/-- Nothing whole is left in a buffer that has been drained. -/
theorem decodeWith_left (h : drainWith least parse max src = (frames, none, left)) :
    decodeWith least parse max left = .incomplete := by
  induction hlength : src.length using Nat.strongRecOn generalizing src frames with
  | ind n ih =>
    cases hdecode : decodeWith least parse max src with
    | incomplete =>
      rw [drainWith_incomplete hdecode] at h
      cases h
      exact hdecode
    | fault e rest =>
      rw [drainWith_fault hdecode] at h
      cases h
    | frame f rest =>
      have hshorter : rest.length < n := hlength ▸ length_of_decodeWith hdecode
      rw [drainWith_frame hdecode] at h
      exact ih rest.length hshorter (Prod.ext rfl (Prod.mk.inj h).2) rfl

/-- A fault stays at the same place when more bytes have arrived. -/
theorem drainWith_append_fault {e : Failure}
    (h : drainWith least parse max src = (frames, some e, left)) (tail : Bytes) :
    drainWith least parse max (src ++ tail) = (frames, some e, left ++ tail) := by
  induction hlength : src.length using Nat.strongRecOn generalizing src frames with
  | ind n ih =>
    cases hdecode : decodeWith least parse max src with
    | incomplete =>
      rw [drainWith_incomplete hdecode] at h
      cases h
    | fault e' rest =>
      rw [drainWith_fault hdecode] at h
      cases h
      exact drainWith_fault (decodeWith_append_fault hdecode tail)
    | frame f rest =>
      have hshorter : rest.length < n := hlength ▸ length_of_decodeWith hdecode
      rw [drainWith_frame hdecode] at h
      obtain ⟨rfl, hlater⟩ := Prod.mk.inj h
      rw [drainWith_frame (decodeWith_append hdecode tail),
        ih rest.length hshorter (Prod.ext rfl hlater) rfl]

/-- **The cuts do not matter**: up to the first fault, chunks bring what the whole stream does. -/
theorem untilFault_feed (h : decodeWith least parse max buffer = .incomplete)
    (chunks : List Bytes) :
    untilFault (feed (drainWith least parse max) buffer chunks)
      = ((drainWith least parse max (buffer ++ chunks.flatten)).1,
          (drainWith least parse max (buffer ++ chunks.flatten)).2.1) := by
  induction chunks generalizing buffer with
  | nil =>
    rw [List.flatten_nil, List.append_nil, drainWith_incomplete h]
    rfl
  | cons chunk chunks ih =>
    rw [List.flatten_cons, ← List.append_assoc]
    unfold feed
    rcases hdrain : drainWith least parse max (buffer ++ chunk) with ⟨frames, fault, left⟩
    cases fault with
    | some e =>
      rw [drainWith_append_fault hdrain chunks.flatten]
      rfl
    | none =>
      -- what is left holds nothing whole, and the frames ahead of it have been taken
      rw [taken_of_drainWith hdrain chunks.flatten]
      show (frames ++ (untilFault _).1, (untilFault _).2) = _
      rw [ih (decodeWith_left hdrain)]

/-- Without a fault, everything is seen. -/
theorem of_untilFault {fed : List (Fed φ)} (h : untilFault fed = (frames, none)) :
    fed.flatMap (·.frames) = frames ∧ ∀ x ∈ fed, x.fault = none := by
  induction fed generalizing frames with
  | nil =>
    cases h
    exact ⟨rfl, nofun⟩
  | cons first later ih =>
    unfold untilFault at h
    split at h
    · cases h
    · next hfault =>
      obtain ⟨rfl, hlater⟩ := Prod.mk.inj h
      obtain ⟨hframes, hnone⟩ := ih (Prod.ext rfl hlater)
      refine ⟨congrArg (first.frames ++ ·) hframes, fun x hx => ?_⟩
      rcases List.mem_cons.mp hx with rfl | hx
      · exact hfault
      · exact hnone x hx

/-- What is left in the end is what is left of the whole stream. -/
theorem left_feed (h : decodeWith least parse max buffer = .incomplete) {chunks : List Bytes}
    (hsound : drainWith least parse max (buffer ++ chunks.flatten) = (frames, none, left)) :
    ((feed (drainWith least parse max) buffer chunks).map (·.left)).getLastD buffer = left := by
  induction chunks generalizing buffer frames with
  | nil =>
    rw [List.flatten_nil, List.append_nil, drainWith_incomplete h] at hsound
    exact (Prod.mk.inj (Prod.mk.inj hsound).2).2
  | cons chunk chunks ih =>
    rw [List.flatten_cons, ← List.append_assoc] at hsound
    rcases hdrain : drainWith least parse max (buffer ++ chunk) with ⟨first, fault, rest⟩
    have hnone : fault = none := by
      have hbefore := drainWith_sound (congrArg (·.2.1) hsound)
      rwa [hdrain] at hbefore
    subst hnone
    have htaken := hsound.symm.trans (taken_of_drainWith hdrain chunks.flatten)
    unfold feed
    rw [hdrain]
    dsimp only
    rw [List.map_cons, List.getLastD_cons]
    exact ih (decodeWith_left hdrain) (Prod.ext rfl (Prod.mk.inj htaken).2.symm)

theorem take_feed (drain : Bytes → List φ × Option Failure × Bytes) (buffer : Bytes)
    (chunks : List Bytes) (n : Nat) :
    (feed drain buffer chunks).take n = feed drain buffer (chunks.take n) := by
  induction chunks generalizing buffer n with
  | nil => rw [List.take_nil, feed, List.take_nil]
  | cons chunk chunks ih =>
    cases n with
    | zero => rfl
    | succ n => exact congrArg (_ :: ·) (ih _ n)

/-! ## §2. The beginning of what was written. -/

namespace Format

variable {F : Format φ}

/-- A frame that has not arrived as a whole is waited for. -/
theorem decode_cut {f : φ} (h : F.Fits max f) {received : Bytes} (hbegins : received <+: F.bytes f)
    (hcut : received.length < (F.bytes f).length) : F.decode max received = .incomplete := by
  obtain ⟨tail, htail⟩ := hbegins
  refine Classical.byContradiction fun hdecided => ?_
  -- what is decoded now would be decoded when the frame has arrived, and more would be left
  have hwhole := F.decode_bytes h []
  rw [List.append_nil, ← htail, F.decode_eq, decodeWith_extend (by rwa [← F.decode_eq]),
    ← F.decode_eq] at hwhole
  cases hdecode : F.decode max received with
  | incomplete => exact hdecided hdecode
  | fault e rest =>
    rw [hdecode] at hwhole
    cases hwhole
  | frame f' rest =>
    rw [hdecode] at hwhole
    have hnil : rest ++ tail = [] := (Decoded.frame.inj hwhole).2
    rw [← htail, (List.append_eq_nil_iff.mp hnil).2, List.append_nil] at hcut
    exact absurd hcut (Nat.lt_irrefl _)

/-- These of the frames have arrived with these bytes, and no other: what is left is the beginning
of the next one, and not the whole of it. -/
structure Arrived (F : Format φ) (frames : List φ) (received : Bytes) (done : List φ)
    (left : Bytes) : Prop where
  split : ∃ pending, frames = done ++ pending ∧ left <+: pending.flatMap F.bytes
    ∧ ∀ f later, pending = f :: later → left.length < (F.bytes f).length
  received : received = done.flatMap F.bytes ++ left

/-- When everything has arrived, nothing is left. -/
theorem Arrived.all {received left : Bytes} {done : List φ}
    (h : F.Arrived frames received done left) (hall : received = frames.flatMap F.bytes) :
    done = frames ∧ left = [] := by
  obtain ⟨⟨pending, rfl, -, hcut⟩, hreceived⟩ := h
  rw [hall, List.flatMap_append, List.append_cancel_left_eq] at hreceived
  cases pending with
  | nil => exact ⟨(List.append_nil done).symm, hreceived.symm⟩
  | cons f later =>
    have hshort := hcut f later rfl
    rw [← hreceived, List.flatMap_cons, List.length_append] at hshort
    omega

/-- **The beginning of some frames** yields the frames that have arrived, and the beginning of the
next one is left. -/
theorem drain_received (h : ∀ f ∈ frames, F.Fits max f) {received : Bytes}
    (hreceived : received <+: frames.flatMap F.bytes) :
    ∃ done left, F.Arrived frames received done left
      ∧ F.drain max received = (done.map F.sized, none, left) := by
  induction frames generalizing received with
  | nil =>
    obtain rfl : received = [] := List.prefix_nil.mp hreceived
    refine ⟨[], [], ⟨⟨[], rfl, List.nil_prefix, nofun⟩, rfl⟩, ?_⟩
    rw [F.drain_eq]
    exact drainWith_incomplete (decodeWith_short (by decide))
  | cons f frames ih =>
    have hf := h f List.mem_cons_self
    rcases Nat.lt_or_ge received.length (F.bytes f).length with hcut | hlong
    · -- the first frame has not arrived
      have hbegins : received <+: F.bytes f :=
        List.prefix_of_prefix_length_le hreceived (List.prefix_append _ _) (Nat.le_of_lt hcut)
      refine ⟨[], received, ⟨⟨f :: frames, rfl, hreceived, ?_⟩, rfl⟩, ?_⟩
      · rintro _ _ ⟨⟩
        exact hcut
      · have hdecode := decode_cut hf hbegins hcut
        rw [F.decode_eq] at hdecode
        rw [F.drain_eq]
        exact drainWith_incomplete hdecode
    · -- the first frame is read, and the others are ahead
      obtain ⟨rest, rfl⟩ : F.bytes f <+: received :=
        List.prefix_of_prefix_length_le (List.prefix_append _ _) hreceived hlong
      rw [List.flatMap_cons, List.prefix_append_right_inj] at hreceived
      obtain ⟨done, left, ⟨⟨pending, rfl, hleft, hcut⟩, rfl⟩, hdrain⟩ :=
        ih (fun g hg => h g (List.mem_cons_of_mem f hg)) hreceived
      refine ⟨f :: done, left, ⟨⟨pending, rfl, hleft, hcut⟩, ?_⟩, ?_⟩
      · rw [List.flatMap_cons, List.append_assoc]
      · have hdecode := F.decode_bytes hf (done.flatMap F.bytes ++ left)
        rw [F.decode_eq] at hdecode
        rw [F.drain_eq] at hdrain ⊢
        rw [drainWith_frame hdecode, hdrain]
        rfl

/-- Frames are written one after the other. -/
theorem appendAll_eq (h : ∀ f ∈ frames, F.bodyLength f ≤ max) (buffer : Bytes) :
    (appendAll (F.encode max) buffer frames).2 = buffer ++ frames.flatMap F.bytes
      ∧ ∀ step ∈ (appendAll (F.encode max) buffer frames).1, ∃ n, step = .ok n := by
  induction frames generalizing buffer with
  | nil => exact ⟨(List.append_nil buffer).symm, nofun⟩
  | cons f frames ih =>
    obtain ⟨hbytes, hsteps⟩ :=
      ih (fun g hg => h g (List.mem_cons_of_mem f hg)) (buffer ++ F.bytes f)
    unfold appendAll
    rw [F.encode_of_fits (h f List.mem_cons_self)]
    refine ⟨?_, fun step hstep => ?_⟩
    · rw [List.flatMap_cons, ← List.append_assoc]
      exact hbytes
    · rcases List.mem_cons.mp hstep with rfl | hstep
      · exact ⟨_, rfl⟩
      · exact hsteps step hstep

/-! ## §3. A stream as a whole. -/

/-- Frames that are written one after the other are conveyed by these chunks: decoding yields the
frames, each with its true size, no fault, and nothing is left in the buffer. -/
structure Conveyed (F : Format φ) (max : Nat) (frames : List φ) (chunks : List Bytes) : Prop where
  written : ∀ step ∈ (appendAll (F.encode max) [] frames).1, ∃ n, step = .ok n
  seen : (feed (F.drain max) [] chunks).flatMap (·.frames) = frames.map F.sized
  sized : ∀ f ∈ frames, (F.size (F.sized f)).toNat = F.header + (F.payload f).length
  sound : ∀ fed ∈ feed (F.drain max) [] chunks, fed.fault = none
  empty : ((feed (F.drain max) [] chunks).map (·.left)).getLastD [] = []
  /-- After each chunk, the frames that have arrived have been seen, and no other. -/
  timely : ∀ n, ∃ done left, F.Arrived frames (chunks.take n).flatten done left
    ∧ ((feed (F.drain max) [] chunks).take n).flatMap (·.frames) = done.map F.sized

/-- **Frames that fit survive every chunking.** -/
theorem conveyed (h : ∀ f ∈ frames, F.Fits max f) {chunks : List Bytes}
    (hchunks : chunks.flatten = (appendAll (F.encode max) [] frames).2) :
    F.Conveyed max frames chunks := by
  obtain ⟨hbytes, hwritten⟩ := F.appendAll_eq (fun f hf => (h f hf).1) []
  rw [List.nil_append] at hbytes
  rw [hbytes] at hchunks
  have hnil : decodeWith F.header F.parse max [] = .incomplete := decodeWith_short (by decide)
  -- so far as the stream has come, its frames are seen and there is no fault
  have hsofar : ∀ n, ∃ done left, F.Arrived frames (chunks.take n).flatten done left
      ∧ F.drain max (chunks.take n).flatten = (done.map F.sized, none, left)
      ∧ untilFault (feed (F.drain max) [] (chunks.take n)) = (done.map F.sized, none) := by
    intro n
    have hbegins : (chunks.take n).flatten <+: frames.flatMap F.bytes := by
      rw [← hchunks]
      refine ⟨(chunks.drop n).flatten, ?_⟩
      rw [← List.flatten_append, List.take_append_drop]
    obtain ⟨done, left, harrived, hdrain⟩ := drain_received h hbegins
    refine ⟨done, left, harrived, hdrain, ?_⟩
    rw [F.drain_eq] at hdrain ⊢
    rw [untilFault_feed hnil, List.nil_append, hdrain]
  obtain ⟨done, left, harrived, hdrain, huntil⟩ := hsofar chunks.length
  rw [List.take_length] at harrived hdrain huntil
  obtain ⟨rfl, rfl⟩ := harrived.all hchunks
  obtain ⟨hframes, hsound⟩ := of_untilFault huntil
  refine ⟨hwritten, hframes, fun f hf => ?_, hsound, ?_, fun n => ?_⟩
  · rw [F.size_sized]
    exact UInt32.toNat_ofNat_of_lt' (h f hf).2
  · rw [F.drain_eq] at hdrain ⊢
    exact left_feed hnil hdrain
  · obtain ⟨done, left, harrived, -, huntil⟩ := hsofar n
    refine ⟨done, left, harrived, ?_⟩
    rw [take_feed]
    exact (of_untilFault huntil).1

end Format

end RemoteCall.Frame

namespace RemoteCall

open RemoteCall.Frame

/-- **Framing is a round trip under any chunking.**  Requests that fit under a limit are written one
after the other, and the bytes are cut anywhere; decoding after each chunk yields the requests, in
order and with their true sizes, each with the chunk that completes it.  The same holds for
responses. -/
theorem frames_survive_any_chunking (max : Nat) :
    (∀ (frames : List RequestFrame) (chunks : List Bytes),
      (∀ f ∈ frames, RequestFrame.format.Fits max f) →
      chunks.flatten = (appendAll (RequestFrame.encode max) [] frames).2 →
        RequestFrame.format.Conveyed max frames chunks)
    ∧ ∀ (frames : List ResponseFrame) (chunks : List Bytes),
      (∀ f ∈ frames, ResponseFrame.format.Fits max f) →
      chunks.flatten = (appendAll (ResponseFrame.encode max) [] frames).2 →
        ResponseFrame.format.Conveyed max frames chunks :=
  ⟨fun _ _ h hchunks => Format.conveyed h hchunks, fun _ _ h hchunks => Format.conveyed h hchunks⟩

/-- A call and a cancel, and an answer and a failure, whose size fields come in pieces, with an
empty chunk between them. -/
theorem frames_survive_any_chunking_when_cut_in_the_size_field :
    RequestFrame.format.Conveyed 15 [.call 1 7 [170, 187], .cancel 1 7]
      [[0, 0], [], [0], [15, 1, 0, 0, 0, 1, 0, 0, 0, 0, 0, 0, 0, 7, 170, 187, 0, 0, 0],
        [13, 2, 0, 0], [0, 1, 0, 0, 0, 0, 0, 0, 0], [7]]
    ∧ ResponseFrame.format.Conveyed 15 [.success 7 [1], ⟨0, 8, .error, [0, 9]⟩]
      [[0, 0, 0, 10, 0, 0, 0, 0, 0, 0, 0, 7, 0, 1, 0], [], [0, 0, 11, 0, 0, 0, 0, 0, 0, 0],
        [8, 1], [0], [9]] :=
  ⟨(frames_survive_any_chunking 15).1 _ _ (by unfold Format.Fits; decide) rfl,
    (frames_survive_any_chunking 15).2 _ _ (by unfold Format.Fits; decide) rfl⟩

end RemoteCall
