/-
  RemoteCall.Proofs.Frame.Format
  ──────────────────────────────
  **WHAT THE TWO KINDS OF FRAMES HAVE IN COMMON.**

  A frame is a size field and a body.  The body is a header and a payload, and
  one byte of the header, the tag, has to be known:

      request    tag = kind,     behind the size field
      response   tag = status,   behind the sequence number

  A format (`Frame.Format`) names these parts, and carries what its reader and
  its writer have to do with them.  What is shown of a format is shown of both
  kinds of frames.

  Main statements:
    • `RequestFrame.format`, `ResponseFrame.format` — the two formats,
    • `Format.decode_bytes`    — a frame that fits is read back,
    • `decodeWith_legal`       — a size that is within limits,
    • `Format.decode_known`, `Format.decode_unknown`
                               — a whole body, as its tag is,
    • `Format.decodes`         — whatever a buffer holds,
    • `Format.eq_bytes_of_decode`
                               — what is read as a frame is its written form.
-/
import RemoteCall.Proofs.Frame.RoundTrip

namespace RemoteCall.Frame

/-! ## §1. Formats. -/

/-- How frames are written and read. -/
structure Format (φ : Type) where
  /-- The number of bytes between the size field and the payload. -/
  header : Nat
  /-- Where the tag stands in the body. -/
  tag : Nat
  /-- Which tags there are. -/
  known : UInt8 → Prop
  /-- Why another tag is refused. -/
  unknown : UInt8 → Failure
  payload : φ → Bytes
  size : φ → UInt32
  /-- The frame with its true size. -/
  sized : φ → φ
  /-- The bytes behind the size field. -/
  body : φ → Bytes
  encode : Nat → φ → Outcome Bytes
  decode : Nat → Bytes → Decoded φ
  drain : Nat → Bytes → List φ × Option Failure × Bytes
  /-- The frame of a size and a body. -/
  parse : Nat → Bytes → Outcome φ
  length_body : ∀ f, (body f).length = header + (payload f).length
  size_sized : ∀ f, size (sized f) = (header + (payload f).length).toUInt32
  encode_eq : ∀ max f, encode max f = if max < header + (payload f).length then
      .error (.messageTooLarge (header + (payload f).length) max)
    else .ok (BigEndian.encode sizeLength (header + (payload f).length) ++ body f)
  decode_eq : decode = decodeWith header parse
  drain_eq : drain = drainWith header parse
  tag_lt : tag < header
  /-- A body is read back. -/
  parse_body : ∀ f, header + (payload f).length < 2 ^ 32 →
    parse (header + (payload f).length) (body f) = .ok (sized f)
  /-- A body whose tag is known is the body of a frame. -/
  parse_known : ∀ bytes b, header ≤ bytes.length → bytes[tag]? = some b → known b →
    ∃ f, parse bytes.length bytes = .ok f ∧ body f = bytes
  parse_unknown : ∀ bytes b, bytes[tag]? = some b → ¬ known b →
    parse bytes.length bytes = .error (unknown b)

end RemoteCall.Frame

namespace RemoteCall

open RemoteCall.Frame

theorem RequestKind.ofCode_code (kind : RequestKind) : ofCode kind.code = .ok kind := by
  cases kind <;> rfl

theorem RequestKind.ofCode_of_unknown {b : UInt8} (h : ¬ ∃ kind : RequestKind, kind.code = b) :
    ofCode b = .error (.invalidMessage s!"Unknown request kind: 0x{Hex.byte b}") := by
  unfold ofCode
  rw [if_neg fun hb => h ⟨.call, hb.symm⟩, if_neg fun hb => h ⟨.cancel, hb.symm⟩]

theorem Status.ofCode_code (status : Status) : ofCode status.code = .ok status := by
  cases status <;> rfl

theorem Status.ofCode_of_unknown {b : UInt8} (h : ¬ ∃ status : Status, status.code = b) :
    ofCode b = .error (.invalidMessage s!"Unknown response status: 0x{Hex.byte b}") := by
  unfold ofCode
  rw [if_neg fun hb => h ⟨.success, hb.symm⟩, if_neg fun hb => h ⟨.error, hb.symm⟩]

/-- A number of a fixed width that stands in a byte string is written there, and the rest stands
behind it. -/
theorem BigEndian.encode_field (bytes : Bytes) (start width : Nat)
    (h : start + width ≤ bytes.length) :
    BigEndian.encode width (BigEndian.decode ((bytes.drop start).take width))
      ++ bytes.drop (start + width) = bytes.drop start := by
  have hlength : ((bytes.drop start).take width).length = width := by
    rw [List.length_take, List.length_drop]
    omega
  have hback := BigEndian.encode_decode ((bytes.drop start).take width)
  rw [hlength] at hback
  rw [hback, ← List.drop_drop, List.take_append_drop]

/-- The number in a field fits its width. -/
theorem BigEndian.decode_take_lt (bytes : Bytes) (width : Nat) :
    BigEndian.decode (bytes.take width) < 256 ^ width :=
  Nat.lt_of_lt_of_le (BigEndian.decode_lt _)
    (Nat.pow_le_pow_right (by decide) (List.length_take_le width bytes))

namespace RequestFrame

/-- **Every body with a known kind is the body of a request.** -/
theorem ofBody_of_known {bytes : Bytes} {kind : RequestKind}
    (hlong : requestHeaderLength ≤ bytes.length) (hkind : bytes[0]? = some kind.code) :
    ∃ f, ofBody bytes.length bytes = .ok f ∧ f.body = bytes := by
  have hhead : bytes.headD 0 = kind.code := by
    rw [List.headD_eq_head?_getD, List.head?_eq_getElem?, hkind]
    rfl
  unfold ofBody
  rw [hhead, RequestKind.ofCode_code]
  refine ⟨_, rfl, ?_⟩
  -- each field is written as it stands in the body
  have hversion : (BigEndian.decode ((bytes.drop 1).take 4)).toUInt32.toNat
      = BigEndian.decode ((bytes.drop 1).take 4) :=
    UInt32.toNat_ofNat_of_lt' (BigEndian.decode_take_lt _ 4)
  have hsequence : (BigEndian.decode ((bytes.drop 5).take 8)).toUInt64.toNat
      = BigEndian.decode ((bytes.drop 5).take 8) :=
    UInt64.toNat_ofNat_of_lt' (BigEndian.decode_take_lt _ 8)
  have hfront : [kind.code] ++ bytes.drop 1 = bytes := by
    cases bytes with
    | nil => cases hkind
    | cons b rest =>
      rw [List.getElem?_cons_zero, Option.some.injEq] at hkind
      rw [hkind]
      rfl
  unfold requestHeaderLength at hlong
  unfold body
  dsimp only
  rw [hversion, hsequence, List.append_assoc, List.append_assoc]
  calc [kind.code] ++ (BigEndian.encode 4 (BigEndian.decode ((bytes.drop 1).take 4))
        ++ (BigEndian.encode 8 (BigEndian.decode ((bytes.drop 5).take 8))
          ++ bytes.drop requestHeaderLength))
      = [kind.code] ++ (BigEndian.encode 4 (BigEndian.decode ((bytes.drop 1).take 4))
        ++ bytes.drop 5) := by
        rw [show requestHeaderLength = 5 + 8 from rfl, BigEndian.encode_field bytes 5 8 (by omega)]
    _ = [kind.code] ++ bytes.drop 1 := by
        rw [show 5 = 1 + 4 from rfl, BigEndian.encode_field bytes 1 4 (by omega)]
    _ = bytes := hfront

/-- The format of requests. -/
def format : Format RequestFrame where
  header := requestHeaderLength
  tag := 0
  known b := ∃ kind : RequestKind, kind.code = b
  unknown b := .invalidMessage s!"Unknown request kind: 0x{Hex.byte b}"
  payload := payload
  size := size
  sized f := { f with size := f.bodyLength.toUInt32 }
  body := body
  encode := encode
  decode := decode
  drain := drain
  parse := ofBody
  length_body := length_body
  size_sized _ := rfl
  encode_eq := encode_eq
  decode_eq := rfl
  drain_eq := rfl
  tag_lt := by decide
  parse_body f h := @ofBody_body { f with size := f.bodyLength.toUInt32 } ⟨rfl, h⟩
  parse_known := by
    rintro bytes _ hlong hkind ⟨kind, rfl⟩
    exact ofBody_of_known hlong hkind
  parse_unknown := by
    intro bytes b htag hnone
    unfold ofBody
    rw [List.headD_eq_head?_getD, List.head?_eq_getElem?, htag]
    exact congrArg (· >>= _) (RequestKind.ofCode_of_unknown hnone)

end RequestFrame

namespace ResponseFrame

/-- **Every body with a known status is the body of a response.** -/
theorem ofBody_of_known {bytes : Bytes} {status : Status}
    (hlong : responseHeaderLength ≤ bytes.length) (hstatus : bytes[8]? = some status.code) :
    ∃ f, ofBody bytes.length bytes = .ok f ∧ f.body = bytes := by
  have hhead : (bytes.drop 8).headD 0 = status.code := by
    rw [List.headD_eq_head?_getD, List.head?_drop, hstatus]
    rfl
  unfold ofBody
  rw [hhead, Status.ofCode_code]
  refine ⟨_, rfl, ?_⟩
  have hsequence : (BigEndian.decode (bytes.take 8)).toUInt64.toNat
      = BigEndian.decode (bytes.take 8) :=
    UInt64.toNat_ofNat_of_lt' (BigEndian.decode_take_lt _ 8)
  unfold responseHeaderLength at hlong
  have hmiddle : [status.code] ++ bytes.drop responseHeaderLength = bytes.drop 8 := by
    obtain ⟨hlt, hget⟩ := List.getElem?_eq_some_iff.mp hstatus
    rw [List.drop_eq_getElem_cons hlt, hget]
    rfl
  unfold body
  dsimp only
  rw [hsequence, List.append_assoc, hmiddle]
  exact BigEndian.encode_field bytes 0 8 (by omega)

/-- The format of responses. -/
def format : Format ResponseFrame where
  header := responseHeaderLength
  tag := 8
  known b := ∃ status : Status, status.code = b
  unknown b := .invalidMessage s!"Unknown response status: 0x{Hex.byte b}"
  payload := payload
  size := size
  sized f := { f with size := f.bodyLength.toUInt32 }
  body := body
  encode := encode
  decode := decode
  drain := drain
  parse := ofBody
  length_body := length_body
  size_sized _ := rfl
  encode_eq := encode_eq
  decode_eq := rfl
  drain_eq := rfl
  tag_lt := by decide
  parse_body f h := @ofBody_body { f with size := f.bodyLength.toUInt32 } ⟨rfl, h⟩
  parse_known := by
    rintro bytes _ hlong hstatus ⟨status, rfl⟩
    exact ofBody_of_known hlong hstatus
  parse_unknown := by
    intro bytes b htag hnone
    unfold ofBody
    rw [List.headD_eq_head?_getD, List.head?_drop, htag]
    exact congrArg (· >>= _) (Status.ofCode_of_unknown hnone)

end ResponseFrame

namespace Frame

variable {φ : Type} {F : Format φ} {max : Nat} {src : Bytes}

/-! ## §2. What is written. -/

/-- The number of bytes behind the size field. -/
def Format.bodyLength (F : Format φ) (f : φ) : Nat :=
  F.header + (F.payload f).length

/-- The written form of a frame. -/
def Format.bytes (F : Format φ) (f : φ) : Bytes :=
  BigEndian.encode sizeLength (F.bodyLength f) ++ F.body f

/-- A frame may be sent under a limit, and its size field can hold its size. -/
def Format.Fits (F : Format φ) (max : Nat) (f : φ) : Prop :=
  F.bodyLength f ≤ max ∧ F.bodyLength f < 2 ^ 32

theorem Format.encode_of_fits {f : φ} (h : F.bodyLength f ≤ max) :
    F.encode max f = .ok (F.bytes f) :=
  (F.encode_eq max f).trans (if_neg (Nat.not_lt.mpr h))

/-- **A frame that fits is read back**, whatever stands behind it. -/
theorem Format.decode_bytes {f : φ} (h : F.Fits max f) (rest : Bytes) :
    F.decode max (F.bytes f ++ rest) = .frame (F.sized f) rest := by
  unfold Format.bytes Format.bodyLength
  rw [F.decode_eq, decodeWith_whole (F.length_body f) h.2 (Nat.le_add_right _ _) h.1,
    F.parse_body f h.2]

/-! ## §3. What is read. -/

/-- What the size field at the front of a buffer says. -/
def sizeAt (src : Bytes) : Nat :=
  BigEndian.decode (src.take sizeLength)

variable {least : Nat} {parse : Nat → Bytes → Outcome φ}

theorem decodeWith_short (h : src.length < sizeLength) :
    decodeWith least parse max src = .incomplete := if_pos h

theorem decodeWith_undersized (h : sizeLength ≤ src.length) (hleast : sizeAt src < least) :
    decodeWith least parse max src = .fault (.invalidMessage
      s!"Frame size {sizeAt src} shorter than header ({least} bytes)") src := by
  unfold decodeWith
  dsimp only
  rw [if_neg (Nat.not_lt.mpr h)]
  exact if_pos hleast

theorem decodeWith_oversized (h : sizeLength ≤ src.length) (hleast : least ≤ sizeAt src)
    (hmax : max < sizeAt src) :
    decodeWith least parse max src = .fault (.messageTooLarge (sizeAt src) max) src := by
  unfold decodeWith
  dsimp only
  rw [if_neg (Nat.not_lt.mpr h)]
  exact (if_neg (Nat.not_lt.mpr hleast)).trans (if_pos hmax)

/-- A size that is within limits. -/
theorem decodeWith_legal (h : sizeLength ≤ src.length) (hleast : least ≤ sizeAt src)
    (hmax : sizeAt src ≤ max) :
    decodeWith least parse max src
      = if src.length < sizeLength + sizeAt src then .incomplete
        else match parse (sizeAt src) ((src.drop sizeLength).take (sizeAt src)) with
          | .ok f => .frame f (src.drop (sizeLength + sizeAt src))
          | .error e => .fault e (src.drop (sizeLength + sizeAt src)) := by
  unfold decodeWith
  dsimp only
  rw [if_neg (Nat.not_lt.mpr h)]
  exact (if_neg (Nat.not_lt.mpr hleast)).trans (if_neg (Nat.not_lt.mpr hmax))

/-- The body of a whole frame at the front of a buffer, and its tag. -/
theorem body_of_whole (h : sizeLength + sizeAt src ≤ src.length) {tag : Nat}
    (htag : tag < sizeAt src) :
    ((src.drop sizeLength).take (sizeAt src)).length = sizeAt src
      ∧ ((src.drop sizeLength).take (sizeAt src))[tag]? = src[sizeLength + tag]? := by
  refine ⟨?_, ?_⟩
  · rw [List.length_take, List.length_drop]
    omega
  · rw [List.getElem?_take_of_lt htag, List.getElem?_drop]

/-- **A whole frame with a known tag is decoded.** -/
theorem Format.decode_known (hleast : F.header ≤ sizeAt src) (hmax : sizeAt src ≤ max)
    (hwhole : sizeLength + sizeAt src ≤ src.length) {b : UInt8}
    (htag : src[sizeLength + F.tag]? = some b) (hknown : F.known b) :
    ∃ f, F.decode max src = .frame f (src.drop (sizeLength + sizeAt src))
      ∧ F.body f = (src.drop sizeLength).take (sizeAt src) := by
  obtain ⟨hlength, hsame⟩ := body_of_whole hwhole (Nat.lt_of_lt_of_le F.tag_lt hleast)
  obtain ⟨f, hparse, hbody⟩ := F.parse_known _ b (hlength.symm ▸ hleast) (hsame.trans htag) hknown
  rw [hlength] at hparse
  refine ⟨f, ?_, hbody⟩
  rw [F.decode_eq, decodeWith_legal (Nat.le_trans (Nat.le_add_right _ _) hwhole) hleast hmax,
    if_neg (Nat.not_lt.mpr hwhole), hparse]

/-- **A whole frame with an unknown tag is a fault**, and is taken off the buffer. -/
theorem Format.decode_unknown (hleast : F.header ≤ sizeAt src) (hmax : sizeAt src ≤ max)
    (hwhole : sizeLength + sizeAt src ≤ src.length) {b : UInt8}
    (htag : src[sizeLength + F.tag]? = some b) (hunknown : ¬ F.known b) :
    F.decode max src = .fault (F.unknown b) (src.drop (sizeLength + sizeAt src)) := by
  obtain ⟨hlength, hsame⟩ := body_of_whole hwhole (Nat.lt_of_lt_of_le F.tag_lt hleast)
  have hparse := F.parse_unknown _ b (hsame.trans htag) hunknown
  rw [hlength] at hparse
  rw [F.decode_eq, decodeWith_legal (Nat.le_trans (Nat.le_add_right _ _) hwhole) hleast hmax,
    if_neg (Nat.not_lt.mpr hwhole), hparse]

/-- What decoding the front of a buffer comes to, and when. -/
inductive Format.Decodes (F : Format φ) (max : Nat) (src : Bytes) : Decoded φ → Prop where
  /-- The size field has not arrived. -/
  | short : src.length < sizeLength → Decodes F max src .incomplete
  | undersized : sizeLength ≤ src.length → sizeAt src < F.header →
    Decodes F max src (.fault (.invalidMessage
      s!"Frame size {sizeAt src} shorter than header ({F.header} bytes)") src)
  | oversized : sizeLength ≤ src.length → max < sizeAt src →
    Decodes F max src (.fault (.messageTooLarge (sizeAt src) max) src)
  /-- The size is legal, and the body has not arrived. -/
  | cutShort : F.header ≤ sizeAt src → sizeAt src ≤ max → src.length < sizeLength + sizeAt src →
    Decodes F max src .incomplete
  /-- There is a whole frame. -/
  | known {f : φ} : F.header ≤ sizeAt src → sizeAt src ≤ max →
    sizeLength + sizeAt src ≤ src.length → F.body f = (src.drop sizeLength).take (sizeAt src) →
      Decodes F max src (.frame f (src.drop (sizeLength + sizeAt src)))
  /-- There is a whole body, but its tag is unknown. -/
  | unknown {b : UInt8} : sizeLength + sizeAt src ≤ src.length →
    Decodes F max src (.fault (F.unknown b) (src.drop (sizeLength + sizeAt src)))

/-- **The list is complete.** -/
theorem Format.decodes (F : Format φ) (max : Nat) (src : Bytes) :
    F.Decodes max src (F.decode max src) := by
  rcases Nat.lt_or_ge src.length sizeLength with hshort | hlong
  · rw [F.decode_eq, decodeWith_short hshort]
    exact .short hshort
  rcases Nat.lt_or_ge (sizeAt src) F.header with hunder | hleast
  · rw [F.decode_eq, decodeWith_undersized hlong hunder]
    exact .undersized hlong hunder
  rcases Nat.lt_or_ge max (sizeAt src) with hover | hmax
  · rw [F.decode_eq, decodeWith_oversized hlong hleast hover]
    exact .oversized hlong hover
  rcases Nat.lt_or_ge src.length (sizeLength + sizeAt src) with hcut | hwhole
  · rw [F.decode_eq, decodeWith_legal hlong hleast hmax, if_pos hcut]
    exact .cutShort hleast hmax hcut
  -- the body is there, and its tag is in it
  have hlt : sizeLength + F.tag < src.length := by
    have htag := F.tag_lt
    omega
  by_cases hknown : F.known src[sizeLength + F.tag]
  · obtain ⟨f, hdecode, hbody⟩ :=
      F.decode_known hleast hmax hwhole (List.getElem?_eq_getElem hlt) hknown
    rw [hdecode]
    exact .known hleast hmax hwhole hbody
  · rw [F.decode_unknown hleast hmax hwhole (List.getElem?_eq_getElem hlt) hknown]
    exact .unknown hwhole

/-- **More bytes are needed** as long as the size field has not arrived, or announces more than
has. -/
theorem Format.decode_eq_incomplete :
    F.decode max src = .incomplete ↔ src.length < sizeLength
      ∨ F.header ≤ sizeAt src ∧ sizeAt src ≤ max ∧ src.length < sizeLength + sizeAt src := by
  have hdecodes := F.decodes max src
  generalize F.decode max src = decoded at *
  constructor
  · rintro rfl
    cases hdecodes with
    | short hshort => exact .inl hshort
    | cutShort hleast hmax hcut => exact .inr ⟨hleast, hmax, hcut⟩
  · intro h
    cases hdecodes with
    | short _ | cutShort _ _ _ => rfl
    | undersized _ _ | oversized _ _ | known _ _ _ _ | unknown _ => exfalso; omega

/-- **A frame is read off its written form only.** -/
theorem Format.eq_bytes_of_decode {f : φ} {rest : Bytes} (h : F.decode max src = .frame f rest) :
    F.bodyLength f ≤ max ∧ src = F.bytes f ++ rest := by
  have hdecodes := F.decodes max src
  rw [h] at hdecodes
  cases hdecodes with
  | known hleast hmax hwhole hbody =>
    have hlength : F.bodyLength f = sizeAt src := by
      refine (F.length_body f).symm.trans ?_
      rw [hbody, List.length_take, List.length_drop]
      omega
    refine ⟨hlength ▸ hmax, ?_⟩
    have hsize := BigEndian.encode_field src 0 sizeLength (by omega)
    unfold Format.bytes
    rw [hlength, hbody, List.append_assoc, ← List.drop_drop, List.take_append_drop]
    simpa [sizeAt] using hsize.symm

end Frame

end RemoteCall
