/-
  RemoteCall.Frame.Codec
  ──────────────────────
  **FRAMES AS BYTES.**

  A frame starts with the number of bytes behind its size field, so a reader
  finds the end of a frame without looking into it.  Decoding looks at the
  front of a buffer:

      incomplete      more bytes are needed; nothing is consumed
      frame f rest    a whole frame, and what follows it
      fault e rest    a size out of range leaves the buffer as it is; an unknown
                      kind or status consumes exactly its frame

  `drain` decodes until more bytes are needed or a frame is at fault; `feed`
  does so after each chunk of a stream, and goes on after a fault from where
  the buffer then stands.  `appendAll` writes frames one after another.
-/
import RemoteCall.Frame.Basic

namespace RemoteCall.Frame

/-! ## §1. The front of a buffer. -/

/-- The bytes of the size field. -/
def sizeLength : Nat := 4

/-- What decoding the front of a buffer comes to. -/
inductive Decoded (φ : Type) where
  | incomplete
  /-- A frame, and the bytes behind it. -/
  | frame (f : φ) (rest : Bytes)
  /-- The buffer is at fault; the bytes that are left. -/
  | fault (e : Failure) (rest : Bytes)
  deriving Repr

/-- Decodes the front of a buffer.  The body of a frame has at least `least` and at most `max`
bytes; `parse` makes a frame of its size and its body. -/
def decodeWith {φ : Type} (least : Nat) (parse : Nat → Bytes → Outcome φ) (max : Nat)
    (src : Bytes) : Decoded φ :=
  if src.length < sizeLength then .incomplete
  else
    let size := BigEndian.decode (src.take sizeLength)
    if size < least then
      .fault (.invalidMessage s!"Frame size {size} shorter than header ({least} bytes)") src
    else if max < size then .fault (.messageTooLarge size max) src
    else if src.length < sizeLength + size then .incomplete
    else
      let body := (src.drop sizeLength).take size
      let rest := src.drop (sizeLength + size)
      match parse size body with
      | .ok f => .frame f rest
      | .error e => .fault e rest

/-- A decoded frame takes at least its size field off the buffer. -/
theorem length_of_decodeWith {φ : Type} {least max : Nat} {parse : Nat → Bytes → Outcome φ}
    {src rest : Bytes} {f : φ} (h : decodeWith least parse max src = .frame f rest) :
    rest.length < src.length := by
  unfold decodeWith at h
  split at h
  · cases h
  · next hlen =>
    simp only [] at h
    split at h
    · cases h
    · split at h
      · cases h
      · split at h
        · cases h
        · split at h
          · injection h with _ hrest
            rw [← hrest, List.length_drop]
            simp only [sizeLength] at *
            omega
          · cases h

/-- Decodes until more bytes are needed or a frame is at fault: the frames, the fault if there is
one, and the bytes that are left. -/
def drainWith {φ : Type} (least : Nat) (parse : Nat → Bytes → Outcome φ) (max : Nat)
    (src : Bytes) : List φ × Option Failure × Bytes :=
  match _h : decodeWith least parse max src with
  | .incomplete => ([], none, src)
  | .fault e rest => ([], some e, rest)
  | .frame f rest =>
    let (frames, fault, left) := drainWith least parse max rest
    (f :: frames, fault, left)
termination_by src.length
decreasing_by exact length_of_decodeWith _h

/-! ## §2. Many frames. -/

/-- What a chunk of a stream brings. -/
structure Fed (φ : Type) where
  frames : List φ
  fault : Option Failure
  /-- The bytes that are left in the buffer. -/
  left : Bytes

/-- Appends chunks to a buffer, one by one, and drains it after each. -/
def feed {φ : Type} (drain : Bytes → List φ × Option Failure × Bytes) :
    (buffer : Bytes) → (chunks : List Bytes) → List (Fed φ)
  | _, [] => []
  | buffer, chunk :: chunks =>
    let (frames, fault, left) := drain (buffer ++ chunk)
    ⟨frames, fault, left⟩ :: feed drain left chunks

/-- Appends the written forms of frames to a buffer: for each frame the length of the buffer, or why
it is as it was, and the buffer in the end. -/
def appendAll {φ : Type} (encode : φ → Outcome Bytes) :
    (buffer : Bytes) → List φ → List (Outcome Nat) × Bytes
  | buffer, [] => ([], buffer)
  | buffer, f :: fs =>
    match encode f with
    | .ok bytes =>
      let longer := buffer ++ bytes
      let (steps, final) := appendAll encode longer fs
      (.ok longer.length :: steps, final)
    | .error e =>
      let (steps, final) := appendAll encode buffer fs
      (.error e :: steps, final)

end RemoteCall.Frame

namespace RemoteCall

open RemoteCall.Frame

/-! ## §3. Request frames. -/

namespace RequestFrame

/-- The request frame with this body. -/
def ofBody (size : Nat) (body : Bytes) : Outcome RequestFrame := do
  let kind ← RequestKind.ofCode (body.headD 0)
  return {
    size := size.toUInt32
    kind
    version := (BigEndian.decode ((body.drop 1).take 4)).toUInt32
    sequence := (BigEndian.decode ((body.drop 5).take 8)).toUInt64
    payload := body.drop requestHeaderLength }

/-- Decodes the front of a buffer. -/
def decode (max : Nat) (src : Bytes) : Decoded RequestFrame :=
  decodeWith requestHeaderLength ofBody max src

/-- Decodes as many frames as a buffer holds. -/
def drain (max : Nat) (src : Bytes) : List RequestFrame × Option Failure × Bytes :=
  drainWith requestHeaderLength ofBody max src

/-- The written form of a frame, which has its true size whatever its size field says; a frame
beyond the limit is refused. -/
def encode (max : Nat) (frame : RequestFrame) : Outcome Bytes :=
  let size := requestHeaderLength + frame.payload.length
  if max < size then .error (.messageTooLarge size max)
  else
    .ok (BigEndian.encode 4 size ++ [frame.kind.code] ++ BigEndian.encode 4 frame.version.toNat
      ++ BigEndian.encode 8 frame.sequence.toNat ++ frame.payload)

end RequestFrame

/-! ## §4. Response frames. -/

namespace ResponseFrame

/-- The response frame with this body. -/
def ofBody (size : Nat) (body : Bytes) : Outcome ResponseFrame := do
  let status ← Status.ofCode ((body.drop 8).headD 0)
  return {
    size := size.toUInt32
    sequence := (BigEndian.decode (body.take 8)).toUInt64
    status
    payload := body.drop responseHeaderLength }

/-- Decodes the front of a buffer. -/
def decode (max : Nat) (src : Bytes) : Decoded ResponseFrame :=
  decodeWith responseHeaderLength ofBody max src

/-- Decodes as many frames as a buffer holds. -/
def drain (max : Nat) (src : Bytes) : List ResponseFrame × Option Failure × Bytes :=
  drainWith responseHeaderLength ofBody max src

/-- The written form of a frame, which has its true size whatever its size field says; a frame
beyond the limit is refused. -/
def encode (max : Nat) (frame : ResponseFrame) : Outcome Bytes :=
  let size := responseHeaderLength + frame.payload.length
  if max < size then .error (.messageTooLarge size max)
  else
    .ok (BigEndian.encode 4 size ++ BigEndian.encode 8 frame.sequence.toNat ++ [frame.status.code]
      ++ frame.payload)

end ResponseFrame

end RemoteCall
