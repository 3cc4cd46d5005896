/-
  RemoteCall.Payload.Reader
  ─────────────────────────
  **READING A PAYLOAD FROM THE FRONT.**

  A reading step takes bytes off the front of what is left of a payload.  It
  may fail; what is left after a failure is still defined, because a reader may
  go on from there.  A step that runs short takes nothing.
-/
import RemoteCall.Failure.Basic
import RemoteCall.Bytes

namespace RemoteCall.Payload

/-- A reading step: what it comes to, and the bytes that are left. -/
def Read (α : Type) : Type :=
  Bytes → Outcome α × Bytes

namespace Read

/-- Reads nothing. -/
def pure {α : Type} (a : α) : Read α :=
  fun bytes => (.ok a, bytes)

/-- Reads on with `f`, unless the first step fails. -/
def bind {α β : Type} (r : Read α) (f : α → Read β) : Read β :=
  fun bytes =>
    match r bytes with
    | (.ok a, rest) => f a rest
    | (.error e, rest) => (.error e, rest)

instance : Monad Read where
  pure := Read.pure
  bind := Read.bind

/-- Fails without reading. -/
def fail {α : Type} (detail : String) : Read α :=
  fun bytes => (.error (.decode detail), bytes)

/-- Takes `n` bytes; `what` names them if there are fewer. -/
def takeAs (what : String) (n : Nat) : Read Bytes :=
  fun bytes =>
    if bytes.length < n then
      (.error (.decode s!"truncated {what}: need {n} bytes, have {bytes.length}"), bytes)
    else (.ok (bytes.take n), bytes.drop n)

/-- Takes `n` bytes. -/
def take (n : Nat) : Read Bytes :=
  takeAs "bytes" n

/-- Takes a number of `width` bytes, most significant first. -/
def number (what : String) (width : Nat) : Read Nat := do
  let bytes ← takeAs what width
  return BigEndian.decode bytes

/-- Takes a number of one byte. -/
def u8 : Read UInt8 := do
  let n ← number "u8" 1
  return n.toUInt8

/-- Takes a number of two bytes. -/
def u16 : Read UInt16 := do
  let n ← number "u16" 2
  return n.toUInt16

/-- Takes a number of four bytes. -/
def u32 : Read UInt32 := do
  let n ← number "u32" 4
  return n.toUInt32

/-- Takes a number of eight bytes. -/
def u64 : Read UInt64 := do
  let n ← number "u64" 8
  return n.toUInt64

/-- Takes a byte string with its length in four bytes before it. -/
def field : Read Bytes := do
  let n ← u32
  take n.toNat

/-- Takes everything that is left. -/
def rest : Read Bytes :=
  fun bytes => (.ok bytes, [])

end Read

end RemoteCall.Payload
