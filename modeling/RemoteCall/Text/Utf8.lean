/-
  RemoteCall.Text.Utf8
  ────────────────────
  **WHERE A BYTE STRING STOPS BEING UTF-8.**

  A well-formed text is recognised by `String.fromUTF8?`.  This module says
  what is wrong with any other byte string, and how it is read when a reader
  must not fail:

      Utf8.head bytes   — what the byte string starts with
      Utf8.fault? bytes — the first ill-formed subsequence and where it stands
      Utf8.lossy bytes  — one U+FFFD for each maximal ill-formed subsequence

  The lead byte fixes the length of a character and the range of its second
  byte; that range shuts out overlong forms, surrogates and everything above
  U+10FFFF.
-/
import RemoteCall.Bytes

namespace RemoteCall

namespace Utf8

/-! ## §1. One character. -/

/-- What a non-empty byte string starts with. -/
inductive Head where
  /-- A character of this many bytes. -/
  | character (length : Nat)
  /-- A maximal ill-formed subsequence of this many bytes. -/
  | illFormed (length : Nat)
  /-- The start of a character, cut off by the end of the bytes. -/
  | cutOff
  deriving DecidableEq, Repr

/-- Whether a byte continues a character. -/
def isContinuation (b : UInt8) : Bool :=
  0x80 ≤ b && b ≤ 0xBF

/-- The length of a character with this lead byte, and the range of its second byte. -/
def lead? (b : UInt8) : Option (Nat × UInt8 × UInt8) :=
  if 0xC2 ≤ b && b ≤ 0xDF then some (2, 0x80, 0xBF)
  else if b == 0xE0 then some (3, 0xA0, 0xBF)
  else if b == 0xED then some (3, 0x80, 0x9F)
  else if 0xE1 ≤ b && b ≤ 0xEF then some (3, 0x80, 0xBF)
  else if b == 0xF0 then some (4, 0x90, 0xBF)
  else if 0xF1 ≤ b && b ≤ 0xF3 then some (4, 0x80, 0xBF)
  else if b == 0xF4 then some (4, 0x80, 0x8F)
  else none

/-- Checks the `wanted` bytes after the second one; `seen` bytes are good so far. -/
def tail : (wanted seen : Nat) → Bytes → Head
  | 0, seen, _ => .character seen
  | _ + 1, _, [] => .cutOff
  | wanted + 1, seen, b :: rest =>
    if isContinuation b then tail wanted (seen + 1) rest else .illFormed seen

/-- What a byte string starts with, its first byte given apart. -/
def head (b : UInt8) (rest : Bytes) : Head :=
  if b < 0x80 then .character 1
  else
    match lead? b with
    | none => .illFormed 1
    | some (length, low, high) =>
      match rest with
      | [] => .cutOff
      | second :: rest =>
        if low ≤ second && second ≤ high then tail (length - 2) 2 rest else .illFormed 1

/-! ## §2. The first fault. -/

/-- Why a byte string is no text. -/
inductive Fault where
  /-- An ill-formed subsequence of `length` bytes starts at `index`. -/
  | illFormed (length index : Nat)
  /-- The character that starts at `index` is cut off. -/
  | cutOff (index : Nat)
  deriving DecidableEq, Repr

/-- The fault as reports word it. -/
def Fault.text : Fault → String
  | .illFormed length index => s!"invalid utf-8 sequence of {length} bytes from index {index}"
  | .cutOff index => s!"incomplete utf-8 byte sequence from index {index}"

/-- The first fault at or after `index`, of which `bytes` is the rest. -/
def faultFrom? (index : Nat) : Bytes → Option Fault
  | [] => none
  | b :: rest =>
    match head b rest with
    | .character length => faultFrom? (index + length) (rest.drop (length - 1))
    | .illFormed length => some (.illFormed length index)
    | .cutOff => some (.cutOff index)
termination_by bytes => bytes.length
decreasing_by simp only [List.length_drop, List.length_cons]; omega

/-- The first fault of a byte string. -/
def fault? (bytes : Bytes) : Option Fault :=
  faultFrom? 0 bytes

/-! ## §3. Reading text. -/

/-- The text that a byte string encodes. -/
def decode? (bytes : Bytes) : Option String :=
  String.fromUTF8? ⟨bytes.toArray⟩

/-- Replaces each maximal ill-formed subsequence by the bytes of U+FFFD. -/
def mend : Bytes → Bytes
  | [] => []
  | b :: rest =>
    match head b rest with
    | .character length => b :: rest.take (length - 1) ++ mend (rest.drop (length - 1))
    | .illFormed length => [0xEF, 0xBF, 0xBD] ++ mend (rest.drop (length - 1))
    | .cutOff => [0xEF, 0xBF, 0xBD]
termination_by bytes => bytes.length
decreasing_by all_goals simp only [List.length_drop, List.length_cons]; omega

/-- The text of a byte string in which ill-formed parts are replaced by U+FFFD. -/
def lossy (bytes : Bytes) : String :=
  match decode? bytes with
  | some text => text
  | none => (decode? (mend bytes)).getD ""

/-- A text is read back from its bytes. -/
theorem decode_ofText (text : String) : decode? (Bytes.ofText text) = some text := by
  unfold decode? Bytes.ofText String.fromUTF8?
  split
  · rfl
  · next h => exact absurd text.isValidUTF8 (by simpa using h)

/-- Only the bytes of a text are read as that text. -/
theorem ofText_of_decode {bytes : Bytes} {text : String} (h : decode? bytes = some text) :
    Bytes.ofText text = bytes := by
  unfold decode? String.fromUTF8? at h
  split at h
  · cases h; simp [Bytes.ofText, String.fromUTF8]
  · cases h

@[simp] theorem lossy_ofText (text : String) : lossy (Bytes.ofText text) = text := by
  simp [lossy, decode_ofText]

end Utf8

end RemoteCall
