/-
  RemoteCall.AgentName
  ────────────────────
  **NAMES OF LOGICAL AGENTS.**

  A name has 1 to 64 bytes, all of them ASCII letters, digits, `-`, `_`, `.`
  or `:`.  The length is checked before the characters, so a text with both
  faults is refused for its length.
-/
import RemoteCall.Failure.Basic
import RemoteCall.Text.Quoted

namespace RemoteCall

/-- Whether a character may stand in an agent name. -/
def AgentName.allows (c : Char) : Bool :=
  c.isAlphanum || c == '-' || c == '_' || c == '.' || c == ':'

/-- The most bytes that an agent name may have. -/
def AgentName.maxLength : Nat := 64

/-- Whether a text may name an agent. -/
def AgentName.isValid (text : String) : Bool :=
  !text.isEmpty && text.utf8ByteSize ≤ maxLength && text.toList.all allows

/-- The name of a logical agent. -/
structure AgentName where
  text : String
  /-- The name has an allowed length and holds allowed characters only. -/
  valid : AgentName.isValid text = true
  deriving DecidableEq, Repr

namespace AgentName

/-- Reads an agent name, or says what is wrong with the text. -/
def parse (text : String) : Outcome AgentName :=
  if h : isValid text = true then .ok ⟨text, h⟩
  else if text.isEmpty then .error (.invalidAgentName "empty name")
  else if maxLength < text.utf8ByteSize then
    .error (.invalidAgentName s!"{text.utf8ByteSize} bytes exceeds maximum of {maxLength}")
  else
    match text.toList.find? (!allows ·) with
    | some c =>
      .error (.invalidAgentName s!"invalid character {Quoted.char c} in {Quoted.text text}")
    | none => .error (.invalidAgentName text)

/-- The order of names is that of their bytes. -/
def order (a b : AgentName) : Ordering :=
  compare a.text b.text

end AgentName

end RemoteCall
