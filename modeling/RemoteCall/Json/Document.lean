/-
  RemoteCall.Json.Document
  ────────────────────────
  **JSON DOCUMENTS AS WRITTEN.**

  A document keeps everything that its text says: members in order, repeated
  keys, numerals digit by digit.  What a reader makes of it (a value, a record
  with known fields) is decided later, so a part that is not read may hold what
  no value can hold.

  The tokens are taken one after another by a machine with a stack of open
  arrays and objects (`Builder.step`); a document may be nested to any depth.
-/
import RemoteCall.Json.Token

namespace RemoteCall.Json

/-! ## §1. Documents. -/

/-- A JSON document. -/
inductive Document where
  | null
  | bool (b : Bool)
  | number (n : Numeral)
  /-- A string; without a text if it is not well formed. -/
  | string (text : Option String)
  | array (items : List Document)
  /-- The members of an object, in order. -/
  | object (members : List (Option String × Document))
  deriving Inhabited

/-! ## §2. Building a document from tokens. -/

/-- An array or object that is not closed yet; what it holds is in reverse order. -/
inductive Open where
  /-- An array with its items so far. -/
  | array (items : List Document)
  /-- An object with its members so far and the key that waits for its value. -/
  | object (members : List (Option String × Document)) (key : Option String)

/-- What may follow. -/
inductive Expect where
  | value
  /-- A value, or the end of an array that has just been opened. -/
  | valueOrEnd
  | key
  /-- A key, or the end of an object that has just been opened. -/
  | keyOrEnd
  | colon
  /-- A comma, or the end of the innermost array or object. -/
  | separator
  /-- Nothing: the document is complete. -/
  | nothing (result : Document)

/-- The machine that builds a document. -/
structure Builder where
  stack : List Open
  expect : Expect

namespace Builder

/-- Before the first token. -/
def start : Builder := ⟨[], .value⟩

/-- Puts a finished document where it belongs. -/
def supply (d : Document) : List Open → Builder
  | [] => ⟨[], .nothing d⟩
  | .array items :: rest => ⟨.array (d :: items) :: rest, .separator⟩
  | .object members key :: rest => ⟨.object ((key, d) :: members) none :: rest, .separator⟩

/-- Closes the innermost array. -/
def closeArray : List Open → Option Builder
  | .array items :: rest => some (supply (.array items.reverse) rest)
  | _ => none

/-- Closes the innermost object. -/
def closeObject : List Open → Option Builder
  | .object members _ :: rest => some (supply (.object members.reverse) rest)
  | _ => none

/-- Takes a token where a value may stand. -/
def takeValue (stack : List Open) : Token → Option Builder
  | .null => some (supply .null stack)
  | .bool b => some (supply (.bool b) stack)
  | .number n => some (supply (.number n) stack)
  | .string text => some (supply (.string text) stack)
  | .openArray => some ⟨.array [] :: stack, .valueOrEnd⟩
  | .openObject => some ⟨.object [] none :: stack, .keyOrEnd⟩
  | _ => none

/-- Takes a token where a key may stand. -/
def takeKey : List Open → Token → Option Builder
  | .object members _ :: rest, .string text => some ⟨.object members text :: rest, .colon⟩
  | _, _ => none

/-- Takes one token. -/
def step (b : Builder) (token : Token) : Option Builder :=
  match b.expect, token with
  | .value, token => takeValue b.stack token
  | .valueOrEnd, .closeArray => closeArray b.stack
  | .valueOrEnd, token => takeValue b.stack token
  | .key, token => takeKey b.stack token
  | .keyOrEnd, .closeObject => closeObject b.stack
  | .keyOrEnd, token => takeKey b.stack token
  | .colon, .colon => some ⟨b.stack, .value⟩
  | .separator, .comma =>
    match b.stack with
    | .array _ :: _ => some ⟨b.stack, .value⟩
    | .object _ _ :: _ => some ⟨b.stack, .key⟩
    | [] => none
  | .separator, .closeArray => closeArray b.stack
  | .separator, .closeObject => closeObject b.stack
  | _, _ => none

/-- The document, once it is complete. -/
def result? (b : Builder) : Option Document :=
  match b.expect with
  | .nothing d => some d
  | _ => none

end Builder

namespace Document

/-- The document that a text writes; nothing but blanks may stand around it. -/
def parse? (bytes : Bytes) : Option Document := do
  let tokens ← tokens? bytes
  let built ← tokens.foldlM Builder.step Builder.start
  built.result?

/-! ## §3. Reading the parts of a document. -/

/-- The text of a well-formed string. -/
def text? : Document → Option String
  | .string text => text
  | _ => none

/-- The parts of a record with these field names.  An object may hold other members, which are
passed over, but no field twice; an array gives the fields in order and may be short. -/
def fields? (names : List String) : Document → Option (List (Option Document))
  | .object members =>
    if members.any (·.1.isNone) then none
    else
      names.mapM fun name =>
        match members.filter (·.1 == some name) with
        | [] => some none
        | [(_, d)] => some (some d)
        | _ => none
  | .array items =>
    if names.length < items.length then none
    else some (items.map some ++ List.replicate (names.length - items.length) none)
  | _ => none

end Document

end RemoteCall.Json
