/-
  RemoteCall.Json.Value
  ─────────────────────
  **JSON VALUES.**

  A value is a document with its meaning settled: numbers in range, texts well
  formed, the members of an object sorted by key, the last one kept where a key
  is repeated.  Arrays and objects may be nested 127 deep.

  The written form is compact; an object is written in the order of its keys.
-/
import RemoteCall.Decimal.Shortest
import RemoteCall.Json.Number

namespace RemoteCall.Json

/-! ## §1. Values. -/

/-- A JSON value. -/
inductive Value where
  | null
  | bool (b : Bool)
  /-- An integer of 64 bits, signed or unsigned. -/
  | integer (n : Int)
  | float (x : Float)
  | string (text : String)
  | array (items : List Value)
  /-- The members of an object, by increasing key. -/
  | object (members : List (String × Value))
  deriving Inhabited

/-- Sets a member of an object, whose members stand by increasing key. -/
def putMember (key : String) (v : Value) : List (String × Value) → List (String × Value)
  | [] => [(key, v)]
  | (k, w) :: rest =>
    if key < k then (key, v) :: (k, w) :: rest
    else if key = k then (key, v) :: rest
    else (k, w) :: putMember key v rest

/-- The object with these members, given in any order. -/
def Value.ofMembers (members : List (String × Value)) : Value :=
  .object (members.foldl (fun sorted (key, v) => putMember key v sorted) [])

/-! ## §2. From documents. -/

/-- How deep arrays and objects may be nested. -/
def maxDepth : Nat := 127

/-- The value of a numeral. -/
def Number.toValue : Number → Value
  | .integer n => .integer n
  | .float x => .float x

mutual

/-- The value of a document whose arrays and objects are nested at most `depth` deep. -/
def Document.valueWithin? (depth : Nat) : Document → Option Value
  | .null => some .null
  | .bool b => some (.bool b)
  | .number n => n.value?.map Number.toValue
  | .string text => text.map .string
  | .array items =>
    match depth with
    | 0 => none
    | depth + 1 => (itemsWithin? depth items).map .array
  | .object members =>
    match depth with
    | 0 => none
    | depth + 1 => (membersWithin? depth members).map Value.ofMembers

/-- The values of the items of an array. -/
def itemsWithin? (depth : Nat) : List Document → Option (List Value)
  | [] => some []
  | d :: rest => do
    let v ← d.valueWithin? depth
    let vs ← itemsWithin? depth rest
    return v :: vs

/-- The keys and values of the members of an object. -/
def membersWithin? (depth : Nat) : List (Option String × Document) → Option (List (String × Value))
  | [] => some []
  | (key, d) :: rest => do
    let key ← key
    let v ← d.valueWithin? depth
    let vs ← membersWithin? depth rest
    return (key, v) :: vs

end

/-- The value that a text writes. -/
def Value.parse? (bytes : Bytes) : Option Value :=
  (Document.parse? bytes).bind (Document.valueWithin? maxDepth)

/-! ## §3. Written forms. -/

/-- A byte of a text as it stands in a string. -/
def escapeByte (b : UInt8) : Bytes :=
  if b = 0x22 ∨ b = 0x5C then [0x5C, b]
  else if b = 0x08 then [0x5C, 0x62]
  else if b = 0x09 then [0x5C, 0x74]
  else if b = 0x0A then [0x5C, 0x6E]
  else if b = 0x0C then [0x5C, 0x66]
  else if b = 0x0D then [0x5C, 0x72]
  else if b < 0x20 then Bytes.ofText "\\u00" ++ Bytes.ofText (Hex.byte b)
  else [b]

/-- A text as a string: only quotation marks, backslashes and control characters are escaped. -/
def printText (text : String) : Bytes :=
  0x22 :: (Bytes.ofText text).flatMap escapeByte ++ [0x22]

/-- A finite double: positional from 10^-5 up to 10^16 and always with a point, else scientific. -/
def floatText (x : Float) : String :=
  match Decimal.parts x with
  | .finite negative d =>
    let places : Int := (Decimal.figures d.coefficient).length
    let top := places + d.exponent
    (if negative then "-" else "")
      ++ (if -5 < top ∧ top ≤ 16 then d.positional ++ (if 0 ≤ d.exponent then ".0" else "")
          else d.scientific)
  | _ => "null"

mutual

/-- The compact written form of a value. -/
def Value.print : Value → Bytes
  | .null => Bytes.ofText "null"
  | .bool b => Bytes.ofText (if b then "true" else "false")
  | .integer n => Bytes.ofText (toString n)
  | .float x => Bytes.ofText (floatText x)
  | .string text => printText text
  | .array [] => [0x5B, 0x5D]
  | .array (v :: rest) => 0x5B :: v.print ++ printItems rest
  | .object [] => [0x7B, 0x7D]
  | .object ((key, v) :: rest) => 0x7B :: printText key ++ 0x3A :: v.print ++ printMembers rest

/-- The items of an array after the first one, and its end. -/
def printItems : List Value → Bytes
  | [] => [0x5D]
  | v :: rest => 0x2C :: v.print ++ printItems rest

/-- The members of an object after the first one, and its end. -/
def printMembers : List (String × Value) → Bytes
  | [] => [0x7D]
  | (key, v) :: rest => 0x2C :: printText key ++ 0x3A :: v.print ++ printMembers rest

end

/-! ## §4. Parts of a value. -/

namespace Value

/-- The member of an object under a key. -/
def get? (v : Value) (key : String) : Option Value :=
  match v with
  | .object members => (members.find? (·.1 == key)).map (·.2)
  | _ => none

/-- The text of a string. -/
def text? : Value → Option String
  | .string text => some text
  | _ => none

/-- A natural number. -/
def natural? : Value → Option Nat
  | .integer (.ofNat n) => some n
  | _ => none

/-- The truth value. -/
def bool? : Value → Option Bool
  | .bool b => some b
  | _ => none

/-- The items of an array. -/
def items? : Value → Option (List Value)
  | .array items => some items
  | _ => none

end Value

/-! ## §5. Tables with keys of any kind. -/

/-- The key under which a value stands in an object: only a text, or a scalar that has one. -/
def Value.key? : Value → Option String
  | .string text => some text
  | .integer n => some (toString n)
  | .bool b => some (if b then "true" else "false")
  | .float x => some (floatText x)
  | _ => none

/-- The object of a table of keys and values, if every key has a text. -/
def Value.ofTable? (entries : List (Value × Value)) : Option Value :=
  let member (entry : Value × Value) : Option (String × Value) :=
    entry.1.key?.map (·, entry.2)
  (entries.mapM member).map Value.ofMembers

end RemoteCall.Json
