/-
  RemoteCall.Json.Token
  ─────────────────────
  **THE WORDS OF A JSON TEXT.**

  A text is cut into tokens before its structure is looked at.  Numerals keep
  their digits as written, so that a reader may refuse one that is out of range
  and another may pass over it.  A string that is no well-formed text (a lone
  surrogate, bytes that are not UTF-8) is still a token, without a text.

  Refused here: control characters in a string, unknown escapes, a leading
  zero, a point or an exponent mark without digits, and any other byte that
  starts no token.
-/
import RemoteCall.Text.Utf8

namespace RemoteCall.Json

/-! ## §1. Numerals. -/

/-- A numeral as written. -/
structure Numeral where
  /-- Whether a minus sign stands in front. -/
  negative : Bool
  whole : List Nat
  /-- The digits after the point; none if there is no point. -/
  fraction : List Nat
  /-- Whether the exponent is negative, and its digits. -/
  exponent : Option (Bool × List Nat)
  deriving DecidableEq, Repr

/-- Whether a byte is a decimal digit. -/
def isDigit (b : UInt8) : Bool :=
  0x30 ≤ b && b ≤ 0x39

/-- The digits at the front of a byte string, as numbers. -/
def digitsOf (bytes : Bytes) : List Nat :=
  (bytes.takeWhile isDigit).map fun b => b.toNat - 0x30

/-- The byte string behind its leading digits. -/
def afterDigits (bytes : Bytes) : Bytes :=
  bytes.dropWhile isDigit

/-- Takes a point and the digits after it, if a point follows. -/
def takeFraction (bytes : Bytes) : Option (List Nat × Bytes) :=
  match bytes with
  | [] => some ([], [])
  | b :: rest =>
    if b = 0x2E then
      if digitsOf rest = [] then none else some (digitsOf rest, afterDigits rest)
    else some ([], bytes)

/-- Takes the sign of an exponent; whether it is a minus, and the rest. -/
def takeSign : Bytes → Bool × Bytes
  | [] => (false, [])
  | b :: rest =>
    if b = 0x2D then (true, rest) else if b = 0x2B then (false, rest) else (false, b :: rest)

/-- Takes an exponent, if an exponent mark follows. -/
def takeExponent (bytes : Bytes) : Option (Option (Bool × List Nat) × Bytes) :=
  match bytes with
  | [] => some (none, [])
  | b :: rest =>
    if b = 0x65 ∨ b = 0x45 then
      let (negative, rest) := takeSign rest
      if digitsOf rest = [] then none
      else some (some (negative, digitsOf rest), afterDigits rest)
    else some (none, bytes)

/-- Takes a numeral whose sign is already taken. -/
def takeNumeral (negative : Bool) (bytes : Bytes) : Option (Numeral × Bytes) :=
  let whole := digitsOf bytes
  if whole = [] ∨ (whole.head? = some 0 ∧ 1 < whole.length) then none
  else do
    let (fraction, rest) ← takeFraction (afterDigits bytes)
    let (exponent, rest) ← takeExponent rest
    return (⟨negative, whole, fraction, exponent⟩, rest)

/-! ## §2. Strings. -/

/-- A piece of a string: a byte that stands for itself, or the sixteen bits that an escape names. -/
inductive Piece where
  | byte (b : UInt8)
  | unit (n : Nat)
  deriving DecidableEq, Repr

/-- The byte that an escape of one letter stands for. -/
def escaped? (b : UInt8) : Option UInt8 :=
  if b = 0x22 ∨ b = 0x5C ∨ b = 0x2F then some b
  else if b = 0x62 then some 0x08
  else if b = 0x66 then some 0x0C
  else if b = 0x6E then some 0x0A
  else if b = 0x72 then some 0x0D
  else if b = 0x74 then some 0x09
  else none

/-- The number that a hexadecimal digit stands for. -/
def hexDigit? (b : UInt8) : Option Nat :=
  Hex.value? (Char.ofNat b.toNat)

/-- The pieces of a string behind its opening mark, and what follows its closing mark. -/
def takePieces : Bytes → Option (List Piece × Bytes)
  | [] => none
  | b :: rest =>
    if b = 0x22 then some ([], rest)
    else if b < 0x20 then none
    else if b = 0x5C then
      match rest with
      | [] => none
      | e :: rest =>
        if e = 0x75 then
          match rest with
          | h₁ :: h₂ :: h₃ :: h₄ :: rest => do
            let a ← hexDigit? h₁
            let b ← hexDigit? h₂
            let c ← hexDigit? h₃
            let d ← hexDigit? h₄
            let (pieces, rest) ← takePieces rest
            return (.unit (((a * 16 + b) * 16 + c) * 16 + d) :: pieces, rest)
          | _ => none
        else do
          let byte ← escaped? e
          let (pieces, rest) ← takePieces rest
          return (.byte byte :: pieces, rest)
    else do
      let (pieces, rest) ← takePieces rest
      return (.byte b :: pieces, rest)

/-- Whether a unit is the first half of a surrogate pair. -/
def isHighSurrogate (n : Nat) : Bool :=
  0xD800 ≤ n && n < 0xDC00

/-- Whether a unit is the second half of a surrogate pair. -/
def isLowSurrogate (n : Nat) : Bool :=
  0xDC00 ≤ n && n < 0xE000

/-- The bytes that the pieces spell; a surrogate must stand in a pair. -/
def joinPieces : List Piece → Option Bytes
  | [] => some []
  | .byte b :: rest => (joinPieces rest).map (b :: ·)
  | .unit n :: rest =>
    if isHighSurrogate n then
      match rest with
      | .unit m :: rest =>
        if isLowSurrogate m then
          let c := Char.ofNat (0x10000 + (n - 0xD800) * 0x400 + (m - 0xDC00))
          (joinPieces rest).map (Bytes.ofText (String.singleton c) ++ ·)
        else none
      | _ => none
    else if isLowSurrogate n then none
    else (joinPieces rest).map (Bytes.ofText (String.singleton (Char.ofNat n)) ++ ·)

/-- The text that the pieces spell, if they spell one. -/
def textOf? (pieces : List Piece) : Option String :=
  (joinPieces pieces).bind Utf8.decode?

/-! ## §3. Tokens. -/

/-- A word of a JSON text. -/
inductive Token where
  | openArray
  | closeArray
  | openObject
  | closeObject
  | comma
  | colon
  | null
  /-- One of the words `true` and `false`. -/
  | bool (b : Bool)
  | number (n : Numeral)
  /-- A string, and its text if it is well formed. -/
  | string (text : Option String)
  deriving DecidableEq, Repr

/-- Whether a byte may stand between tokens. -/
def isBlank (b : UInt8) : Bool :=
  b == 0x20 || b == 0x09 || b == 0x0A || b == 0x0D

/-- Takes a word of which the first byte is already taken. -/
def takeWord (token : Token) (word : Bytes) (bytes : Bytes) : Option (Token × Bytes) :=
  if word.isPrefixOf bytes then some (token, bytes.drop word.length) else none

/-- Takes the token that starts with `b`. -/
def takeToken (b : UInt8) (rest : Bytes) : Option (Token × Bytes) :=
  if b = 0x5B then some (.openArray, rest)
  else if b = 0x5D then some (.closeArray, rest)
  else if b = 0x7B then some (.openObject, rest)
  else if b = 0x7D then some (.closeObject, rest)
  else if b = 0x2C then some (.comma, rest)
  else if b = 0x3A then some (.colon, rest)
  else if b = 0x22 then (takePieces rest).map fun (pieces, rest) => (.string (textOf? pieces), rest)
  else if b = 0x6E then takeWord .null [0x75, 0x6C, 0x6C] rest
  else if b = 0x74 then takeWord (.bool true) [0x72, 0x75, 0x65] rest
  else if b = 0x66 then takeWord (.bool false) [0x61, 0x6C, 0x73, 0x65] rest
  else if b = 0x2D then (takeNumeral true rest).map fun (n, rest) => (.number n, rest)
  else (takeNumeral false (b :: rest)).map fun (n, rest) => (.number n, rest)

/-- The tokens of a text, at most `fuel` of them. -/
def tokensFrom : (fuel : Nat) → Bytes → Option (List Token)
  | fuel, bytes =>
    match bytes.dropWhile isBlank, fuel with
    | [], _ => some []
    | _ :: _, 0 => none
    | b :: rest, fuel + 1 => do
      let (token, rest) ← takeToken b rest
      let tokens ← tokensFrom fuel rest
      return token :: tokens

/-- The tokens of a text.  Each takes at least one byte, so there are no more of them than bytes. -/
def tokens? (bytes : Bytes) : Option (List Token) :=
  tokensFrom bytes.length bytes

end RemoteCall.Json
