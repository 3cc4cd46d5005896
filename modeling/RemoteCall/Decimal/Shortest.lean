/-
  RemoteCall.Decimal.Shortest
  ───────────────────────────
  **THE FEWEST DIGITS THAT READ BACK.**

  A finite binary fraction of double precision is `m · 2^q`.  The reals that
  round to it form an interval, which holds its ends iff `m` is even.  For one
  digit, two digits, and so on, the two neighbours of the value on that decimal
  grid are tested in exact arithmetic; the first grid with a hit wins, and of
  two hits the nearer one.

      digits x = d · 10^e,  `d` without trailing zeros

  The number is then written by `Digits.positional` (never an exponent) or by
  `Digits.scientific`.
-/

namespace RemoteCall

namespace Decimal

/-! ## §1. Finite doubles as binary fractions. -/

/-- A positive binary fraction `mantissa · 2 ^ exponent`, with the width of the gap below it. -/
structure Binary where
  mantissa : Nat
  exponent : Int
  /-- Whether the gap to the next smaller double is half as wide as the one above. -/
  narrowBelow : Bool
  deriving DecidableEq, Repr

/-- The sign and the magnitude of a double; `none` stands for a magnitude that is not finite. -/
def Binary.ofBits (bits : Nat) : Option Binary :=
  let fraction : Nat := bits % 2 ^ 52
  let biased : Nat := bits / 2 ^ 52 % 2 ^ 11
  if biased = 2047 then none
  else if biased = 0 then some ⟨fraction, -1074, false⟩
  else some ⟨2 ^ 52 + fraction, (biased : Int) - 1075, fraction == 0 && 1 < biased⟩

/-! ## §2. The search for the shortest grid point. -/

/-- A decimal number `coefficient · 10 ^ exponent`. -/
structure Digits where
  /-- The digits, read as one number. -/
  coefficient : Nat
  exponent : Int
  deriving DecidableEq, Repr

/-- Strips trailing zeros off the coefficient, at most `fuel` of them. -/
def Digits.strip : Nat → Digits → Digits
  | 0, d => d
  | fuel + 1, d =>
    if d.coefficient ≠ 0 ∧ d.coefficient % 10 = 0 then
      strip fuel ⟨d.coefficient / 10, d.exponent + 1⟩
    else d

/-- The power of ten at or below `num / den`, for a positive `num`. -/
def magnitude (num den : Nat) : Int :=
  if den ≤ num then ((Nat.toDigits 10 (num / den)).length : Int) - 1
  else
    match (List.range 400).find? fun k => den ≤ num * 10 ^ (k + 1) with
    | some k => -((k : Int) + 1)
    | none => -400

/-- The interval of reals that round to a value, over the common denominator `den`. -/
structure Rounding where
  den : Nat
  /-- The numerator of the lower end. -/
  low : Nat
  value : Nat
  /-- The numerator of the upper end. -/
  high : Nat
  /-- Whether the ends belong to the interval. -/
  closed : Bool

/-- The reals that round to a binary fraction. -/
def Binary.rounding (b : Binary) : Rounding :=
  let up := 2 ^ (b.exponent - 2).toNat
  let den := 2 ^ (2 - b.exponent).toNat
  let below := if b.narrowBelow then 1 else 2
  ⟨den, (4 * b.mantissa - below) * up, 4 * b.mantissa * up, (4 * b.mantissa + 2) * up,
    b.mantissa % 2 == 0⟩

/-- Whether `d · 10^e` rounds to the value. -/
def Rounding.holds (r : Rounding) (d : Digits) : Bool :=
  let point := d.coefficient * 10 ^ d.exponent.toNat * r.den
  let scale := 10 ^ (-d.exponent).toNat
  if r.closed then r.low * scale ≤ point && point ≤ r.high * scale
  else r.low * scale < point && point < r.high * scale

/-- The distance of `d · 10^e` from the value, over a denominator that depends on `e` alone. -/
def Rounding.distance (r : Rounding) (d : Digits) : Nat :=
  let point := d.coefficient * 10 ^ d.exponent.toNat * r.den
  let value := r.value * 10 ^ (-d.exponent).toNat
  (point - value) + (value - point)

/-- The nearest point of the grid `10^e · ℤ` that rounds to the value, if there is one. -/
def Rounding.onGrid? (r : Rounding) (e : Int) : Option Digits :=
  let lower : Digits :=
    ⟨r.value * 10 ^ (-e).toNat / (r.den * 10 ^ e.toNat), e⟩
  let upper : Digits := ⟨lower.coefficient + 1, e⟩
  match r.holds lower, r.holds upper with
  | true, true =>
    let below := r.distance lower
    let above := r.distance upper
    if below < above ∨ (below = above ∧ lower.coefficient % 2 = 0) then some lower else some upper
  | true, false => some lower
  | false, true => some upper
  | false, false => none

/-- The shortest decimal that rounds to a positive binary fraction. -/
def Binary.digits (b : Binary) : Digits :=
  let r := b.rounding
  let top := magnitude r.value r.den
  match (List.range 17).findSome? fun (n : Nat) => r.onGrid? (top - n) with
  | some d => d.strip 400
  | none => ⟨0, 0⟩

/-! ## §3. Doubles. -/

/-- A double, taken apart for writing. -/
inductive Parts where
  /-- A finite number and whether its sign is negative. -/
  | finite (negative : Bool) (magnitude : Digits)
  | infinite (negative : Bool)
  | nan
  deriving DecidableEq, Repr

/-- Takes a double apart. -/
def parts (x : Float) : Parts :=
  let bits := x.toBits.toNat
  let negative := bits / 2 ^ 63 == 1
  match Binary.ofBits bits with
  | some b => .finite negative (if b.mantissa = 0 then ⟨0, 0⟩ else b.digits)
  | none => if bits % 2 ^ 52 = 0 then .infinite negative else .nan

/-- The decimal digits of a number. -/
def figures (n : Nat) : List Char :=
  Nat.toDigits 10 n

/-- The positional form: no exponent, and no point if the number is whole. -/
def Digits.positional (d : Digits) : String :=
  let ds := figures d.coefficient
  if 0 ≤ d.exponent then String.ofList (ds ++ List.replicate d.exponent.toNat '0')
  else
    let places := (-d.exponent).toNat
    let padded := List.replicate (places + 1 - ds.length) '0' ++ ds
    let whole := padded.length - places
    String.ofList (padded.take whole ++ '.' :: padded.drop whole)

/-- The form with one digit before the point and an exponent after it. -/
def Digits.scientific (d : Digits) : String :=
  let ds := figures d.coefficient
  let shown := d.exponent + ds.length - 1
  let mantissa := if ds.length = 1 then ds else ds.take 1 ++ '.' :: ds.drop 1
  String.ofList mantissa ++ "e" ++ toString shown

/-- A double in positional form, padded with zeros and never with an exponent. -/
def positional (x : Float) : String :=
  match parts x with
  | .finite negative d => (if negative then "-" else "") ++ d.positional
  | .infinite negative => if negative then "-inf" else "inf"
  | .nan => "NaN"

end Decimal

end RemoteCall
