/-
  RemoteCall.Json.Number
  ──────────────────────
  **WHAT A NUMERAL IS WORTH.**

  A numeral without point and exponent that fits 64 bits is an integer.  Every
  other numeral is a double: the leading digits that fit an unsigned 64-bit
  significand are kept, the others only move the point, and the significand is
  multiplied or divided once by a power of ten (more than once only below
  10^-308).  Only a numeral beyond the largest double is refused.  A minus sign
  before an integer zero makes it the double -0.
-/
import RemoteCall.Json.Document

namespace RemoteCall.Json

/-- The value of a numeral. -/
inductive Number where
  /-- An integer of 64 bits, signed or unsigned. -/
  | integer (n : Int)
  | float (x : Float)

/-- The largest significand. -/
def maxSignificand : Nat := 2 ^ 64 - 1

/-- Appends digits to a significand as long as it fits; the digits that are left over come last. -/
def absorb : (significand : Nat) → List Nat → Nat × List Nat
  | n, [] => (n, [])
  | n, d :: ds => if n * 10 + d ≤ maxSignificand then absorb (n * 10 + d) ds else (n, d :: ds)

/-- The double `10 ^ e`. -/
def powerOfTen (e : Nat) : Float :=
  Float.ofScientific 1 false e

/-- Moves the point of a double; `steps` bounds how often it is divided by 10^308 before. -/
def movePoint (steps : Nat) (x : Float) (exponent : Int) : Option Float :=
  if 308 < exponent then (if x == 0 then some x else none)
  else if 0 ≤ exponent then
    let y := x * powerOfTen exponent.toNat
    if y.isInf then none else some y
  else if -308 ≤ exponent then some (x / powerOfTen (-exponent).toNat)
  else if x == 0 then some x
  else
    match steps with
    | 0 => some 0
    | steps + 1 => movePoint steps (x / powerOfTen 308) (exponent + 308)

/-- The number that decimal digits spell. -/
def spell (ds : List Nat) : Nat :=
  ds.foldl (fun n d => n * 10 + d) 0

/-- The largest exponent that is taken at its word. -/
def maxExponent : Nat := 2 ^ 31 - 1

namespace Numeral

/-- Whether the numeral has a point or an exponent. -/
def isFractional (n : Numeral) : Bool :=
  !n.fraction.isEmpty || n.exponent.isSome

/-- Gives a double the sign of the numeral. -/
def signed (n : Numeral) (x : Float) : Float :=
  if n.negative then -x else x

/-- The double that a numeral stands for. -/
def toFloat? (n : Numeral) : Option Float :=
  let (significand, spare) := absorb 0 n.whole
  let (significand, unused) := absorb significand n.fraction
  let start : Int := (spare.length : Int) - ((n.fraction.length - unused.length : Nat) : Int)
  let scaled (exponent : Int) := movePoint 4 significand.toUInt64.toFloat exponent
  match n.exponent with
  | none => (scaled start).map n.signed
  | some (negative, ds) =>
    if maxExponent < spell ds then
      if significand ≠ 0 ∧ !negative then none else some (n.signed 0)
    else
      (scaled (if negative then start - spell ds else start + spell ds)).map n.signed

/-- The value of a numeral, unless it is out of range. -/
def value? (n : Numeral) : Option Number :=
  if n.isFractional then n.toFloat?.map .float
  else
    let m := spell n.whole
    if n.negative then
      if m = 0 ∨ 2 ^ 63 < m then n.toFloat?.map .float else some (.integer (-m))
    else if m ≤ maxSignificand then some (.integer m)
    else n.toFloat?.map .float

end Numeral

namespace Document

/-- An unsigned integer below a bound. -/
def natural? (bound : Nat) : Document → Option Nat
  | .number n =>
    match n.value? with
    | some (.integer (.ofNat m)) => if m < bound then some m else none
    | _ => none
  | _ => none

/-- A double; an integer is rounded to one. -/
def float? : Document → Option Float
  | .number n =>
    match n.value? with
    | some (.integer i) =>
      some (if i < 0 then -(i.natAbs.toUInt64.toFloat) else i.natAbs.toUInt64.toFloat)
    | some (.float x) => some x
    | none => none
  | _ => none

end Document

end RemoteCall.Json
