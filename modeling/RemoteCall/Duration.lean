/-
  RemoteCall.Duration
  ───────────────────
  **SPANS OF TIME AND THEIR TEXT.**

  A duration is written in the largest of the units s, ms, µs and ns in which
  its whole part is not zero (ns if it is empty), followed by the fraction
  without trailing zeros.
-/

namespace RemoteCall

/-- A span of time. -/
structure Duration where
  seconds : Nat
  nanos : Nat
  deriving DecidableEq, Repr, Inhabited

/-- The duration with nanoseconds carried into seconds. -/
def Duration.of (seconds nanos : Nat) : Duration :=
  ⟨seconds + nanos / 1000000000, nanos % 1000000000⟩

/-- A span of whole milliseconds. -/
def Duration.ofMillis (ms : Nat) : Duration :=
  ⟨ms / 1000, ms % 1000 * 1000000⟩

/-- `whole` and the `places` decimal places that `fraction` spells, trailing zeros left out. -/
def Duration.decimal (whole fraction places : Nat) : String :=
  let ds := Nat.toDigits 10 fraction
  let padded := List.replicate (places - ds.length) '0' ++ ds
  let kept := (padded.reverse.dropWhile (· == '0')).reverse
  if kept.isEmpty then toString whole else toString whole ++ "." ++ String.ofList kept

/-- The duration as messages show it. -/
def Duration.text (d : Duration) : String :=
  if 0 < d.seconds then Duration.decimal d.seconds d.nanos 9 ++ "s"
  else if 1000000 ≤ d.nanos then
    Duration.decimal (d.nanos / 1000000) (d.nanos % 1000000) 6 ++ "ms"
  else if 1000 ≤ d.nanos then Duration.decimal (d.nanos / 1000) (d.nanos % 1000) 3 ++ "µs"
  else toString d.nanos ++ "ns"

end RemoteCall
