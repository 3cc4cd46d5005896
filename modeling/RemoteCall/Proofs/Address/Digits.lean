/-
  RemoteCall.Proofs.Address.Digits
  ────────────────────────────────
  **NUMBERS ARE READ BACK FROM THEIR DIGITS.**

  Addresses are written with numbers in radix ten and sixteen, always without
  leading zeros.  A reader takes all digits that follow, so a number is read back
  if whatever stands behind it does not start with a digit (`Stops`):

      "255" ++ ".0.0.1"   →  255, and ".0.0.1" is left
      "ffff" ++ "::1"     →  65535, and "::1" is left

  Main statements:
    • `Reads.isDigit_of_mem`, `Reads.number_toDigits` — the digits of a number,
    • `Reads.head?_toDigits`  — no leading zeros,
    • `Reads.digits_toDigits` — reading them off the front of a text.
-/
import RemoteCall.Address.Ip

namespace RemoteCall.Reads

variable {radix max n : Nat} {c : Char} {cs rest : List Char}

/-! ## §1. One digit. -/

theorem value?_digitChar (h : n < 16) : Hex.value? n.digitChar = some n := by
  have hall : ∀ n < 16, Hex.value? n.digitChar = some n := by decide
  exact hall n h

/-- Which numbers are digits in a radix. -/
theorem isDigit_digitChar (radix : Nat) (h : n < 16) :
    isDigit radix n.digitChar = decide (n < radix) := by
  unfold isDigit
  rw [value?_digitChar h]

/-- A decimal digit is a hexadecimal one. -/
theorem isDigit_sixteen (h : isDigit 10 c = true) : isDigit 16 c = true := by
  unfold isDigit at *
  split at h
  · have hlt := of_decide_eq_true h
    exact decide_eq_true (by omega)
  · cases h

/-! ## §2. The digits of a number. -/

/-- **What is written for a number consists of digits.** -/
theorem isDigit_of_mem (hone : 1 < radix) (hradix : radix ≤ 16)
    (h : c ∈ Nat.toDigits radix n) : isDigit radix c = true := by
  induction n using Nat.strongRecOn with
  | ind n ih =>
    have hlast : ∀ d, d < radix → isDigit radix d.digitChar = true := by
      intro d hd
      rw [isDigit_digitChar radix (by omega)]
      exact decide_eq_true hd
    rw [Nat.toDigits_eq_if hone] at h
    split at h
    · next hsmall =>
      rw [List.mem_singleton.mp h]
      exact hlast n hsmall
    · next hlarge =>
      rcases List.mem_append.mp h with hfront | hback
      · exact ih (n / radix) (Nat.div_lt_self (by omega) hone) hfront
      · rw [List.mem_singleton.mp hback]
        exact hlast _ (Nat.mod_lt n (by omega))

theorem number_append (radix : Nat) (ds : List Char) (d : Char) :
    number radix (ds ++ [d]) = number radix ds * radix + (Hex.value? d).getD 0 := by
  unfold number
  rw [List.foldl_append]
  rfl

/-- **They spell the number.** -/
theorem number_toDigits (hone : 1 < radix) (hradix : radix ≤ 16) (n : Nat) :
    number radix (Nat.toDigits radix n) = n := by
  induction n using Nat.strongRecOn with
  | ind n ih =>
    have hlast : ∀ d, d < radix → (Hex.value? d.digitChar).getD 0 = d := by
      intro d hd
      rw [value?_digitChar (by omega)]
      rfl
    rw [Nat.toDigits_eq_if hone]
    split
    · next hsmall =>
      show number radix ([] ++ [n.digitChar]) = n
      rw [number_append, hlast n hsmall]
      show 0 * radix + n = n
      omega
    · next hlarge =>
      rw [number_append, ih (n / radix) (Nat.div_lt_self (by omega) hone),
        hlast _ (Nat.mod_lt n (by omega))]
      exact Nat.div_add_mod' n radix

/-- **There is no leading zero**, except in zero itself. -/
theorem head?_toDigits (hone : 1 < radix) (hradix : radix ≤ 16)
    (h : (Nat.toDigits radix n).head? = some '0') : n = 0 := by
  induction n using Nat.strongRecOn with
  | ind n ih =>
    rw [Nat.toDigits_eq_if hone] at h
    split at h
    · next hsmall =>
      have hvalue := value?_digitChar (show n < 16 by omega)
      have hzero : n.digitChar = '0' := Option.some.inj h
      rw [hzero] at hvalue
      exact (Option.some.inj hvalue).symm
    · next hlarge =>
      rw [List.head?_append, Option.or_of_isSome (by simp [Nat.toDigits_ne_nil])] at h
      have hnone := ih (n / radix) (Nat.div_lt_self (by omega) hone) h
      have hsome : 0 < n / radix := Nat.div_pos (by omega) (by omega)
      omega

/-! ## §3. Reading. -/

/-- A text does not start with a digit. -/
def Stops (radix : Nat) (cs : List Char) : Prop :=
  ∀ c, cs.head? = some c → isDigit radix c = false

theorem stops_nil (radix : Nat) : Stops radix [] := by
  intro c h
  cases h

theorem stops_cons (h : isDigit radix c = false) (cs : List Char) : Stops radix (c :: cs) := by
  intro d hd
  rw [← Option.some.inj hd]
  exact h

theorem Stops.takeWhile (h : Stops radix cs) : cs.takeWhile (isDigit radix) = [] := by
  cases cs with
  | nil => rfl
  | cons c cs => exact List.takeWhile_cons_of_neg (by simp [h c rfl])

theorem Stops.dropWhile (h : Stops radix cs) : cs.dropWhile (isDigit radix) = cs := by
  cases cs with
  | nil => rfl
  | cons c cs => exact List.dropWhile_cons_of_neg (by simp [h c rfl])

/-- What does not start with a hexadecimal digit does not start with a decimal one. -/
theorem Stops.ten (h : Stops 16 cs) : Stops 10 cs := by
  intro c hc
  cases hdigit : isDigit 10 c with
  | false => rfl
  | true =>
    have hsixteen := h c hc
    rw [isDigit_sixteen hdigit] at hsixteen
    cases hsixteen

/-- **A number is read back from its digits.** -/
theorem digits_toDigits (hone : 1 < radix) (hradix : radix ≤ 16) (hmax : n ≤ max)
    (h : Stops radix rest) :
    digits radix max (Nat.toDigits radix n ++ rest) = some ((Nat.toDigits radix n, n), rest) := by
  have hall : ∀ c ∈ Nat.toDigits radix n, isDigit radix c = true := by
    intro c hc
    exact isDigit_of_mem hone hradix hc
  unfold digits
  rw [List.takeWhile_append_of_pos hall, List.dropWhile_append_of_pos hall, h.takeWhile,
    h.dropWhile, List.append_nil]
  dsimp only
  rw [number_toDigits hone hradix]
  have hsome : (Nat.toDigits radix n).isEmpty = false :=
    List.isEmpty_eq_false_iff.mpr Nat.toDigits_ne_nil
  have hle : decide (max < n) = false := decide_eq_false (by omega)
  rw [hsome, hle]
  rfl

/-- Where no digit stands, no number is read. -/
theorem digits_of_stops (h : Stops radix cs) (max : Nat) : digits radix max cs = none := by
  unfold digits
  dsimp only
  rw [h.takeWhile]
  rfl

/-- Whatever is left behind a number does not start with a digit. -/
theorem rest_of_digits {ds : List Char} (h : digits radix max cs = some ((ds, n), rest)) :
    rest = cs.dropWhile (isDigit radix) := by
  unfold digits at h
  dsimp only at h
  split at h
  · cases h
  · cases h
    rfl

theorem given_of_ne {d : Char} (h : c ≠ d) (cs : List Char) : given c (d :: cs) = none :=
  if_neg h

theorem given_self (c : Char) (cs : List Char) : given c (c :: cs) = some cs :=
  if_pos rfl

theorem separator_behind (c : Char) (cs : List Char) : separator false c (c :: cs) = some cs :=
  given_self c cs

end RemoteCall.Reads
