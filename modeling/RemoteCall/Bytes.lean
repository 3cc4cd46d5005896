/-
  RemoteCall.Bytes
  ────────────────
  **BYTE STRINGS.**

  A byte string is a list of bytes.  This module holds the two written forms
  that the rest of the library needs:

      BigEndian.encode w n   — the low `w` bytes of `n`, most significant first
      BigEndian.decode bs    — the number that a byte string spells
      Hex.encode / decode?   — two lower-case digits for each byte

  Main statements: `BigEndian.decode_encode` (a number that fits its width is
  read back), `BigEndian.encode_decode` (every byte string is the written form
  of the number it spells).
-/

namespace RemoteCall

/-- A byte string. -/
abbrev Bytes := List UInt8

/-- The UTF-8 bytes of a text. -/
def Bytes.ofText (text : String) : Bytes :=
  text.toByteArray.data.toList

/-! ## §1. Numbers of a fixed width, most significant byte first. -/

-- Powers are those of the core library, wherever this module is imported: algebra that is imported
-- beside it brings another instance, and a text would have two readings.
attribute [instance (20000), default_instance (20000)] instPowNat

/-- The low `width` bytes of `n`, most significant first. -/
def BigEndian.encode : (width : Nat) → (n : Nat) → Bytes
  | 0, _ => []
  | width + 1, n => UInt8.ofNat (n / 256 ^ width) :: BigEndian.encode width n

/-- The number that a byte string spells in base 256. -/
def BigEndian.decode (bytes : Bytes) : Nat :=
  bytes.foldl (fun n b => n * 256 + b.toNat) 0

@[simp] theorem BigEndian.length_encode (width n : Nat) :
    (BigEndian.encode width n).length = width := by
  induction width with
  | zero => rfl
  | succ width ih => simp [BigEndian.encode, ih]

theorem BigEndian.foldl_encode (width n acc : Nat) :
    (BigEndian.encode width n).foldl (fun n b => n * 256 + b.toNat) acc
      = acc * 256 ^ width + n % 256 ^ width := by
  induction width generalizing acc with
  | zero => simp [BigEndian.encode, Nat.mod_one]
  | succ width ih =>
    simp only [BigEndian.encode, List.foldl_cons, ih, UInt8.toNat_ofNat']
    have hsplit : n % 256 ^ (width + 1)
        = n / 256 ^ width % 256 * 256 ^ width + n % 256 ^ width := by
      rw [Nat.pow_succ, Nat.mod_mul, Nat.add_comm, Nat.mul_comm (256 ^ width)]
    rw [hsplit, show (2 : Nat) ^ 8 = 256 from rfl, Nat.pow_succ, Nat.add_mul, Nat.add_assoc,
      Nat.mul_assoc, Nat.mul_comm 256 (256 ^ width)]

/-- Writing keeps the number modulo the width. -/
theorem BigEndian.decode_encode_mod (width n : Nat) :
    BigEndian.decode (BigEndian.encode width n) = n % 256 ^ width := by
  simp [BigEndian.decode, BigEndian.foldl_encode]

/-- **A number that fits its width is read back.** -/
theorem BigEndian.decode_encode {width n : Nat} (h : n < 256 ^ width) :
    BigEndian.decode (BigEndian.encode width n) = n := by
  rw [BigEndian.decode_encode_mod, Nat.mod_eq_of_lt h]

theorem BigEndian.foldl_eq (bytes : Bytes) (acc : Nat) :
    bytes.foldl (fun n b => n * 256 + b.toNat) acc
      = acc * 256 ^ bytes.length + BigEndian.decode bytes := by
  induction bytes generalizing acc with
  | nil => simp [BigEndian.decode]
  | cons b bytes ih =>
    have hcons : BigEndian.decode (b :: bytes)
        = b.toNat * 256 ^ bytes.length + BigEndian.decode bytes := by
      simpa [BigEndian.decode] using ih b.toNat
    rw [List.foldl_cons, ih, hcons, List.length_cons, Nat.pow_succ, Nat.add_mul, Nat.add_assoc,
      Nat.mul_assoc, Nat.mul_comm 256 (256 ^ bytes.length)]

theorem BigEndian.decode_cons (b : UInt8) (bytes : Bytes) :
    BigEndian.decode (b :: bytes) = b.toNat * 256 ^ bytes.length + BigEndian.decode bytes := by
  simpa [BigEndian.decode] using BigEndian.foldl_eq bytes b.toNat

theorem BigEndian.decode_lt (bytes : Bytes) :
    BigEndian.decode bytes < 256 ^ bytes.length := by
  induction bytes with
  | nil => simp [BigEndian.decode]
  | cons b bytes ih =>
    rw [BigEndian.decode_cons, List.length_cons, Nat.pow_succ]
    have hb : b.toNat + 1 ≤ 256 := b.toNat_lt
    calc b.toNat * 256 ^ bytes.length + BigEndian.decode bytes
        < b.toNat * 256 ^ bytes.length + 256 ^ bytes.length := by omega
      _ = (b.toNat + 1) * 256 ^ bytes.length := by rw [Nat.add_mul, Nat.one_mul]
      _ ≤ 256 * 256 ^ bytes.length := Nat.mul_le_mul_right _ hb
      _ = 256 ^ bytes.length * 256 := Nat.mul_comm _ _

theorem BigEndian.encode_add_mul (width n k : Nat) :
    BigEndian.encode width (k * 256 ^ width + n) = BigEndian.encode width n := by
  induction width generalizing k with
  | zero => rfl
  | succ width ih =>
    have hpow : k * 256 ^ (width + 1) = k * 256 * 256 ^ width := by
      rw [Nat.pow_succ, Nat.mul_comm (256 ^ width), Nat.mul_assoc]
    have hpos : 0 < 256 ^ width := Nat.pow_pos (by omega)
    have hhead : UInt8.ofNat ((k * 256 * 256 ^ width + n) / 256 ^ width)
        = UInt8.ofNat (n / 256 ^ width) := by
      rw [Nat.add_comm, Nat.add_mul_div_right _ _ hpos]
      apply UInt8.toNat_inj.mp
      simp only [UInt8.toNat_ofNat', show (2 : Nat) ^ 8 = 256 from rfl]
      omega
    simp only [BigEndian.encode, hpow, ih, hhead]

/-- **Every byte string is the written form of the number it spells.** -/
theorem BigEndian.encode_decode (bytes : Bytes) :
    BigEndian.encode bytes.length (BigEndian.decode bytes) = bytes := by
  induction bytes with
  | nil => rfl
  | cons b bytes ih =>
    have hpos : 0 < 256 ^ bytes.length := Nat.pow_pos (by omega)
    rw [BigEndian.decode_cons, List.length_cons, BigEndian.encode, BigEndian.encode_add_mul, ih,
      Nat.add_comm, Nat.add_mul_div_right _ _ hpos,
      Nat.div_eq_of_lt (BigEndian.decode_lt bytes), Nat.zero_add, UInt8.ofNat_toNat]

/-! ## §2. Hexadecimal text. -/

/-- The lower-case digit for a number below sixteen. -/
def Hex.digit (n : Nat) : Char :=
  if n < 10 then Char.ofNat (48 + n) else Char.ofNat (87 + n)

/-- The number below sixteen that a digit of either case stands for. -/
def Hex.value? (c : Char) : Option Nat :=
  if '0' ≤ c ∧ c ≤ '9' then some (c.toNat - 48)
  else if 'a' ≤ c ∧ c ≤ 'f' then some (c.toNat - 87)
  else if 'A' ≤ c ∧ c ≤ 'F' then some (c.toNat - 55)
  else none

/-- Two lower-case digits for one byte. -/
def Hex.byte (b : UInt8) : String :=
  String.ofList [Hex.digit (b.toNat / 16), Hex.digit (b.toNat % 16)]

/-- The digits of a number in base sixteen, without leading zeros. -/
def Hex.natural (n : Nat) : String :=
  String.ofList (Nat.toDigits 16 n)

/-- The written form of a byte string: two lower-case digits for each byte. -/
def Hex.encode (bytes : Bytes) : String :=
  String.ofList (bytes.flatMap fun b => [Hex.digit (b.toNat / 16), Hex.digit (b.toNat % 16)])

/-- Reads pairs of digits; refuses a lone digit and every other character. -/
def Hex.decodeChars? : List Char → Option Bytes
  | [] => some []
  | [_] => none
  | high :: low :: rest => do
    let h ← Hex.value? high
    let l ← Hex.value? low
    let bytes ← Hex.decodeChars? rest
    return UInt8.ofNat (16 * h + l) :: bytes

/-- The byte string that a hexadecimal text writes. -/
def Hex.decode? (text : String) : Option Bytes :=
  Hex.decodeChars? text.toList

end RemoteCall
