/-
  RemoteCall.Address.Ip
  ─────────────────────
  **NETWORK ADDRESSES AND THEIR TEXT.**

  A four-byte address is written as four decimal numbers.  An address of eight
  groups is written in its one canonical form: lower-case digits
  without leading zeros, the first longest run of two or more zero groups
  shortened to `::`, and a mapped four-byte address in dotted form.

  Readers take what they recognise off the front of a text and give the rest
  back; they refuse leading zeros in a decimal part and more than four digits
  in a group.
-/
import RemoteCall.Bytes

namespace RemoteCall

/-! ## §1. The two kinds of address. -/

/-- An address of four bytes. -/
structure Ipv4 where
  a : UInt8
  b : UInt8
  c : UInt8
  d : UInt8
  deriving DecidableEq, Repr, Inhabited

/-- An address of eight groups of sixteen bits. -/
structure Ipv6 where
  groups : List UInt16
  length_eq : groups.length = 8
  deriving DecidableEq, Repr

/-! ## §2. Written forms. -/

/-- Four decimal numbers with points between them. -/
def Ipv4.text (ip : Ipv4) : String :=
  s!"{ip.a}.{ip.b}.{ip.c}.{ip.d}"

/-- A run of zero groups: where it starts and how long it is. -/
structure ZeroRun where
  start : Nat
  length : Nat
  deriving DecidableEq, Repr

/-- The first longest run of zeros at or after `index`, given the run that ends just before it and
the longest one so far. -/
def ZeroRun.longestFrom (index : Nat) (current longest : ZeroRun) : List UInt16 → ZeroRun
  | [] => longest
  | group :: rest =>
    if group = 0 then
      let current : ZeroRun :=
        if current.length = 0 then ⟨index, 1⟩ else ⟨current.start, current.length + 1⟩
      longestFrom (index + 1) current (if longest.length < current.length then current else longest)
        rest
    else longestFrom (index + 1) ⟨0, 0⟩ longest rest

/-- Groups with colons between them. -/
def Ipv6.join (groups : List UInt16) : String :=
  ":".intercalate (groups.map fun group => Hex.natural group.toNat)

/-- The canonical text of eight groups. -/
def Ipv6.text (ip : Ipv6) : String :=
  match ip.groups with
  | [0, 0, 0, 0, 0, 0xFFFF, high, low] =>
    let v4 : Ipv4 := ⟨(high >>> 8).toUInt8, high.toUInt8, (low >>> 8).toUInt8, low.toUInt8⟩
    "::ffff:" ++ v4.text
  | groups =>
    let run := ZeroRun.longestFrom 0 ⟨0, 0⟩ ⟨0, 0⟩ groups
    if 1 < run.length then
      join (groups.take run.start) ++ "::" ++ join (groups.drop (run.start + run.length))
    else join groups

/-! ## §3. Reading off the front of a text. -/

/-- Takes one given character. -/
def Reads.given (c : Char) : List Char → Option (List Char)
  | [] => none
  | d :: rest => if c = d then some rest else none

/-- Takes a separator, unless it stands before the first of a series. -/
def Reads.separator (first : Bool) (c : Char) (cs : List Char) : Option (List Char) :=
  if first then some cs else Reads.given c cs

/-- The number that a run of digits spells. -/
def Reads.number (radix : Nat) (ds : List Char) : Nat :=
  ds.foldl (fun n d => n * radix + (Hex.value? d).getD 0) 0

/-- Whether a character is a digit in this radix, ten or sixteen. -/
def Reads.isDigit (radix : Nat) (c : Char) : Bool :=
  match Hex.value? c with
  | some v => v < radix
  | none => false

/-- Takes all digits that follow: at least one, and a number of at most `max`. -/
def Reads.digits (radix max : Nat) (cs : List Char) : Option ((List Char × Nat) × List Char) :=
  let ds := cs.takeWhile (Reads.isDigit radix)
  let n := Reads.number radix ds
  if ds.isEmpty || max < n then none else some ((ds, n), cs.dropWhile (Reads.isDigit radix))

/-- Takes a decimal byte without leading zeros. -/
def Ipv4.readByte (cs : List Char) : Option (UInt8 × List Char) := do
  let ((ds, n), rest) ← Reads.digits 10 255 cs
  if ds.length ≤ 3 ∧ (ds.head? = some '0' → ds.length = 1) then return (n.toUInt8, rest) else none

/-- Takes an address of four bytes. -/
def Ipv4.read (cs : List Char) : Option (Ipv4 × List Char) := do
  let (a, cs) ← readByte cs
  let cs ← Reads.given '.' cs
  let (b, cs) ← readByte cs
  let cs ← Reads.given '.' cs
  let (c, cs) ← readByte cs
  let cs ← Reads.given '.' cs
  let (d, cs) ← readByte cs
  return (⟨a, b, c, d⟩, cs)

/-- Takes one group of one to four digits. -/
def Ipv6.readGroup (cs : List Char) : Option (UInt16 × List Char) := do
  let ((ds, n), rest) ← Reads.digits 16 65535 cs
  if ds.length ≤ 4 then return (n.toUInt16, rest) else none

/-- A series of groups at the front of a text. -/
structure Ipv6.Series where
  groups : List UInt16
  /-- Whether the last two came from an address of four bytes. -/
  embedded : Bool
  rest : List Char

/-- Takes as many groups as follow, at most `slots`.  An address of four bytes may take the place of
the last two, if two slots are left for it. -/
def Ipv6.readSeries : (slots : Nat) → (first : Bool) → List Char → Series
  | 0, _, cs => ⟨[], false, cs⟩
  | slots + 1, first, cs =>
    let four := if 0 < slots then (Reads.separator first ':' cs).bind Ipv4.read else none
    match four with
    | some (ip, rest) =>
      ⟨[ip.a.toUInt16 * 256 + ip.b.toUInt16, ip.c.toUInt16 * 256 + ip.d.toUInt16], true, rest⟩
    | none =>
      match (Reads.separator first ':' cs).bind readGroup with
      | none => ⟨[], false, cs⟩
      | some (group, rest) =>
        let more := readSeries slots false rest
        ⟨group :: more.groups, more.embedded, more.rest⟩

/-- Makes an address of eight groups. -/
def Ipv6.ofGroups? (groups : List UInt16) : Option Ipv6 :=
  if h : groups.length = 8 then some ⟨groups, h⟩ else none

/-- Takes an address of eight groups; `::` stands for one or more groups of zero. -/
def Ipv6.read (cs : List Char) : Option (Ipv6 × List Char) := do
  let head := readSeries 8 true cs
  if head.groups.length = 8 then
    let ip ← ofGroups? head.groups
    return (ip, head.rest)
  else if head.embedded then none
  else
    let cs ← Reads.given ':' head.rest
    let cs ← Reads.given ':' cs
    let tail := readSeries (7 - head.groups.length) true cs
    let zeros := List.replicate (8 - head.groups.length - tail.groups.length) 0
    let ip ← ofGroups? (head.groups ++ zeros ++ tail.groups)
    return (ip, tail.rest)

end RemoteCall
