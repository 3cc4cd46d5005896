/-
  RemoteCall.Proofs.Address.Ip
  ────────────────────────────
  **NETWORK ADDRESSES ARE READ BACK FROM THEIR TEXT.**

  The text of an address of eight groups leaves room for several readings on the
  way: a group of decimal digits might be the first byte of an address of four
  bytes, and the first colon of `::` might separate two groups.  None of them
  goes through.  Behind a group stands no point (`Ipv4.read_group`), and behind
  the first colon of `::` stands the second one, which starts no group (`Ends`):

      1:2::7]          head 1, 2    zeros    tail 7
      ::ffff:1.2.3.4]  head none    zeros    tail ffff, 1.2.3.4

  The `::` stands for a run of zeros, and nothing else is asked of the run that
  was picked (`ZeroRun.Clears`): that it is the longest does not matter.

  Main statements:
    • `Ipv4.read_text`                     — addresses of four bytes,
    • `Ipv6.readSeries_spelled`            — a series of groups,
    • `ZeroRun.clears_longestFrom`         — the run of zeros,
    • `Ipv6.read_text`                     — addresses of eight groups.
-/
import RemoteCall.Proofs.Address.Digits

namespace RemoteCall

open Reads

/-! ## §1. Four bytes. -/

namespace Ipv4

variable {cs rest : List Char} {b : UInt8}

theorem toList_text (ip : Ipv4) :
    ip.text.toList
      = Nat.toDigits 10 ip.a.toNat ++ '.' :: (Nat.toDigits 10 ip.b.toNat
        ++ '.' :: (Nat.toDigits 10 ip.c.toNat ++ '.' :: Nat.toDigits 10 ip.d.toNat)) := by
  have htext : ip.text
      = ip.a.toNat.repr ++ "." ++ ip.b.toNat.repr ++ "." ++ ip.c.toNat.repr ++ "."
        ++ ip.d.toNat.repr := rfl
  rw [htext]
  simp [String.toList_append, Nat.toList_repr]

/-- A byte is read back. -/
theorem readByte_toDigits (b : UInt8) (h : Stops 10 rest) :
    readByte (Nat.toDigits 10 b.toNat ++ rest) = some (b, rest) := by
  have hb : b.toNat < 256 := b.toNat_lt
  have hlength : (Nat.toDigits 10 b.toNat).length ≤ 3 :=
    (Nat.length_toDigits_le_iff (by decide) (by decide)).mpr (by omega)
  have hzero : (Nat.toDigits 10 b.toNat).head? = some '0'
      → (Nat.toDigits 10 b.toNat).length = 1 := by
    intro hhead
    rw [head?_toDigits (by decide) (by decide) hhead]
    rfl
  unfold readByte
  rw [digits_toDigits (by decide) (by decide) (by omega) h]
  show (if _ then _ else _) = _
  rw [if_pos ⟨hlength, hzero⟩]
  simp

theorem rest_of_readByte (h : readByte cs = some (b, rest)) :
    rest = cs.dropWhile (isDigit 10) := by
  unfold readByte at h
  cases hdigits : digits 10 255 cs with
  | none =>
    rw [hdigits] at h
    cases h
  | some taken =>
    obtain ⟨⟨ds, n⟩, left⟩ := taken
    rw [hdigits] at h
    replace h : (if ds.length ≤ 3 ∧ (ds.head? = some '0' → ds.length = 1) then
      some (n.toUInt8, left) else none) = some (b, rest) := h
    split at h
    · cases h
      exact rest_of_digits hdigits
    · cases h

/-- **An address of four bytes is read back.** -/
theorem read_text (ip : Ipv4) (h : Stops 10 rest) :
    Ipv4.read (ip.text.toList ++ rest) = some (ip, rest) := by
  have hpoint : ∀ cs, Stops 10 ('.' :: cs) := fun cs => stops_cons (by decide) cs
  rw [toList_text]
  unfold Ipv4.read
  simp only [List.append_assoc, List.cons_append]
  rw [readByte_toDigits ip.a (hpoint _)]
  simp only [Option.bind_eq_bind, Option.bind_some, given_self]
  rw [readByte_toDigits ip.b (hpoint _)]
  simp only [Option.bind_some, given_self]
  rw [readByte_toDigits ip.c (hpoint _)]
  simp only [Option.bind_some, given_self]
  rw [readByte_toDigits ip.d h]
  rfl

/-- A text that starts with no digit is no address of four bytes. -/
theorem read_of_stops (h : Stops 10 cs) : Ipv4.read cs = none := by
  unfold Ipv4.read readByte
  rw [digits_of_stops h]
  rfl

/-- Without a point behind its first number, a text is no address of four bytes. -/
theorem read_eq_none (h : (cs.dropWhile (isDigit 10)).head? ≠ some '.') : Ipv4.read cs = none := by
  unfold Ipv4.read
  cases hbyte : readByte cs with
  | none => rfl
  | some taken =>
    obtain ⟨b, rest⟩ := taken
    have hrest := rest_of_readByte hbyte
    rw [← hrest] at h
    have hgiven : given '.' rest = none := by
      cases rest with
      | nil => rfl
      | cons c rest => exact given_of_ne (fun heq => h (congrArg some heq.symm)) rest
    simp only [Option.bind_eq_bind, Option.bind_some]
    rw [hgiven]
    rfl

/-- **A group is no byte with a point behind it.** -/
theorem read_group {ds : List Char} (hds : ∀ c ∈ ds, isDigit 16 c = true) (hstops : Stops 16 rest)
    (hpoint : rest.head? ≠ some '.') : Ipv4.read (ds ++ rest) = none := by
  apply read_eq_none
  -- Behind the decimal digits stands a digit above nine, or else what stands behind the group.
  induction ds with
  | nil =>
    rw [List.nil_append, hstops.ten.dropWhile]
    exact hpoint
  | cons d ds ih =>
    rw [List.cons_append]
    cases hd : isDigit 10 d with
    | true =>
      rw [List.dropWhile_cons_of_pos hd]
      exact ih fun c hc => hds c (List.mem_cons_of_mem _ hc)
    | false =>
      rw [List.dropWhile_cons_of_neg (by simp [hd])]
      intro heq
      have hsixteen := hds d List.mem_cons_self
      rw [Option.some.inj heq] at hsixteen
      exact absurd hsixteen (by decide)

end Ipv4

/-! ## §2. The text of a series of groups. -/

namespace Ipv6

variable {rest : List Char} {groups : List UInt16} {first : Bool} {slots : Nat}

/-- Groups with a colon in front of each. -/
def following (groups : List UInt16) : List Char :=
  groups.flatMap fun group => ':' :: Nat.toDigits 16 group.toNat

/-- Groups with colons between them. -/
def spelled : List UInt16 → List Char
  | [] => []
  | group :: groups => Nat.toDigits 16 group.toNat ++ following groups

theorem intercalate_cons (sep l : List Char) (ls : List (List Char)) :
    sep.intercalate (l :: ls) = l ++ ls.flatMap fun l => sep ++ l := by
  induction ls generalizing l with
  | nil => rw [List.intercalate_singleton, List.flatMap_nil, List.append_nil]
  | cons m ls ih =>
    rw [List.intercalate_cons_cons, ih, List.flatMap_cons, List.append_assoc, List.append_assoc]

theorem toList_join (groups : List UInt16) : (join groups).toList = spelled groups := by
  have hlists : (groups.map fun group => Hex.natural group.toNat).map String.toList
      = groups.map fun group => Nat.toDigits 16 group.toNat := by
    rw [List.map_map]
    apply List.map_congr_left
    intro group _
    exact String.toList_ofList
  unfold join
  rw [String.toList_intercalate, hlists]
  cases groups with
  | nil => rfl
  | cons group groups =>
    rw [List.map_cons, intercalate_cons, List.flatMap_map]
    rfl

/-! ## §3. Reading a series of groups. -/

/-- No group follows, neither directly nor behind a colon. -/
structure Ends (cs : List Char) : Prop where
  stops : Stops 16 cs
  point : cs.head? ≠ some '.'
  colon : ∀ rest, given ':' cs = some rest → Stops 16 rest

theorem Ends.of_ne {c : Char} (hdigit : isDigit 16 c = false) (hpoint : c ≠ '.') (hcolon : ':' ≠ c)
    (cs : List Char) : Ends (c :: cs) where
  stops := stops_cons hdigit cs
  point := fun h => hpoint (Option.some.inj h)
  colon := by
    intro rest h
    rw [given_of_ne hcolon] at h
    cases h

theorem Ends.colons (cs : List Char) : Ends (':' :: ':' :: cs) where
  stops := stops_cons (by decide) _
  point := by simp
  colon := by
    intro rest h
    rw [given_self] at h
    rw [← Option.some.inj h]
    exact stops_cons (by decide) cs

/-- What needs a digit is not read there. -/
theorem Ends.separator_bind {α : Type} (h : Ends rest) (first : Bool)
    {read : List Char → Option α} (hread : ∀ cs, Stops 16 cs → read cs = none) :
    (separator first ':' rest).bind read = none := by
  cases first with
  | true => exact hread rest h.stops
  | false =>
    show (given ':' rest).bind read = none
    cases hgiven : given ':' rest with
    | none => rfl
    | some cs => exact hread cs (h.colon cs hgiven)

theorem readGroup_of_stops (h : Stops 16 rest) : readGroup rest = none := by
  unfold readGroup
  rw [digits_of_stops h]
  rfl

/-- A group is read back. -/
theorem readGroup_toDigits (group : UInt16) (h : Stops 16 rest) :
    readGroup (Nat.toDigits 16 group.toNat ++ rest) = some (group, rest) := by
  have hgroup : group.toNat < 65536 := group.toNat_lt
  have hlength : (Nat.toDigits 16 group.toNat).length ≤ 4 :=
    (Nat.length_toDigits_le_iff (by decide) (by decide)).mpr (by omega)
  unfold readGroup
  rw [digits_toDigits (by decide) (by decide) (by omega) h]
  show (if _ then _ else _) = _
  rw [if_pos hlength]
  simp

/-- Where no group follows, the series ends. -/
theorem readSeries_ends (slots : Nat) (first : Bool) (h : Ends rest) :
    readSeries slots first rest = ⟨[], false, rest⟩ := by
  cases slots with
  | zero => rfl
  | succ slots =>
    have hfour : (separator first ':' rest).bind Ipv4.read = none := by
      apply h.separator_bind first
      intro cs hstops
      exact Ipv4.read_of_stops hstops.ten
    have hgroup : (separator first ':' rest).bind readGroup = none := by
      apply h.separator_bind first
      intro cs hstops
      exact readGroup_of_stops hstops
    unfold readSeries
    simp only [hfour, hgroup, ite_self]

/-- One group is taken off the front of a series. -/
theorem readSeries_group {cs : List Char} (group : UInt16) (slots : Nat)
    (hcs : separator first ':' cs = some (Nat.toDigits 16 group.toNat ++ rest))
    (hstops : Stops 16 rest) (hpoint : rest.head? ≠ some '.') :
    readSeries (slots + 1) first cs
      = ⟨group :: (readSeries slots false rest).groups, (readSeries slots false rest).embedded,
          (readSeries slots false rest).rest⟩ := by
  have hdigits : ∀ c ∈ Nat.toDigits 16 group.toNat, isDigit 16 c = true := by
    intro c hc
    exact isDigit_of_mem (by decide) (by decide) hc
  have hfour := Ipv4.read_group hdigits hstops hpoint
  conv => lhs; unfold readSeries
  simp only [hcs, Option.bind_some, hfour, ite_self, readGroup_toDigits group hstops]

/-- Behind a group stands another one or the end. -/
theorem following_append (h : Ends rest) (groups : List UInt16) :
    Stops 16 (following groups ++ rest) ∧ (following groups ++ rest).head? ≠ some '.' := by
  cases groups with
  | nil => exact ⟨h.stops, h.point⟩
  | cons group groups => exact ⟨stops_cons (by decide) _, by simp [following]⟩

theorem readSeries_following (hslots : groups.length ≤ slots) (h : Ends rest) :
    readSeries slots false (following groups ++ rest) = ⟨groups, false, rest⟩ := by
  induction groups generalizing slots with
  | nil => exact readSeries_ends slots false h
  | cons group groups ih =>
    cases slots with
    | zero => simp at hslots
    | succ slots =>
      have hcs : separator false ':' (following (group :: groups) ++ rest)
          = some (Nat.toDigits 16 group.toNat ++ (following groups ++ rest)) := by
        unfold following
        rw [List.flatMap_cons, List.cons_append, List.cons_append, separator_behind,
          List.append_assoc]
      obtain ⟨hstops, hpoint⟩ := following_append h groups
      rw [readSeries_group group slots hcs hstops hpoint,
        ih (Nat.le_of_succ_le_succ hslots)]

/-- **A series of groups is read back, up to where no group follows.** -/
theorem readSeries_spelled (groups : List UInt16) (slots : Nat) (hslots : groups.length ≤ slots)
    (h : Ends rest) :
    readSeries slots true (spelled groups ++ rest) = ⟨groups, false, rest⟩ := by
  cases groups with
  | nil => exact readSeries_ends slots true h
  | cons group groups =>
    cases slots with
    | zero => simp at hslots
    | succ slots =>
      have hcs : separator true ':' (spelled (group :: groups) ++ rest)
          = some (Nat.toDigits 16 group.toNat ++ (following groups ++ rest)) := by
        rw [spelled, List.append_assoc]
        rfl
      obtain ⟨hstops, hpoint⟩ := following_append h groups
      rw [readSeries_group group slots hcs hstops hpoint,
        readSeries_following (Nat.le_of_succ_le_succ hslots) h]

end Ipv6

/-! ## §4. The run of zeros. -/

namespace ZeroRun

variable {groups : List UInt16} {run : ZeroRun}

/-- The run lies within the groups and covers zeros only. -/
def Clears (run : ZeroRun) (groups : List UInt16) : Prop :=
  (groups.drop run.start).take run.length = List.replicate run.length 0

theorem clears_empty (start : Nat) (groups : List UInt16) : Clears ⟨start, 0⟩ groups := by
  simp [Clears]

/-- A run is extended by the zero behind it. -/
theorem Clears.extend (h : run.Clears groups)
    (hzero : groups[run.start + run.length]? = some 0) :
    Clears ⟨run.start, run.length + 1⟩ groups := by
  unfold Clears at *
  rw [List.take_add_one, h, List.getElem?_drop, hzero, List.replicate_succ']
  rfl

/-- **The run that is picked covers zeros only.** -/
theorem clears_longestFrom {index : Nat} {current longest : ZeroRun} {rest : List UInt16}
    (hrest : groups.drop index = rest) (hcurrent : current.Clears groups)
    (hend : current.length = 0 ∨ current.start + current.length = index)
    (hlongest : longest.Clears groups) :
    (longestFrom index current longest rest).Clears groups := by
  induction rest generalizing index current longest with
  | nil => exact hlongest
  | cons group rest ih =>
    have hgroup : groups[index]? = some group := by
      rw [← List.head?_drop, hrest]
      rfl
    have htail : groups.drop (index + 1) = rest := by
      rw [← List.tail_drop, hrest]
      rfl
    unfold longestFrom
    split
    · next hzero =>
      rw [hzero] at hgroup
      -- The run that ends here: a new one, or the current one with one more zero.
      have hextended : ∀ new : ZeroRun, new = (if current.length = 0 then ⟨index, 1⟩
          else ⟨current.start, current.length + 1⟩)
          → new.Clears groups ∧ new.start + new.length = index + 1 := by
        intro new hnew
        rw [hnew]
        split
        · exact ⟨(clears_empty index groups).extend hgroup, rfl⟩
        · next hsome =>
          have hindex := hend.resolve_left hsome
          rw [← hindex] at hgroup ⊢
          exact ⟨hcurrent.extend hgroup, rfl⟩
      dsimp only
      generalize hnew : (if current.length = 0 then (⟨index, 1⟩ : ZeroRun)
        else ⟨current.start, current.length + 1⟩) = new
      obtain ⟨hclears, hlast⟩ := hextended new hnew.symm
      apply ih htail hclears (.inr hlast)
      split
      · exact hclears
      · exact hlongest
    · exact ih htail (clears_empty 0 groups) (.inl rfl) hlongest

/-- Putting zeros in the place of the run gives the groups back. -/
theorem Clears.split (h : run.Clears groups) :
    groups.take run.start ++ (List.replicate run.length 0
      ++ groups.drop (run.start + run.length)) = groups := by
  unfold Clears at h
  rw [← h, ← List.drop_drop, List.take_append_drop, List.take_append_drop]

/-- The run lies within the groups. -/
theorem Clears.le (h : run.Clears groups) (hsome : 0 < run.length) :
    run.start + run.length ≤ groups.length := by
  have hlengths := congrArg List.length h
  simp only [List.length_take, List.length_drop, List.length_replicate] at hlengths
  omega

end ZeroRun

/-! ## §5. Eight groups. -/

namespace Ipv6

variable {rest : List Char}

theorem ofGroups?_groups (ip : Ipv6) : ofGroups? ip.groups = some ip := by
  unfold ofGroups?
  rw [dif_pos ip.length_eq]

/-- Eight groups are read back if all of them are written. -/
theorem read_spelled (ip : Ipv6) (h : Ends rest) :
    Ipv6.read (spelled ip.groups ++ rest) = some (ip, rest) := by
  have hhead := readSeries_spelled ip.groups 8 (Nat.le_of_eq ip.length_eq) h
  unfold Ipv6.read
  simp only [hhead, ip.length_eq, if_true, ofGroups?_groups]
  rfl

/-- What is read around `::`, given what is read behind it. -/
theorem read_around {ip : Ipv6} {tail : List UInt16} {after : List Char} {embedded : Bool}
    {zeros : Nat} (head : List UInt16) (hzeros : 0 < zeros)
    (hgroups : head ++ (List.replicate zeros 0 ++ tail) = ip.groups)
    (htail : readSeries (7 - head.length) true after = ⟨tail, embedded, rest⟩) :
    Ipv6.read (spelled head ++ ':' :: ':' :: after) = some (ip, rest) := by
  have hlength : head.length + (zeros + tail.length) = 8 := by
    rw [← ip.length_eq, ← hgroups]
    simp
  have hmissing : 8 - head.length - tail.length = zeros := by omega
  have hless : ¬ head.length = 8 := by omega
  have hseries := readSeries_spelled head 8 (by omega) (Ends.colons after)
  unfold Ipv6.read
  simp only [hseries, if_neg hless, given_self, Option.bind_eq_bind, Option.bind_some, htail,
    hmissing, List.append_assoc, hgroups, ofGroups?_groups]
  rfl

/-- Two bytes of a group are put together again. -/
theorem bytes_of_group (group : UInt16) :
    (group >>> 8).toUInt8.toUInt16 * 256 + group.toUInt8.toUInt16 = group := by
  have hlt : group.toNat < 65536 := group.toNat_lt
  apply UInt16.toNat_inj.mp
  simp only [UInt16.toNat_add, UInt16.toNat_mul, UInt8.toNat_toUInt16, UInt16.toNat_toUInt8,
    UInt16.toNat_shiftRight, UInt16.reduceToNat, Nat.shiftRight_eq_div_pow, Nat.reduceMod,
    Nat.reducePow]
  omega

/-- The text of four bytes takes the place of two groups. -/
theorem readSeries_bytes {cs : List Char} {first : Bool} (v4 : Ipv4) (slots : Nat)
    (hcs : separator first ':' cs = some (v4.text.toList ++ rest)) (h : Stops 10 rest) :
    readSeries (slots + 2) first cs
      = ⟨[v4.a.toUInt16 * 256 + v4.b.toUInt16, v4.c.toUInt16 * 256 + v4.d.toUInt16], true,
          rest⟩ := by
  have hfour := Ipv4.read_text v4 h
  unfold readSeries
  simp only [if_pos (Nat.succ_pos slots), hcs, Option.bind_some, hfour]

/-- A mapped address of four bytes is read back. -/
theorem read_mapped {ip : Ipv6} (high low : UInt16)
    (hgroups : ip.groups = [0, 0, 0, 0, 0, 0xFFFF, high, low]) (h : Ends rest) :
    Ipv6.read (("::ffff:" ++ Ipv4.text ⟨(high >>> 8).toUInt8, high.toUInt8, (low >>> 8).toUInt8,
      low.toUInt8⟩).toList ++ rest) = some (ip, rest) := by
  generalize hv4 : Ipv4.mk (high >>> 8).toUInt8 high.toUInt8 (low >>> 8).toUInt8 low.toUInt8 = v4
  have hbytes := readSeries_bytes v4 4 (separator_behind ':' (v4.text.toList ++ rest)) h.stops.ten
  have htail : readSeries 7 true (Nat.toDigits 16 0xFFFF ++ ':' :: (v4.text.toList ++ rest))
      = ⟨[0xFFFF, high, low], true, rest⟩ := by
    rw [readSeries_group 0xFFFF 6 rfl (stops_cons (by decide) _) (by simp), hbytes, ← hv4]
    simp only [bytes_of_group]
  have hsplit : [] ++ (List.replicate 5 0 ++ [0xFFFF, high, low]) = ip.groups := hgroups.symm
  have hread := read_around [] (by decide) hsplit htail
  rw [String.toList_append]
  exact hread

/-- An address is read back if a run of zeros is shortened. -/
theorem read_shortened {ip : Ipv6} {run : ZeroRun} (hrun : 1 < run.length)
    (hclears : run.Clears ip.groups) (h : Ends rest) :
    Ipv6.read ((join (ip.groups.take run.start) ++ "::"
      ++ join (ip.groups.drop (run.start + run.length))).toList ++ rest) = some (ip, rest) := by
  have hle := hclears.le (Nat.lt_of_succ_lt hrun)
  rw [ip.length_eq] at hle
  have hlength : (ip.groups.drop (run.start + run.length)).length
      ≤ 7 - (ip.groups.take run.start).length := by
    rw [List.length_drop, List.length_take, ip.length_eq]
    omega
  have hread := read_around (ip.groups.take run.start) (Nat.lt_of_succ_lt hrun) hclears.split
    (readSeries_spelled _ _ hlength h)
  rw [String.toList_append, String.toList_append, toList_join, toList_join, List.append_assoc,
    List.append_assoc]
  exact hread

/-- **An address of eight groups is read back.** -/
theorem read_text (ip : Ipv6) (h : Ends rest) :
    Ipv6.read (ip.text.toList ++ rest) = some (ip, rest) := by
  unfold text
  split
  · next high low hgroups =>
    exact read_mapped high low hgroups h
  · next groups _ =>
    dsimp only
    generalize hpicked : ZeroRun.longestFrom 0 ⟨0, 0⟩ ⟨0, 0⟩ ip.groups = run
    split
    · next hrun =>
      have hclears : run.Clears ip.groups := by
        rw [← hpicked]
        exact ZeroRun.clears_longestFrom rfl (ZeroRun.clears_empty 0 _) (.inl rfl)
          (ZeroRun.clears_empty 0 _)
      exact read_shortened hrun hclears h
    · rw [toList_join]
      exact read_spelled ip h

end Ipv6

end RemoteCall
