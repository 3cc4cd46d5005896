/-
  RemoteCall.Proofs.Payload.WrittenForm
  ─────────────────────────────────────
  **A VALUE HAS ONE WRITTEN FORM, AND IT SAYS WHERE IT ENDS.**

  A reading step inverts a way of writing when it accepts what is written so,
  leaves what stands behind it, and accepts nothing else:

      r bytes = (ok v, rest)   ↔   bytes = front ++ rest,  front a written form of v

  Reading goes step after step, and what the steps invert stands one after the
  other (`Read.Inverts.bind`).  So every shape without JSON documents is read
  back from its written form only, whatever its parts are.

  Main statements:
    • `Read.Inverts.bind`              — one step after the other,
    • `inverts_read`                   — every shape,
    • `payloads_have_one_written_form` — whole payloads.
-/
import RemoteCall.Proofs.Payload.Errors

namespace RemoteCall.Payload

/-! ## §1. Reading steps and what they invert. -/

/-- A reading step accepts the written forms of values, leaves what stands behind them, and accepts
nothing else. -/
def Read.Inverts {α : Type} (r : Read α) (written : α → Bytes → Prop) : Prop :=
  ∀ bytes v rest, r bytes = (.ok v, rest) ↔ ∃ front, written v front ∧ bytes = front ++ rest

namespace Read

variable {α β : Type} {r : Read α} {f : α → Read β} {written other : α → Bytes → Prop}

theorem Inverts.congr (h : r.Inverts written) (hsame : ∀ v front, other v front ↔ written v front) :
    r.Inverts other := by
  intro bytes v rest
  rw [h bytes v rest]
  exact exists_congr fun front => and_congr_left' (hsame v front).symm

theorem inverts_pure (a : α) :
    (Pure.pure a : Read α).Inverts fun v front => v = a ∧ front = [] := by
  intro bytes v rest
  constructor
  · intro h
    cases h
    exact ⟨[], ⟨rfl, rfl⟩, rfl⟩
  · rintro ⟨_, ⟨rfl, rfl⟩, rfl⟩
    rfl

theorem inverts_fail (detail : String) : (Read.fail detail : Read α).Inverts fun _ _ => False := by
  intro bytes v rest
  constructor
  · intro h
    cases h
  · rintro ⟨_, hnone, _⟩
    exact hnone.elim

/-- **One step after the other** inverts one written form after the other. -/
theorem Inverts.bind {next : α → β → Bytes → Prop} (h : r.Inverts written)
    (hf : ∀ a, (f a).Inverts (next a)) :
    (r >>= f).Inverts fun v front =>
      ∃ a first second, written a first ∧ next a v second ∧ front = first ++ second := by
  intro bytes v rest
  have hbind : (r >>= f) bytes = Read.bind r f bytes := rfl
  rw [hbind]
  unfold Read.bind
  constructor
  · intro hread
    split at hread
    · next a left hfirst =>
      obtain ⟨first, hwritten, rfl⟩ := (h bytes a left).mp hfirst
      obtain ⟨second, hnext, rfl⟩ := (hf a left v rest).mp hread
      exact ⟨first ++ second, ⟨a, first, second, hwritten, hnext, rfl⟩,
        (List.append_assoc _ _ _).symm⟩
    · cases hread
  · rintro ⟨_, ⟨a, first, second, hwritten, hnext, rfl⟩, rfl⟩
    have hfirst : r (first ++ second ++ rest) = (.ok a, second ++ rest) :=
      (h _ _ _).mpr ⟨first, hwritten, List.append_assoc _ _ _⟩
    rw [hfirst]
    exact (hf a _ _ _).mpr ⟨second, hnext, rfl⟩

/-- A step whose value is made of that of another. -/
theorem Inverts.map {made : β → Bytes → Prop} (h : r.Inverts written) (g : α → β)
    (hmade : ∀ v front, made v front ↔ ∃ a, written a front ∧ v = g a) :
    (r >>= fun a => Pure.pure (g a)).Inverts made := by
  refine (h.bind fun a => inverts_pure (g a)).congr fun v front => ?_
  rw [hmade]
  constructor
  · rintro ⟨a, hwritten, rfl⟩
    exact ⟨a, front, [], hwritten, ⟨rfl, rfl⟩, (List.append_nil _).symm⟩
  · rintro ⟨a, first, _, hwritten, ⟨rfl, rfl⟩, rfl⟩
    exact ⟨a, by rwa [List.append_nil], rfl⟩

theorem inverts_takeAs (what : String) (n : Nat) :
    (takeAs what n).Inverts fun v front => v.length = n ∧ front = v := by
  intro bytes v rest
  unfold takeAs
  constructor
  · intro h
    split at h
    · cases h
    · next hlong =>
      cases h
      exact ⟨bytes.take n, ⟨List.length_take_of_le (Nat.le_of_not_lt hlong), rfl⟩,
        (List.take_append_drop n bytes).symm⟩
  · rintro ⟨_, ⟨rfl, rfl⟩, rfl⟩
    rw [if_neg (by rw [List.length_append]; omega), List.take_left, List.drop_left]

/-- A number is read if it fits its width. -/
theorem inverts_number (what : String) (width : Nat) :
    (number what width).Inverts fun n front =>
      n < 256 ^ width ∧ front = BigEndian.encode width n := by
  refine (inverts_takeAs what width).map BigEndian.decode fun n front => ?_
  constructor
  · rintro ⟨hlt, rfl⟩
    exact ⟨_, ⟨BigEndian.length_encode width n, rfl⟩, (BigEndian.decode_encode hlt).symm⟩
  · rintro ⟨_, ⟨rfl, rfl⟩, rfl⟩
    exact ⟨BigEndian.decode_lt _, (BigEndian.encode_decode _).symm⟩

/-- A number whose values are those that fit its width. -/
theorem inverts_word {ω : Type} {toWord : Nat → ω} {toNat : ω → Nat} (what : String) (width : Nat)
    (hlt : ∀ n, toNat n < 256 ^ width) (hword : ∀ n, toWord (toNat n) = n)
    (hnat : ∀ m, m < 256 ^ width → toNat (toWord m) = m) :
    (number what width >>= fun m => Pure.pure (toWord m)).Inverts fun n front =>
      front = BigEndian.encode width (toNat n) := by
  refine (inverts_number what width).map toWord fun n front => ?_
  constructor
  · rintro rfl
    exact ⟨toNat n, ⟨hlt n, rfl⟩, (hword n).symm⟩
  · rintro ⟨m, ⟨hm, rfl⟩, rfl⟩
    rw [hnat m hm]

theorem inverts_u8 : u8.Inverts fun n front => front = BigEndian.encode 1 n.toNat :=
  inverts_word "u8" 1 UInt8.toNat_lt (fun _ => UInt8.ofNat_toNat) fun _ => UInt8.toNat_ofNat_of_lt'

theorem inverts_u16 : u16.Inverts fun n front => front = BigEndian.encode 2 n.toNat :=
  inverts_word "u16" 2 UInt16.toNat_lt (fun _ => UInt16.ofNat_toNat) fun _ =>
    UInt16.toNat_ofNat_of_lt'

theorem inverts_u32 : u32.Inverts fun n front => front = BigEndian.encode 4 n.toNat :=
  inverts_word "u32" 4 UInt32.toNat_lt (fun _ => UInt32.ofNat_toNat) fun _ =>
    UInt32.toNat_ofNat_of_lt'

theorem inverts_u64 : u64.Inverts fun n front => front = BigEndian.encode 8 n.toNat :=
  inverts_word "u64" 8 UInt64.toNat_lt (fun _ => UInt64.ofNat_toNat) fun _ =>
    UInt64.toNat_ofNat_of_lt'

end Read

open Read

theorem encodeField_eq_ok {v front : Bytes} :
    encodeField v = .ok front
      ↔ v.length < 2 ^ 32 ∧ front = BigEndian.encode 4 v.length ++ v := by
  unfold encodeField
  split
  · next hlt => exact ⟨fun h => ⟨hlt, (Except.ok.inj h).symm⟩, fun h => by rw [h.2]⟩
  · next hlong => exact ⟨nofun, fun h => absurd h.1 hlong⟩

/-- A byte string has its length before it. -/
theorem inverts_field : field.Inverts fun v front => encodeField v = .ok front := by
  refine (inverts_u32.bind fun n => inverts_takeAs "bytes" n.toNat).congr fun v front => ?_
  rw [encodeField_eq_ok]
  constructor
  · rintro ⟨hlt, rfl⟩
    have hword : v.length.toUInt32.toNat = v.length := UInt32.toNat_ofNat_of_lt' hlt
    exact ⟨v.length.toUInt32, _, v, rfl, ⟨hword.symm, rfl⟩, by rw [hword]⟩
  · rintro ⟨n, _, _, rfl, ⟨hlength, rfl⟩, rfl⟩
    rw [hlength]
    exact ⟨n.toNat_lt, rfl⟩

/-! ## §2. Shapes. -/

theorem inverts_readBool : readBool.Inverts fun v front => front = [if v then 1 else 0] := by
  have hnext : ∀ b : UInt8, (if b = 0 then Pure.pure false else
      if b = 1 then Pure.pure true else Read.fail s!"invalid bool byte {b}" : Read Bool).Inverts
        fun v front => b = (if v then 1 else 0) ∧ front = [] := by
    intro b
    split
    · next hzero =>
      subst hzero
      exact (inverts_pure false).congr fun v front => and_congr_left' (by cases v <;> decide)
    · next hzero =>
      split
      · next hone =>
        subst hone
        exact (inverts_pure true).congr fun v front => and_congr_left' (by cases v <;> decide)
      · next hone =>
        refine (inverts_fail _).congr fun v front => ⟨fun h => ?_, False.elim⟩
        cases v with
        | false => exact hzero h.1
        | true => exact hone h.1
  refine (inverts_u8.bind hnext).congr fun v front => ?_
  constructor
  · rintro rfl
    refine ⟨if v then 1 else 0, _, [], rfl, ⟨rfl, rfl⟩, ?_⟩
    cases v <;> rfl
  · rintro ⟨_, _, _, rfl, ⟨rfl, rfl⟩, rfl⟩
    cases v <;> rfl

theorem inverts_readText :
    readText.Inverts fun v front => encodeField (Bytes.ofText v) = .ok front := by
  have hread : readText.Inverts fun v front => ∃ bytes first second,
      encodeField bytes = .ok first
        ∧ (Bytes.ofText v = bytes ∧ second = []) ∧ front = first ++ second := by
    unfold readText
    refine inverts_field.bind fun bytes => ?_
    split
    · next text hdecode =>
      refine (inverts_pure text).congr fun v front => and_congr_left' ⟨?_, ?_⟩
      · rintro rfl
        exact Option.some.inj ((Utf8.decode_ofText v).symm.trans hdecode)
      · rintro rfl
        exact Utf8.ofText_of_decode hdecode
    · next hdecode =>
      refine (inverts_fail _).congr fun v front => ⟨?_, False.elim⟩
      rintro ⟨rfl, -⟩
      rw [Utf8.decode_ofText] at hdecode
      cases hdecode
  refine hread.congr fun v front => ?_
  constructor
  · intro h
    exact ⟨_, front, [], h, ⟨rfl, rfl⟩, (List.append_nil _).symm⟩
  · rintro ⟨_, first, _, h, ⟨rfl, rfl⟩, rfl⟩
    rwa [List.append_nil]

/-- Writing one part after the other. -/
theorem bind_eq_ok {α β : Type} {first : Outcome α} {next : α → Outcome β} {b : β} :
    (first >>= next) = .ok b ↔ ∃ a, first = .ok a ∧ next a = .ok b := by
  cases first with
  | ok a => exact ⟨fun h => ⟨a, rfl, h⟩, fun ⟨_, ha, h⟩ => by cases ha; exact h⟩
  | error e => exact ⟨nofun, fun ⟨_, ha, _⟩ => nomatch ha⟩

theorem pure_eq_ok {α : Type} {a b : α} : (Pure.pure a : Outcome α) = .ok b ↔ b = a :=
  ⟨fun h => (Except.ok.inj h).symm, fun h => congrArg Except.ok h.symm⟩

theorem encode_some_eq_ok {s : Shape} {v : s.Value} {front : Bytes} :
    encode (.option s) (some v) = .ok front ↔ ∃ x, encode s v = .ok x ∧ front = 1 :: x :=
  bind_eq_ok.trans (exists_congr fun _ => and_congr_right fun _ => pure_eq_ok)

theorem encode_pair_eq_ok {a b : Shape} {v : a.Value} {w : b.Value} {front : Bytes} :
    encode (.pair a b) (v, w) = .ok front
      ↔ ∃ x, encode a v = .ok x ∧ ∃ y, encode b w = .ok y ∧ front = x ++ y :=
  bind_eq_ok.trans (exists_congr fun _ => and_congr_right fun _ =>
    bind_eq_ok.trans (exists_congr fun _ => and_congr_right fun _ => pure_eq_ok))

theorem encode_triple_eq_ok {a b c : Shape} {v : a.Value} {w : b.Value} {x : c.Value}
    {front : Bytes} :
    encode (.triple a b c) (v, w, x) = .ok front
      ↔ ∃ y, encode a v = .ok y ∧ ∃ z, encode b w = .ok z ∧ ∃ t, encode c x = .ok t
        ∧ front = y ++ z ++ t :=
  bind_eq_ok.trans (exists_congr fun _ => and_congr_right fun _ =>
    bind_eq_ok.trans (exists_congr fun _ => and_congr_right fun _ =>
      bind_eq_ok.trans (exists_congr fun _ => and_congr_right fun _ => pure_eq_ok)))

/-- A value that may be missing has a truth value before it. -/
theorem inverts_option {s : Shape}
    (ih : (read s).Inverts fun v front => encode s v = .ok front) :
    (read (.option s)).Inverts fun v front => encode (.option s) v = .ok front := by
  have hpresent : (read s >>= fun v => Pure.pure (some v)).Inverts fun v front =>
      ∃ a, encode s a = .ok front ∧ v = some a := ih.map some fun _ _ => Iff.rfl
  have hnext : ∀ b : Bool, (if b then read s >>= fun v => Pure.pure (some v)
      else Pure.pure none : Read (Option s.Value)).Inverts fun v front =>
        (b = true ∧ ∃ a, encode s a = .ok front ∧ v = some a) ∨ (b = false ∧ v = none ∧ front = [])
      := by
    intro b
    cases b with
    | false => exact (inverts_pure none).congr fun _ _ => by simp
    | true => exact hpresent.congr fun _ _ => by simp
  refine (inverts_readBool.bind hnext).congr fun v front => ?_
  cases v with
  | none =>
    refine (pure_eq_ok (a := [0])).trans ⟨?_, ?_⟩
    · rintro rfl
      exact ⟨false, [0], [], rfl, .inr ⟨rfl, rfl, rfl⟩, rfl⟩
    · rintro ⟨_, _, _, rfl, ⟨-, _, -, hsome⟩ | ⟨rfl, -, rfl⟩, rfl⟩
      · cases hsome
      · rfl
  | some v =>
    rw [encode_some_eq_ok]
    constructor
    · rintro ⟨x, hx, rfl⟩
      exact ⟨true, [1], x, rfl, .inl ⟨rfl, v, hx, rfl⟩, rfl⟩
    · rintro ⟨_, _, x, rfl, ⟨rfl, _, hx, hsome⟩ | ⟨-, hnone, -⟩, rfl⟩
      · cases hsome
        exact ⟨x, hx, rfl⟩
      · cases hnone

theorem inverts_pair {a b : Shape} (iha : (read a).Inverts fun v front => encode a v = .ok front)
    (ihb : (read b).Inverts fun v front => encode b v = .ok front) :
    (read (.pair a b)).Inverts fun v front => encode (.pair a b) v = .ok front := by
  refine (iha.bind fun v => ihb.map (v, ·) fun _ _ => Iff.rfl).congr fun vw front => ?_
  obtain ⟨v, w⟩ := vw
  rw [encode_pair_eq_ok]
  constructor
  · rintro ⟨x, hx, y, hy, rfl⟩
    exact ⟨v, x, y, hx, ⟨w, hy, rfl⟩, rfl⟩
  · rintro ⟨_, x, y, hx, ⟨_, hy, heq⟩, rfl⟩
    cases heq
    exact ⟨x, hx, y, hy, rfl⟩

theorem inverts_triple {a b c : Shape}
    (iha : (read a).Inverts fun v front => encode a v = .ok front)
    (ihb : (read b).Inverts fun v front => encode b v = .ok front)
    (ihc : (read c).Inverts fun v front => encode c v = .ok front) :
    (read (.triple a b c)).Inverts fun v front => encode (.triple a b c) v = .ok front := by
  refine (iha.bind fun v => ihb.bind fun w => ihc.map (v, w, ·) fun _ _ => Iff.rfl).congr
    fun vwx front => ?_
  obtain ⟨v, w, x⟩ := vwx
  rw [encode_triple_eq_ok]
  constructor
  · rintro ⟨y, hy, z, hz, t, ht, rfl⟩
    exact ⟨v, y, z ++ t, hy, ⟨w, z, t, hz, ⟨x, ht, rfl⟩, rfl⟩, List.append_assoc _ _ _⟩
  · rintro ⟨_, y, _, hy, ⟨_, z, t, hz, ⟨_, ht, heq⟩, rfl⟩, rfl⟩
    cases heq
    exact ⟨y, hy, z, hz, t, ht, (List.append_assoc _ _ _).symm⟩

/-- **Every shape without JSON documents** is read back from the written forms of its values, and
from nothing else. -/
theorem inverts_read {s : Shape} (h : s.holdsJson = false) :
    (read s).Inverts fun v front => encode s v = .ok front := by
  -- the written form of a fixed width cannot fail
  have hfixed : ∀ {v front : Bytes}, (Except.ok v : Outcome Bytes) = .ok front ↔ front = v :=
    pure_eq_ok
  induction s with
  | unit => exact (inverts_pure ()).congr fun _ _ => hfixed.trans (iff_and_self.mpr fun _ => rfl)
  | bool => exact inverts_readBool.congr fun _ _ => hfixed
  | u8 => exact inverts_u8.congr fun _ _ => hfixed
  | u16 => exact inverts_u16.congr fun _ _ => hfixed
  | u32 => exact inverts_u32.congr fun _ _ => hfixed
  | u64 => exact inverts_u64.congr fun _ _ => hfixed
  | string => exact inverts_readText
  | bytes => exact inverts_field
  | option s ih => exact inverts_option (ih h)
  | pair a b iha ihb =>
    obtain ⟨ha, hb⟩ := Bool.or_eq_false_iff.mp h
    exact inverts_pair (iha ha) (ihb hb)
  | triple a b c iha ihb ihc =>
    obtain ⟨hab, hc⟩ := Bool.or_eq_false_iff.mp h
    obtain ⟨ha, hb⟩ := Bool.or_eq_false_iff.mp hab
    exact inverts_triple (iha ha) (ihb hb) (ihc hc)
  | json => cases h
  | job => cases h

/-! ## §3. Whole payloads. -/

/-- The values of a shape have one written form each, and a written form says where it ends. -/
structure HasWrittenForms (s : Shape) : Prop where
  /-- A value is read off its written form, whatever stands behind it. -/
  reads : ∀ {v : s.Value} {bytes : Bytes}, encode s v = .ok bytes →
    ∀ rest, read s (bytes ++ rest) = (.ok v, rest)
  /-- A written form is the payload of its value, -/
  decodes : ∀ {v : s.Value} {bytes : Bytes}, encode s v = .ok bytes → decode s bytes = .ok v
  /-- and no other payload is. -/
  encodes : ∀ {v : s.Value} {bytes : Bytes}, decode s bytes = .ok v → encode s v = .ok bytes
  /-- A written form that is cut short cannot be read. -/
  truncated : ∀ {v : s.Value} {bytes front : Bytes}, encode s v = .ok bytes → front <+: bytes →
    front ≠ bytes → ∃ detail, decode s front = .error (.decode detail)
  /-- A written form with more behind it cannot be read. -/
  extended : ∀ {v : s.Value} {bytes tail : Bytes}, encode s v = .ok bytes → tail ≠ [] →
    ∃ detail, decode s (bytes ++ tail) = .error (.decode detail)

variable {s : Shape}

theorem decode_eq_ok {v : s.Value} {bytes : Bytes} :
    decode s bytes = .ok v ↔ read s bytes = (.ok v, []) := by
  unfold decode
  constructor
  · intro h
    split at h
    · cases h
    · next hread =>
      cases h
      exact hread
    · cases h
  · intro h
    rw [h]

/-- **A payload has one value, a value has one payload**, and no payload is the beginning of
another. -/
theorem payloads_have_one_written_form (h : s.holdsJson = false) : HasWrittenForms s := by
  have hinverts := inverts_read h
  have hreads : ∀ {v : s.Value} {bytes : Bytes}, encode s v = .ok bytes →
      ∀ rest, read s (bytes ++ rest) = (.ok v, rest) :=
    fun hv rest => (hinverts _ _ _).mpr ⟨_, hv, rfl⟩
  have hencodes : ∀ {v : s.Value} {bytes : Bytes}, decode s bytes = .ok v →
      encode s v = .ok bytes := by
    intro v bytes hv
    obtain ⟨front, hfront, rfl⟩ := (hinverts _ _ _).mp (decode_eq_ok.mp hv)
    rwa [List.append_nil]
  -- a payload that is no written form is refused, and in one way only
  have hrefuses : ∀ {bytes : Bytes}, (∀ v, encode s v ≠ .ok bytes) →
      ∃ detail, decode s bytes = .error (.decode detail) := by
    intro bytes hnone
    cases hdecode : decode s bytes with
    | ok v => exact absurd (hencodes hdecode) (hnone v)
    | error e =>
      obtain ⟨detail, rfl⟩ := decode_eq_error hdecode
      exact ⟨detail, rfl⟩
  -- two written forms do not begin alike
  have halone : ∀ {v w : s.Value} {bytes tail : Bytes}, encode s v = .ok bytes →
      encode s w = .ok (bytes ++ tail) → tail = [] := by
    intro v w bytes tail hv hw
    have hread := hreads hw []
    rw [List.append_nil, hreads hv tail] at hread
    exact (Prod.mk.inj hread).2
  exact
    { reads := hreads
      decodes := fun hv => decode_eq_ok.mpr (by simpa using hreads hv [])
      encodes := hencodes
      truncated := by
        rintro v bytes front hv ⟨tail, rfl⟩ hne
        refine hrefuses fun w hw => hne ?_
        rw [halone hw hv, List.append_nil]
      extended := fun hv hne => hrefuses fun w hw => hne (halone hv hw) }

/-- The written form of a text and a number that is there, and what is left of it without its last
byte. -/
theorem payloads_have_one_written_form_when_nested :
    (Shape.pair .string (.option .u16)).holdsJson = false
      ∧ encode (.pair .string (.option .u16)) ("hi", some 258) = .ok [0, 0, 0, 2, 104, 105, 1, 1, 2]
      ∧ decode (.pair .string (.option .u16)) [0, 0, 0, 2, 104, 105, 1, 1, 2]
        = .ok ("hi", some 258)
      ∧ (∃ detail, decode (.pair .string (.option .u16)) [0, 0, 0, 2, 104, 105, 1, 1]
        = .error (.decode detail))
      ∧ ∃ detail, decode (.pair .string (.option .u16)) [0, 0, 0, 2, 104, 105, 1, 1, 2, 0]
        = .error (.decode detail) := by
  have hencode : encode (.pair .string (.option .u16)) ("hi", some 258)
      = .ok [0, 0, 0, 2, 104, 105, 1, 1, 2] := by rfl
  have hforms := payloads_have_one_written_form
    (show (Shape.pair .string (.option .u16)).holdsJson = false from rfl)
  exact ⟨rfl, hencode, hforms.decodes hencode, hforms.truncated hencode ⟨[2], rfl⟩ (by decide),
    hforms.extended hencode (List.cons_ne_nil 0 [])⟩

end RemoteCall.Payload
