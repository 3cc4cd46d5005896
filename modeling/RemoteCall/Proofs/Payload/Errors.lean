/-
  RemoteCall.Proofs.Payload.Errors
  ────────────────────────────────
  **HOW READING A PAYLOAD FAILS.**

  Whatever the shape and whatever the bytes, a payload that cannot be read is
  reported as `Failure.decode`, which is neither a failure of the transport nor
  of the protocol.  The reading steps are closed under the operations that they
  are made of.

  Main statements:
    • `Read.Careful.bind`  — one step after the other,
    • `careful_read`       — every shape,
    • `decode_eq_error`    — whole payloads.
-/
import RemoteCall.Payload.Codec

namespace RemoteCall.Payload

/-! ## §1. Reading steps. -/

/-- A reading step fails with `Failure.decode` only. -/
def Read.Careful {α : Type} (r : Read α) : Prop :=
  ∀ bytes e, (r bytes).1 = .error e → ∃ detail, e = .decode detail

namespace Read

theorem careful_pure {α : Type} (a : α) : (Pure.pure a : Read α).Careful := by
  intro bytes e h
  cases h

theorem careful_fail {α : Type} (detail : String) : (Read.fail detail : Read α).Careful := by
  intro bytes e h
  cases h
  exact ⟨detail, rfl⟩

/-- One step after the other. -/
theorem Careful.bind {α β : Type} {r : Read α} {f : α → Read β} (h : r.Careful)
    (hf : ∀ a, (f a).Careful) : (r >>= f).Careful := by
  intro bytes e he
  have hbind : (r >>= f) bytes = Read.bind r f bytes := rfl
  rw [hbind] at he
  unfold Read.bind at he
  split at he
  · next a rest _ =>
    -- the first step succeeds, and the second fails
    exact hf a rest e he
  · next e' rest hr =>
    -- the first step fails
    cases he
    exact h bytes e (by rw [hr])

theorem careful_takeAs (what : String) (n : Nat) : (takeAs what n).Careful := by
  intro bytes e h
  unfold takeAs at h
  split at h
  · cases h
    exact ⟨_, rfl⟩
  · cases h

theorem careful_number (what : String) (width : Nat) : (number what width).Careful :=
  (careful_takeAs what width).bind fun _ => careful_pure _

theorem careful_u32 : u32.Careful :=
  (careful_number _ _).bind fun _ => careful_pure _

theorem careful_field : field.Careful :=
  careful_u32.bind fun _ => careful_takeAs _ _

end Read

open Read

theorem careful_readBool : readBool.Careful := by
  refine Careful.bind ((careful_number _ _).bind fun _ => careful_pure _) fun b => ?_
  split
  · exact careful_pure _
  · split
    · exact careful_pure _
    · exact careful_fail _

theorem careful_readText : readText.Careful := by
  refine careful_field.bind fun bytes => ?_
  split
  · exact careful_pure _
  · exact careful_fail _

theorem careful_readDocument {α : Type} (make : Bytes → Option α) :
    (readDocument make).Careful := by
  refine careful_field.bind fun bytes => ?_
  split
  · exact careful_pure _
  · exact careful_fail _

/-! ## §2. Shapes. -/

/-- **Every shape is read with care.** -/
theorem careful_read (s : Shape) : (read s).Careful := by
  induction s with
  | unit => exact careful_pure _
  | bool => exact careful_readBool
  | u8 => exact (careful_number _ _).bind fun _ => careful_pure _
  | u16 => exact (careful_number _ _).bind fun _ => careful_pure _
  | u32 => exact careful_u32
  | u64 => exact (careful_number _ _).bind fun _ => careful_pure _
  | string => exact careful_readText
  | bytes => exact careful_field
  | option s ih =>
    refine careful_readBool.bind fun b => ?_
    cases b with
    | true => exact ih.bind fun _ => careful_pure _
    | false => exact careful_pure _
  | pair a b iha ihb => exact iha.bind fun _ => ihb.bind fun _ => careful_pure _
  | triple a b c iha ihb ihc =>
    exact iha.bind fun _ => ihb.bind fun _ => ihc.bind fun _ => careful_pure _
  | json => exact careful_readDocument _
  | job => exact careful_readDocument _

/-- **A payload that cannot be read** is reported as such. -/
theorem decode_eq_error {s : Shape} {bytes : Bytes} {e : Failure}
    (h : decode s bytes = .error e) : ∃ detail, e = .decode detail := by
  unfold decode at h
  split at h
  · next e' rest hread =>
    cases h
    -- reading has failed
    exact careful_read s bytes e (by rw [hread])
  · cases h
  · cases h
    -- bytes are left over
    exact ⟨_, rfl⟩

end RemoteCall.Payload
