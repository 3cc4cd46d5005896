/-
  RemoteCall.Proofs.PartOf
  ────────────────────────
  **PART OF A COLLECTION, OR ALL OF IT.**

  Whatever happens, a pool holds no call twice; and as long as the sequence
  numbers suffice, it holds every call.  `PartOf exact xs ys` says both: `xs`
  is part of `ys`, up to order, and it is all of `ys` if `exact` holds.
-/
import Mathlib.Data.List.Nodup
import Mathlib.Data.List.Perm.Subperm

namespace RemoteCall

/-- `xs` is part of `ys`, up to order, and all of it if `exact` holds. -/
structure PartOf {α : Type} (exact : Prop) (xs ys : List α) : Prop where
  part : xs.Subperm ys
  all : exact → xs.Perm ys

namespace PartOf

variable {α β : Type} {exact exact' : Prop} {xs ys zs xs' ys' : List α}

theorem of_perm (h : xs.Perm ys) : PartOf exact xs ys :=
  ⟨h.subperm, fun _ => h⟩

theorem refl (xs : List α) : PartOf exact xs xs :=
  of_perm (List.Perm.refl xs)

theorem trans (h : PartOf exact xs ys) (h' : PartOf exact ys zs) : PartOf exact xs zs :=
  ⟨h.part.trans h'.part, fun he => (h.all he).trans (h'.all he)⟩

theorem mono (h : PartOf exact xs ys) (he : exact' → exact) : PartOf exact' xs ys :=
  ⟨h.part, fun he' => h.all (he he')⟩

/-- Side by side. -/
theorem append (h : PartOf exact xs ys) (h' : PartOf exact xs' ys') :
    PartOf exact (xs ++ xs') (ys ++ ys') := by
  refine ⟨?_, fun he => (h.all he).append (h'.all he)⟩
  obtain ⟨zs, hperm, hsub⟩ := h.part
  obtain ⟨zs', hperm', hsub'⟩ := h'.part
  exact ⟨zs ++ zs', hperm.append hperm', hsub.append hsub'⟩

theorem map (h : PartOf exact xs ys) (f : α → β) : PartOf exact (xs.map f) (ys.map f) := by
  refine ⟨?_, fun he => (h.all he).map f⟩
  obtain ⟨zs, hperm, hsub⟩ := h.part
  exact ⟨zs.map f, hperm.map f, hsub.map f⟩

theorem filter (h : PartOf exact xs ys) (q : α → Bool) :
    PartOf exact (xs.filter q) (ys.filter q) :=
  ⟨h.part.filter q, fun he => (h.all he).filter q⟩

/-- What is part of something without repetition has none. -/
theorem nodup (h : PartOf exact xs ys) (hys : ys.Nodup) : xs.Nodup := by
  obtain ⟨zs, hperm, hsub⟩ := h.part
  exact hperm.nodup (hys.sublist hsub)

theorem subset (h : PartOf exact xs ys) : xs ⊆ ys :=
  h.part.subset

end PartOf

end RemoteCall
