/-
  RemoteCall.Proofs.Keyed
  ───────────────────────
  **LISTS OF VALUES UNDER DISTINCT KEYS.**

  The calls in flight on a link and the calls that are outstanding at a worker
  are lists of values under sequence numbers.  To take out what is under a key
  is to filter by it; it takes out one entry, if the keys are distinct.
-/
import Mathlib.Data.List.Nodup
import Mathlib.Data.List.Perm.Basic

namespace RemoteCall

variable {κ α : Type}

/-- **One entry is taken out, and nothing else.** -/
theorem perm_cons_filter_of_nodup [DecidableEq κ] {xs : List (κ × α)}
    (h : (xs.map (·.1)).Nodup) {k : κ} {x : α} (hmem : (k, x) ∈ xs) :
    xs.Perm ((k, x) :: xs.filter (·.1 != k)) := by
  obtain ⟨before, after, rfl⟩ := List.append_of_mem hmem
  rw [List.map_append, List.map_cons, List.nodup_middle, List.nodup_cons,
    ← List.map_append] at h
  have hothers : ∀ y ∈ before ++ after, y.1 ≠ k :=
    fun y hy heq => h.1 (List.mem_map.mpr ⟨y, hy, heq⟩)
  have hfilter : (before ++ (k, x) :: after).filter (·.1 != k) = before ++ after := by
    rw [List.filter_append, List.filter_cons_of_neg (by simp), ← List.filter_append,
      List.filter_eq_self]
    intro y hy
    simpa using hothers y hy
  rw [hfilter]
  exact List.perm_middle

/-- What is found under a key is an entry. -/
theorem mem_of_find?_key [DecidableEq κ] {xs : List (κ × α)} {k : κ} {x : α}
    (h : (xs.find? (·.1 == k)).map (·.2) = some x) : (k, x) ∈ xs := by
  obtain ⟨y, hfind, rfl⟩ := Option.map_eq_some_iff.mp h
  have hk : y.1 = k := by simpa using List.find?_some hfind
  rw [← hk]
  exact List.mem_of_find?_eq_some hfind

end RemoteCall
