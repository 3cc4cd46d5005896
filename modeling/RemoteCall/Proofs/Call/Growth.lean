/-
  RemoteCall.Proofs.Call.Growth
  ─────────────────────────────
  **A LEDGER ONLY GROWS.**

  Whatever the pool and the observers of its calls do to a ledger, an entry
  stays, keeps the shape of its response, and does not change any more once it
  has an outcome.  `Ledger.Grows` says so of two ledgers; it is a preorder, and
  every change of a ledger obeys it.

  Main statements:
    • `Grows.isFinished`    — an outcome is final,
    • `isFinished_failAll`  — which calls have an outcome after several have failed,
    • `failure?_fail`       — which failure is recorded, and whose.
-/
import RemoteCall.Pool.Transition

namespace RemoteCall

/-- The failure that is recorded in an entry. -/
def Entry.failure? (entry : Entry) : Option Failure :=
  match entry.slot.outcome with
  | some (.error e) => some e
  | _ => none

/-- A slot that is filled is left alone. -/
theorem Slot.settle_of_isFinished {α : Type} {s : Slot α} (h : s.isFinished = true)
    (o : Outcome α) : (s.settle o).1 = s := by
  obtain ⟨existing, hs⟩ := Option.isSome_iff_exists.mp h
  rw [Slot.settle_of_some hs]

namespace Ledger

/-! ## §1. What a ledger says about a call. -/

/-- Whether a call has been issued. -/
def knows (l : Ledger) (id : CallId) : Bool :=
  (l.get? id).isSome

/-- Whether a call has no outcome. -/
def isOpen (l : Ledger) (id : CallId) : Bool :=
  !l.isFinished id

/-- The failure that is recorded for a call. -/
def failure? (l : Ledger) (id : CallId) : Option Failure :=
  (l.get? id).bind Entry.failure?

theorem isFinished_eq (l : Ledger) (id : CallId) :
    l.isFinished id = (l.get? id).any (·.slot.isFinished) := by
  unfold isFinished
  cases l.get? id <;> rfl

theorem isOpen_iff {l : Ledger} {id : CallId} : l.isOpen id = true ↔ l.isFinished id = false := by
  unfold isOpen
  rw [Bool.not_eq_true']

theorem isFinished_of_failure? {l : Ledger} {id : CallId} {e : Failure}
    (h : l.failure? id = some e) : l.isFinished id = true := by
  rw [isFinished_eq]
  obtain ⟨entry, hget, he⟩ := Option.bind_eq_some_iff.mp h
  rw [hget]
  unfold Entry.failure? at he
  cases ho : entry.slot.outcome with
  | none => rw [ho] at he; exact absurd he (by simp)
  | some o => simp [Slot.isFinished, ho]

/-! ## §2. Growth. -/

/-- `l'` has grown out of `l`: entries stay, and those with an outcome do not change. -/
structure Grows (l l' : Ledger) : Prop where
  kept : ∀ {id entry}, l.get? id = some entry →
    ∃ entry', l'.get? id = some entry' ∧ entry'.shape = entry.shape
      ∧ (entry.slot.isFinished = true → entry' = entry)

namespace Grows

variable {l l' l'' : Ledger}

theorem refl (l : Ledger) : Grows l l :=
  ⟨fun h => ⟨_, h, rfl, fun _ => rfl⟩⟩

theorem trans (h : Grows l l') (h' : Grows l' l'') : Grows l l'' := by
  refine ⟨fun {id entry} hget => ?_⟩
  obtain ⟨entry', hget', hshape, hsame⟩ := h.kept hget
  obtain ⟨entry'', hget'', hshape', hsame'⟩ := h'.kept hget'
  refine ⟨entry'', hget'', hshape'.trans hshape, fun hfin => ?_⟩
  -- an entry with an outcome is the same in all three
  have heq := hsame hfin
  subst heq
  exact hsame' hfin

theorem knows (h : Grows l l') {id : CallId} (hk : l.knows id = true) : l'.knows id = true := by
  obtain ⟨entry, hget⟩ := Option.isSome_iff_exists.mp hk
  obtain ⟨entry', hget', -⟩ := h.kept hget
  exact Option.isSome_iff_exists.mpr ⟨entry', hget'⟩

/-- **An entry with an outcome stays as it is.** -/
theorem get?_of_isFinished (h : Grows l l') {id : CallId} (hf : l.isFinished id = true) :
    l'.get? id = l.get? id := by
  rw [isFinished_eq] at hf
  obtain ⟨entry, hget, hfin⟩ := Option.any_eq_true _ _ |>.mp hf
  obtain ⟨entry', hget', -, hsame⟩ := h.kept hget
  rw [hget, hget', hsame hfin]

/-- **An outcome is final.** -/
theorem isFinished (h : Grows l l') {id : CallId} (hf : l.isFinished id = true) :
    l'.isFinished id = true := by
  rw [isFinished_eq, h.get?_of_isFinished hf, ← isFinished_eq]
  exact hf

theorem isOpen (h : Grows l l') {id : CallId} (ho : l'.isOpen id = true) :
    l.isOpen id = true := by
  unfold Ledger.isOpen at ho ⊢
  cases hf : l.isFinished id with
  | false => rfl
  | true => rw [h.isFinished hf] at ho; exact absurd ho (by simp)

/-- A selection by what is open later is a selection from what is open now. -/
theorem filter_isOpen {α : Type} (h : Grows l l') (id : α → CallId) (xs : List α) :
    (xs.filter fun x => l.isOpen (id x)).filter (fun x => l'.isOpen (id x))
      = xs.filter fun x => l'.isOpen (id x) := by
  -- whatever is open later is open now
  rw [List.filter_filter]
  apply List.filter_congr
  intro x _
  cases ho : l'.isOpen (id x) with
  | false => rfl
  | true => simp [h.isOpen ho]

end Grows

/-! ## §3. Every change makes a ledger grow. -/

theorem grows_update (l : Ledger) (id : CallId) (f : Entry → Entry)
    (hshape : ∀ entry, (f entry).shape = entry.shape)
    (hfin : ∀ entry, entry.slot.isFinished = true → f entry = entry) :
    Grows l (l.update id f) := by
  refine ⟨fun {other entry} hget => ?_⟩
  by_cases h : other = id
  · subst h
    refine ⟨f entry, ?_, hshape entry, hfin entry⟩
    rw [get?_update_self, hget]
    rfl
  · exact ⟨entry, by rw [get?_update_of_ne l h, hget], rfl, fun _ => rfl⟩

theorem grows_settle (l : Ledger) (id : CallId)
    (f : (entry : Entry) → Slot entry.shape.Value)
    (hfin : ∀ entry, entry.slot.isFinished = true → f entry = entry.slot) :
    Grows l (l.update id fun entry => ⟨entry.shape, f entry⟩) := by
  refine grows_update l id _ (fun _ => rfl) (fun entry h => ?_)
  rw [hfin entry h]

theorem grows_fail (l : Ledger) (id : CallId) (e : Failure) : Grows l (l.fail id e) :=
  grows_settle l id _ fun _ h => Slot.settle_of_isFinished h (.error e)

theorem grows_deliver (l : Ledger) (id : CallId) (payload : Bytes) :
    Grows l (l.deliver id payload).1 := by
  unfold deliver
  cases l.get? id with
  | none => exact Grows.refl l
  | some _ =>
    show Grows l (l.update id (Entry.afterDelivery payload))
    refine grows_settle l id (fun entry => (entry.slot.deliver _ payload).1) fun entry h => ?_
    unfold Slot.deliver
    cases Payload.decode entry.shape payload with
    | error e => rfl
    | ok v => exact Slot.settle_of_isFinished h (.ok v)

theorem grows_issue (l : Ledger) (id : CallId) (shape : Payload.Shape) :
    Grows l (l.issue id shape) := by
  refine ⟨fun {other entry} hget => ⟨entry, ?_, rfl, fun _ => rfl⟩⟩
  -- a new entry goes behind the others, so it hides none of them
  unfold get? issue at *
  obtain ⟨found, hfind, hentry⟩ := Option.map_eq_some_iff.mp hget
  rw [List.find?_append, hfind]
  exact congrArg some hentry

theorem grows_failAll (ids : List CallId) (e : Failure) (l : Ledger) :
    Grows l (l.failAll ids e) := by
  induction ids generalizing l with
  | nil => exact Grows.refl l
  | cons id ids ih => exact (grows_fail l id e).trans (ih (l.fail id e))

theorem grows_timeOut (l : Ledger) (now : Time) (calls : List PendingCall) :
    Grows l (l.timeOut now calls) :=
  grows_failAll _ _ l

theorem grows_chargeAll (limit : UInt32) (e : Failure) (calls : List PendingCall) (l : Ledger) :
    Grows l (chargeAll limit e calls l).2 := by
  induction calls generalizing l with
  | nil => exact Grows.refl l
  | cons call rest ih =>
    unfold chargeAll
    split
    · exact ih l
    · split
      · exact (grows_fail l call.id e).trans (ih (l.fail call.id e))
      · exact ih l

/-! ## §4. Which calls have an outcome afterwards, and which one. -/

theorem get?_fail_of_ne (l : Ledger) {id other : CallId} (h : other ≠ id) (e : Failure) :
    (l.fail id e).get? other = l.get? other :=
  get?_update_of_ne l h _

theorem isFinished_fail_of_knows {l : Ledger} {id : CallId} (h : l.knows id = true) (e : Failure) :
    (l.fail id e).isFinished id = true := by
  rw [isFinished_fail]
  exact h

/-- **A call that is not among those that fail stays as it is.** -/
theorem get?_failAll_of_notMem {ids : List CallId} {id : CallId} (h : id ∉ ids) (e : Failure)
    (l : Ledger) : (l.failAll ids e).get? id = l.get? id := by
  induction ids generalizing l with
  | nil => rfl
  | cons first ids ih =>
    rw [List.mem_cons, not_or] at h
    exact (ih h.2 (l.fail first e)).trans (get?_fail_of_ne l h.1 e)

/-- **Calls that have been issued have an outcome once they have failed.** -/
theorem isFinished_failAll {ids : List CallId} {id : CallId} (h : id ∈ ids) (e : Failure)
    {l : Ledger} (hk : l.knows id = true) : (l.failAll ids e).isFinished id = true := by
  induction ids generalizing l with
  | nil => exact absurd h (by simp)
  | cons first ids ih =>
    -- the first failure settles the call, and nothing undoes that
    rcases List.mem_cons.mp h with heq | htail
    · subst heq
      exact (grows_failAll ids e _).isFinished (isFinished_fail_of_knows hk e)
    · exact ih htail ((grows_fail l first e).knows hk)

theorem get?_deliver_of_ne (l : Ledger) {id other : CallId} (h : other ≠ id) (payload : Bytes) :
    (l.deliver id payload).1.get? other = l.get? other := by
  unfold deliver
  cases l.get? id with
  | none => rfl
  | some _ => exact get?_update_of_ne l h _

theorem get?_chargeAll_of_notMem {limit : UInt32} {e : Failure} {calls : List PendingCall}
    {id : CallId} (h : id ∉ calls.map (·.id)) (l : Ledger) :
    (chargeAll limit e calls l).2.get? id = l.get? id := by
  induction calls generalizing l with
  | nil => rfl
  | cons call rest ih =>
    rw [List.map_cons, List.mem_cons, not_or] at h
    -- a call is passed over, fails, or is given back
    unfold chargeAll
    split
    · exact ih h.2 l
    · split
      · exact (ih h.2 (l.fail call.id e)).trans (get?_fail_of_ne l h.1 e)
      · exact ih h.2 l

theorem get?_timeOut_of_notMem {now : Time} {calls : List PendingCall} {id : CallId}
    (h : id ∉ calls.map (·.id)) (l : Ledger) : (l.timeOut now calls).get? id = l.get? id :=
  get?_failAll_of_notMem (fun hmem => h ((List.filter_sublist.map _).subset hmem)) _ l

theorem update_of_get?_eq_none {l : Ledger} {id : CallId} (h : l.get? id = none)
    (f : Entry → Entry) : l.update id f = l := by
  obtain ⟨entries⟩ := l
  unfold get? at h
  rw [Option.map_eq_none_iff, List.find?_eq_none] at h
  -- no entry has the number
  have hsame : ∀ x ∈ entries, (if x.1 = id then (x.1, f x.2) else (x.1, x.2)) = x := by
    intro x hx
    have hne : x.1 ≠ id := by simpa using h x hx
    rw [if_neg hne]
  exact congrArg Ledger.mk ((List.map_congr_left hsame).trans (List.map_id' entries))

/-- A failure opens no slot. -/
theorem get?_fail_of_none {l : Ledger} {id : CallId} (h : l.get? id = none) (other : CallId)
    (e : Failure) : (l.fail other e).get? id = none := by
  by_cases hid : id = other
  · subst hid
    rw [fail, update_of_get?_eq_none h]
    exact h
  · rw [get?_fail_of_ne l hid]
    exact h

/-- To cancel a call is to record a failure, whether the pool is told or not. -/
theorem cancel_fst (l : Ledger) (id : CallId) (e : Failure) : (l.cancel id e).1 = l.fail id e := by
  unfold cancel
  cases h : l.get? id with
  | none => exact (update_of_get?_eq_none h _).symm
  | some entry => rfl

theorem knows_of_cancel {l : Ledger} {id : CallId} {e : Failure} (h : (l.cancel id e).2 = true) :
    l.knows id = true := by
  unfold cancel at h
  cases hget : l.get? id with
  | none => rw [hget] at h; exact absurd h (by simp)
  | some entry => exact Option.isSome_iff_exists.mpr ⟨entry, hget⟩

/-- A failure is recorded for a call that had no outcome. -/
theorem failure?_fail {l : Ledger} {id : CallId} (hk : l.knows id = true)
    (ho : l.isOpen id = true) (e : Failure) : (l.fail id e).failure? id = some e := by
  obtain ⟨entry, hget⟩ := Option.isSome_iff_exists.mp hk
  -- the slot is empty, so it takes the failure
  have hnone : entry.slot.outcome = none := by
    unfold isOpen at ho
    rw [isFinished_eq, hget] at ho
    simpa [Slot.isFinished] using ho
  unfold failure? fail
  rw [get?_update_self, hget]
  simp [Entry.failure?, Slot.fail, Slot.settle_of_none hnone]

/-- The same for each of several calls. -/
theorem failure?_failAll {ids : List CallId} {id : CallId} (h : id ∈ ids) {l : Ledger}
    (hk : l.knows id = true) (ho : l.isFinished id = false) (e : Failure) :
    (l.failAll ids e).failure? id = some e := by
  induction ids generalizing l with
  | nil => exact absurd h List.not_mem_nil
  | cons first ids ih =>
    by_cases heq : first = id
    · -- the first failure stays
      subst heq
      have hfail := failure?_fail hk (isOpen_iff.mpr ho) e
      have hstays := (grows_failAll ids e (l.fail first e)).get?_of_isFinished
        (isFinished_of_failure? hfail)
      exact (congrArg (·.bind Entry.failure?) hstays).trans hfail
    · have hother := get?_fail_of_ne l (Ne.symm heq) e
      refine ih ((List.mem_cons.mp h).resolve_left (Ne.symm heq))
        ((grows_fail l first e).knows hk) ?_
      rw [isFinished_eq, hother, ← isFinished_eq]
      exact ho

end Ledger

end RemoteCall
