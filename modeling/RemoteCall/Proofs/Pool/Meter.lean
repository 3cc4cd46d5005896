/-
  RemoteCall.Proofs.Pool.Meter
  ────────────────────────────
  **THE RETRY COUNTER OF A CALL.**

  From one moment to the next the counter of an open call grows by one if the
  call is charged, and stays as it is otherwise (`Accounts.counter`).  So the
  counter says how often the call has been charged since it was taken up, and
  it never exceeds the budget.

  Main statements:
    • `Accounts.counter` — one step,
    • `Run.metered`      — all steps.
-/
import RemoteCall.Proofs.Pool.Sending
import RemoteCall.Proofs.Pool.Verdicts

namespace RemoteCall.Pool

variable {exact : Prop} {config : PoolConfig} {history : List Moment} {p q : Pool}
  {paying adopted : List (ConnectionKey × PendingCall)}

/-! ## §1. One step. -/

/-- What is open, was held before or has been taken up since, has distinct numbers. -/
theorem Accounts.nodup_adopted (h : Accounts history p) {event : Event}
    (hadmits : p.Admits history event) (hgrows : p.ledger.Grows (p.after event).1.ledger) :
    ((stillOpen (p.after event).1.ledger
      (held p.connections ++ (Moment.takenUp? ⟨p, event⟩).toList)).map (·.2.id)).Nodup := by
  have htaken := (h.next hadmits).queue.takenUp_nodup
  have hids := (h.same_adopted hadmits hgrows).map
    (fun x : ConnectionKey × PendingCall => x.2.id)
  rw [List.map_map] at hids
  exact hids.nodup (htaken.sublist (List.filter_sublist.map _))

/-- Calls with the same number are the same. -/
theorem eq_of_id_eq {xs : List (ConnectionKey × PendingCall)} (h : (xs.map (·.2.id)).Nodup)
    {x y : ConnectionKey × PendingCall} (hx : x ∈ xs) (hy : y ∈ xs) (hid : x.2.id = y.2.id) :
    x = y :=
  List.inj_on_of_nodup_map h hx hy hid

/-- **Where an open call comes from**: it has been charged, or no call with its number has. -/
theorem Balances.origin (h : Balances exact paying adopted p q)
    (hp : ((stillOpen q.ledger (held p.connections ++ adopted)).map (·.2.id)).Nodup)
    {y : ConnectionKey × PendingCall} (hy : y ∈ stillOpen q.ledger (held q.connections)) :
    (∃ x ∈ paying, x ∈ held p.connections ++ adopted ∧ y = charged x)
      ∨ (y ∈ held p.connections ++ adopted ∧ ∀ x ∈ paying, x.2.id ≠ y.2.id) := by
  obtain ⟨others, hold, hnew⟩ := h.split
  have hopen := (mem_stillOpen.mp hy).2
  rcases List.mem_append.mp (hnew.subset hy) with hcharged | hother
  · obtain ⟨x, hx, rfl⟩ := List.mem_map.mp hcharged
    have hpays := (mem_stillOpen.mp hx).1
    exact .inl ⟨x, hpays, hold.symm.subset (List.mem_append_left _ hpays), rfl⟩
  · refine .inr ⟨hold.symm.subset (List.mem_append_right _ (mem_stillOpen.mp hother).1), ?_⟩
    intro x hx hid
    -- the numbers are distinct, so no call that pays has the number of another
    have hdistinct := ((stillOpen_perm q.ledger hold).map
      (fun z : ConnectionKey × PendingCall => z.2.id)).nodup hp
    rw [stillOpen_append, List.map_append, List.nodup_append] at hdistinct
    refine hdistinct.2.2 x.2.id ?_ y.2.id (List.mem_map_of_mem hother) hid
    exact List.mem_map_of_mem (mem_stillOpen.mpr ⟨hx, hid ▸ hopen⟩)

theorem mem_held_of_charges {event : Event} {x : ConnectionKey × PendingCall} {e : Failure}
    (h : Charges p event x e) : x ∈ held p.connections := by
  cases h with
  | attempt hc hphase hcall =>
    obtain ⟨hmem, rfl⟩ := mem_of_connection? hc
    exact mem_held.mpr ⟨_, hmem, rfl, List.mem_append_right _ hcall⟩
  | link hc hphase _ _ hcall =>
    obtain ⟨hmem, rfl⟩ := mem_of_connection? hc
    refine mem_held.mpr ⟨_, hmem, rfl, ?_⟩
    rw [Connection.calls_of_connected hphase]
    exact List.mem_append_left _ hcall
  | withdrawal hc hphase _ hcall =>
    refine mem_held.mpr ⟨_, hc, rfl, ?_⟩
    rw [Connection.calls_of_connected hphase]
    exact List.mem_append_left _ hcall
  | unreadable hc hphase _ hat _ _ _ _ =>
    obtain ⟨hmem, rfl⟩ := mem_of_connection? hc
    refine mem_held.mpr ⟨_, hmem, rfl, ?_⟩
    rw [Connection.calls_of_connected hphase]
    exact List.mem_append_left _ (List.mem_map_of_mem (Connection.mem_of_callAt? hat))

/-- **The counter of an open call** grows by one if the call is charged, and not otherwise. -/
theorem Accounts.counter (h : Accounts history p) {event : Event}
    (hadmits : p.Admits history event) {x y : ConnectionKey × PendingCall}
    (hx : x ∈ held p.connections) (hy : y ∈ held (p.after event).1.connections)
    (hid : y.2.id = x.2.id)
    (hopen : (p.after event).1.ledger.isOpen x.2.id = true) :
    ((∃ e, Charges p event x e) ∧ y = charged x) ∨ ((∀ e, ¬ Charges p event x e) ∧ y = x) := by
  have hbalances := h.balances hadmits
  have hbefore := h.nodup_adopted hadmits hbalances.grows
  have hx' : x ∈ stillOpen (p.after event).1.ledger
      (held p.connections ++ (Moment.takenUp? ⟨p, event⟩).toList) :=
    mem_stillOpen.mpr ⟨List.mem_append_left _ hx, hopen⟩
  have hy' := mem_stillOpen.mpr ⟨hy, hid ▸ hopen⟩
  rcases hbalances.origin hbefore hy' with ⟨z, hpays, hz, rfl⟩ | ⟨hz, hfree⟩
  · -- a call with the number of this one is this one
    have hsame : z = x :=
      eq_of_id_eq hbefore (mem_stillOpen.mpr ⟨hz, hid ▸ hopen⟩) hx' hid
    subst hsame
    exact .inl ⟨mem_paying.mp hpays, rfl⟩
  · have hsame : y = x := eq_of_id_eq hbefore (mem_stillOpen.mpr ⟨hz, hid ▸ hopen⟩) hx' hid
    subst hsame
    exact .inr ⟨fun e he => hfree y (mem_paying.mpr ⟨e, he⟩) rfl, rfl⟩

/-! ## §2. All steps. -/

/-- How often an open call has been charged. -/
def chargesOf (history : List Moment) (id : CallId) : Nat :=
  history.countP fun m => (stillOpen m.before.ledger m.paying).any (·.2.id == id)

theorem chargesOf_concat (history : List Moment) (m : Moment) (id : CallId) :
    chargesOf (history ++ [m]) id = chargesOf history id
      + if (stillOpen m.before.ledger m.paying).any (·.2.id == id) then 1 else 0 := by
  unfold chargesOf
  rw [List.countP_append, List.countP_singleton]

/-- An open call that is held has been taken up. -/
theorem Accounts.takenUp_of_held (h : Accounts history p) {x : ConnectionKey × PendingCall}
    (hx : x ∈ stillOpen p.ledger (held p.connections)) :
    x.2.id ∈ (takenUp history).map (·.2.id) := by
  have hissued := h.same.subset (List.mem_map_of_mem hx)
  exact List.mem_map.mpr ⟨issued x, (mem_stillOpen.mp hissued).1, rfl⟩

/-- **No call is charged before it is taken up.** -/
theorem Run.chargesOf_eq_zero (run : Run config history p) {id : CallId}
    (hid : id ∉ (takenUp history).map (·.2.id)) : chargesOf history id = 0 := by
  induction run with
  | start _ => rfl
  | @next history p run event hadmits ih =>
    rw [takenUp_concat, List.map_append, List.mem_append, not_or] at hid
    rw [chargesOf_concat, ih hid.1, Nat.zero_add, if_neg]
    -- a call that pays is held, and so has been taken up
    intro hany
    obtain ⟨x, hx, heq⟩ := List.any_eq_true.mp hany
    obtain ⟨hpays, hopen⟩ := mem_stillOpen.mp hx
    obtain ⟨e, he⟩ := mem_paying.mp hpays
    refine hid.1 ?_
    rw [← show x.2.id = id by simpa using heq]
    exact run.accounts.takenUp_of_held
      (mem_stillOpen.mpr ⟨mem_held_of_charges he, hopen⟩)

/-- **The counter counts the charges, within the budget.** -/
theorem Run.metered (run : Run config history p) (hlimit : config.callRetries.toNat < 2 ^ 32 - 1) :
    ∀ x ∈ stillOpen p.ledger (held p.connections),
      x.2.retries.toNat = chargesOf history x.2.id ∧ x.2.retries ≤ config.callRetries := by
  induction run with
  | start h => rw [eq_of_new h]; simp
  | @next history p run event hadmits ih =>
    intro y hy
    have h := run.accounts
    have hbalances := h.balances hadmits
    have hopen := (mem_stillOpen.mp hy).2
    have hopen' := hbalances.grows.isOpen hopen
    rw [chargesOf_concat]
    rcases hbalances.origin (h.nodup_adopted hadmits hbalances.grows) hy with
      ⟨x, hpays, -, rfl⟩ | ⟨hz, hfree⟩
    · -- the call has been charged
      obtain ⟨e, he⟩ := mem_paying.mp hpays
      have hx : x ∈ stillOpen p.ledger (held p.connections) :=
        mem_stillOpen.mpr ⟨mem_held_of_charges he, hopen'⟩
      obtain ⟨hcount, hle⟩ := ih x hx
      have hbudget := budget_of_charges h.tidy he (Ledger.isOpen_iff.mp hopen)
      rw [run.config_eq] at hbudget
      have hany : (stillOpen p.ledger (Moment.paying ⟨p, event⟩)).any
          (·.2.id == (charged x).2.id) = true :=
        List.any_eq_true.mpr ⟨x, mem_stillOpen.mpr ⟨hpays, hopen'⟩, beq_self_eq_true _⟩
      rw [if_pos hany]
      refine ⟨?_, hbudget⟩
      -- the counter is below 2^32 - 1, so it does not wrap
      rw [UInt32.le_iff_toNat_le] at hle
      show (x.2.retries + 1).toNat = chargesOf history x.2.id + 1
      rw [UInt32.toNat_add, UInt32.toNat_one, ← hcount]
      omega
    · -- the call has not been charged, and has been held or is new
      have hany : ¬ (stillOpen p.ledger (Moment.paying ⟨p, event⟩)).any
          (·.2.id == y.2.id) = true := by
        intro hany
        obtain ⟨x, hx, heq⟩ := List.any_eq_true.mp hany
        exact hfree x (mem_stillOpen.mp hx).1 (by simpa using heq)
      rw [if_neg hany]
      rcases List.mem_append.mp hz with hheld | hadopted
      · exact ih y (mem_stillOpen.mpr ⟨hheld, hopen'⟩)
      · -- the call has just been taken up
        rw [Option.mem_toList] at hadopted
        obtain ⟨env, now, rfl⟩ := eq_of_takenUp? hadopted
        have hfresh : y.2.id ∉ (takenUp history).map (·.2.id) := by
          have hdistinct := (h.next hadmits).queue.takenUp_nodup
          rw [takenUp_concat, hadopted, List.map_append, List.nodup_append] at hdistinct
          exact fun hmem => hdistinct.2.2 _ hmem _ List.mem_cons_self rfl
        rw [run.chargesOf_eq_zero hfresh, (h.queue.of_head hadmits.2).2]
        exact ⟨rfl, UInt32.zero_le⟩

end RemoteCall.Pool
