/-
  RemoteCall.Proofs.Pool.Conservation
  ───────────────────────────────────
  **NO CALL IS LOST OR DOUBLED.**

  From one moment to the next, what a pool holds and is open is what it held, or
  has taken up, and is open; some of the calls are charged a retry
  (`Balances`).  So in every run no call is doubled, and as long as the links
  are handed fewer than 2^64 call frames each, none is lost:

      open (held p), as issued  ~  open (takenUp history)      (`Accounts.same`)

  Main statements:
    • `Tidy.after`                     — the balance of one step,
    • `Accounts.next`, `Run.accounts`  — the books, after one step and all steps.
-/
import RemoteCall.Proofs.Pool.Queue

namespace RemoteCall.Pool

variable {exact : Prop} {config : PoolConfig} {history : List Moment} {p q : Pool}

/-! ## §1. One step. -/

/-- The calls that pay for what happens, with the keys of their connections. -/
def Moment.paying (m : Moment) : List (ConnectionKey × PendingCall) :=
  match m.event with
  | .look env _ subject => m.before.pays env subject
  | _ => []

/-- From `p` to `q`, what is held and open is part of what was held, and what has been taken up
since, and is open; it is all of it if `exact` holds.  Those that are `paying` have been charged
once. -/
structure Balances (exact : Prop) (paying adopted : List (ConnectionKey × PendingCall))
    (p q : Pool) : Prop where
  grows : p.ledger.Grows q.ledger
  split : ∃ others, (held p.connections ++ adopted).Perm (paying ++ others)
    ∧ PartOf exact (stillOpen q.ledger (held q.connections))
        ((stillOpen q.ledger paying).map charged ++ stillOpen q.ledger others)

theorem Keeps.balances {paying : List (ConnectionKey × PendingCall)}
    (h : Keeps exact paying p.connections p.ledger q.connections q.ledger) :
    Balances exact paying [] p q := by
  refine ⟨h.grows, ?_⟩
  rw [List.append_nil]
  exact h.split

/-- No call pays when only the ledger grows. -/
theorem balances_of_grows (hgrows : p.ledger.Grows q.ledger)
    (hconnections : q.connections = p.connections) : Balances exact [] [] p q := by
  refine ⟨hgrows, held p.connections, ?_, ?_⟩
  · rw [List.append_nil]
    exact List.Perm.refl _
  · rw [hconnections]
    exact .refl _

/-- As they were issued, the calls that are open later are among those that were held before or have
been taken up. -/
theorem Balances.issued {paying adopted : List (ConnectionKey × PendingCall)}
    (h : Balances exact paying adopted p q) :
    PartOf exact ((stillOpen q.ledger (held q.connections)).map issued)
      ((stillOpen q.ledger (held p.connections ++ adopted)).map issued) := by
  obtain ⟨others, hold, hnew⟩ := h.split
  have hnew' := hnew.map Pool.issued
  rw [List.map_append, List.map_map] at hnew'
  refine hnew'.trans (.of_perm ?_)
  -- a charge does not change a call as it was issued
  have hold' := (stillOpen_perm q.ledger hold).map Pool.issued
  rw [stillOpen_append q.ledger paying, List.map_append] at hold'
  exact hold'.symm

/-- A pool stays in order when its ledger grows, and nothing else happens. -/
theorem Tidy.grow {effects : List Effect} (h : Tidy effects p) (hgrows : p.ledger.Grows q.ledger)
    (hconnections : q.connections = p.connections) : Tidy (effects ++ []) q := by
  rw [List.append_nil]
  refine ⟨hconnections ▸ h.keys, ?_, hconnections ▸ h.numbered⟩
  rw [hconnections]
  exact fun x hx => hgrows.knows (h.known x hx)

/-- What the queue of a pool in order has at its head has been issued and not been charged. -/
theorem Queued.of_head (h : Queued history p) {key : ConnectionKey} {call : PendingCall}
    (hhead : p.commands.head? = some (.call key call)) :
    p.ledger.knows call.id = true ∧ call.retries = 0 := by
  have hqueued : (key, call) ∈ queued p.commands := by
    unfold queued
    rw [List.mem_filterMap]
    exact ⟨.call key call, List.mem_of_head? hhead, rfl⟩
  have hasked := h.asked _ (h.inOrder.subset (List.mem_append_right _ hqueued))
  exact ⟨h.issued hasked.1.1 hasked.1.2, hasked.2⟩

/-- **A call is looked at**: it is taken up unless it has an outcome. -/
theorem Tidy.call {effects : List Effect} (h : Tidy effects p) (env : Surroundings) (now : Time)
    (key : ConnectionKey) {call : PendingCall} (hk : p.ledger.knows call.id = true) :
    Balances exact [] [(key, call)] p (p.command env now (.call key call)).1
      ∧ Tidy (effects ++ (p.command env now (.call key call)).2)
          (p.command env now (.call key call)).1 := by
  cases hopen : p.ledger.isFinished call.id with
  | true =>
    -- a call that has an outcome is dropped
    have hdone : p.command env now (.call key call) = (p, []) := by
      unfold command
      dsimp only
      rw [if_pos hopen]
    rw [hdone]
    refine ⟨⟨Ledger.Grows.refl _, held p.connections ++ [(key, call)], List.Perm.refl _, ?_⟩,
      h.grow (Ledger.Grows.refl _) rfl⟩
    have hnil : stillOpen p.ledger [(key, call)] = [] := stillOpen_eq_nil (by simpa using hopen)
    show PartOf exact (stillOpen p.ledger (held p.connections))
      (stillOpen p.ledger (held p.connections ++ [(key, call)]))
    rw [stillOpen_append, hnil, List.append_nil]
    exact .refl _
  | false =>
    obtain ⟨hledger, hheld, htidy⟩ := h.adopt env now key hopen hk
    have hsilent : (p.command env now (.call key call)).2 = [] := by
      unfold command
      dsimp only
      split <;> rfl
    refine ⟨⟨hledger ▸ Ledger.Grows.refl _, _, List.Perm.refl _,
      .of_perm (stillOpen_perm _ hheld)⟩, ?_⟩
    rw [hsilent, List.append_nil]
    exact htidy

/-- **One look keeps the balance.** -/
theorem Tidy.look {effects : List Effect} (h : Tidy effects p) (hqueue : Queued history p)
    (env : Surroundings) (now : Time) {subject : Subject} (hbefore : subject.isBefore p) :
    Balances (HasRoom (effects ++ (p.look env now subject).2)) (p.pays env subject)
        (Moment.takenUp? ⟨p, .look env now subject⟩).toList p (p.look env now subject).1
      ∧ Tidy (effects ++ (p.look env now subject).2) (p.look env now subject).1 := by
  cases subject with
  | stop =>
    obtain ⟨hgrows, hsettled, hnone, htidy⟩ := h.teardown
    refine ⟨⟨hgrows, held p.connections, by exact List.Perm.of_eq (List.append_nil _), ?_⟩, htidy⟩
    show PartOf _ (stillOpen p.teardown.1.ledger (held p.teardown.1.connections))
      (stillOpen p.teardown.1.ledger (held p.connections))
    -- no call is held, and none that was held is open
    rw [hnone, stillOpen_eq_nil hsettled]
    exact .refl _
  | command first =>
    have htidy : Tidy effects { p with commands := p.commands.tail } :=
      ⟨h.keys, h.known, h.numbered⟩
    cases first with
    | call key call =>
      obtain ⟨⟨hgrows, hsplit⟩, htidy'⟩ := htidy.call env now key (hqueue.of_head hbefore).1
      exact ⟨⟨hgrows, hsplit⟩, htidy'⟩
    | abort id =>
      obtain ⟨hkeeps, htidy'⟩ :=
        htidy.abort env now (hqueue.aborts (List.mem_of_head? hbefore))
      exact ⟨⟨hkeeps.grows, hkeeps.balances.split⟩, htidy'⟩
    | acquire key =>
      obtain ⟨hkeeps, htidy'⟩ := htidy.acquire env now key
      exact ⟨⟨hkeeps.grows, hkeeps.balances.split⟩, htidy'⟩
    | release key =>
      obtain ⟨hkeeps, htidy'⟩ := htidy.release env now key
      exact ⟨⟨hkeeps.grows, hkeeps.balances.split⟩, htidy'⟩
  | notice first =>
    have htidy : Tidy effects { p with notices := p.notices.tail } :=
      ⟨h.keys, h.known, h.numbered⟩
    obtain ⟨hkeeps, htidy'⟩ := htidy.notice env first
    exact ⟨⟨hkeeps.grows, hkeeps.balances.split⟩, htidy'⟩
  | directory directory =>
    obtain ⟨hkeeps, htidy⟩ := h.directoryChanged env now directory
    exact ⟨hkeeps.balances, htidy⟩
  | timer =>
    exact ⟨balances_of_grows (Ledger.Grows.refl _) rfl, h.grow (Ledger.Grows.refl _) rfl⟩

/-- **One step keeps the balance**, whatever happens. -/
theorem Tidy.after {effects : List Effect} (h : Tidy effects p) (hqueue : Queued history p)
    {event : Event} (hadmits : p.Admits history event) :
    Balances (HasRoom (effects ++ (p.after event).2)) (Moment.paying ⟨p, event⟩)
        (Moment.takenUp? ⟨p, event⟩).toList p (p.after event).1
      ∧ Tidy (effects ++ (p.after event).2) (p.after event).1 := by
  have hgrow : ∀ q : Pool, p.ledger.Grows q.ledger → q.connections = p.connections →
      Balances (HasRoom (effects ++ [])) [] [] p q ∧ Tidy (effects ++ []) q :=
    fun q hgrows hconnections =>
      ⟨balances_of_grows hgrows hconnections, h.grow hgrows hconnections⟩
  cases event with
  | issue shape => exact hgrow _ (Ledger.grows_issue _ _ _) rfl
  | settle id e => exact hgrow _ (Ledger.grows_fail _ _ _) rfl
  | send command =>
    have hsame : (p.send command).1.ledger = p.ledger
        ∧ (p.send command).1.connections = p.connections := by
      unfold Pool.send
      split <;> exact ⟨rfl, rfl⟩
    exact hgrow _ (hsame.1 ▸ Ledger.Grows.refl _) hsame.2
  | report notice => exact hgrow _ (Ledger.Grows.refl _) rfl
  | stop => exact hgrow _ (Ledger.Grows.refl _) rfl
  | advance env now =>
    obtain ⟨hkeeps, htidy⟩ := h.advance env now
    exact ⟨hkeeps.balances, htidy⟩
  | look env now subject => exact h.look hqueue env now hadmits.2

/-! ## §2. The accounts. -/

/-- The books of a pool: its queue and its connections are in order, and what it holds and is open
is part of what it has taken up and is open, and all of it as long as the sequence numbers
suffice. -/
structure Accounts (history : List Moment) (p : Pool) : Prop where
  queue : Queued history p
  tidy : Tidy (effectsOf history) p
  same : PartOf (HasRoom (effectsOf history)) ((stillOpen p.ledger (held p.connections)).map issued)
    (stillOpen p.ledger (takenUp history))

/-- The balance of one step. -/
theorem Accounts.balances (h : Accounts history p) {event : Event}
    (hadmits : p.Admits history event) :
    Balances (HasRoom (effectsOf (history ++ [⟨p, event⟩]))) (Moment.paying ⟨p, event⟩)
      (Moment.takenUp? ⟨p, event⟩).toList p (p.after event).1 := by
  rw [effectsOf_concat]
  exact (h.tidy.after h.queue hadmits).1

/-- What was held before or has been taken up since, and is open, has been taken up. -/
theorem Accounts.same_adopted (h : Accounts history p) {event : Event}
    (hadmits : p.Admits history event) (hgrows : p.ledger.Grows q.ledger) :
    PartOf (HasRoom (effectsOf history))
      ((stillOpen q.ledger
        (held p.connections ++ (Moment.takenUp? ⟨p, event⟩).toList)).map issued)
      (stillOpen q.ledger (takenUp (history ++ [⟨p, event⟩]))) := by
  rw [takenUp_concat, stillOpen_append, stillOpen_append, List.map_append]
  refine PartOf.append ?_ (.of_perm ?_)
  · have hlift : PartOf _ (stillOpen q.ledger _) (stillOpen q.ledger _) := h.same.filter _
    rw [stillOpen_stillOpen hgrows, stillOpen_map issued (fun _ => rfl),
      stillOpen_stillOpen hgrows] at hlift
    exact hlift
  · -- a call that is taken up has not been charged
    have hfresh : ∀ x ∈ (Moment.takenUp? ⟨p, event⟩).toList, issued x = x := by
      intro x hx
      rw [Option.mem_toList] at hx
      obtain ⟨env, now, rfl⟩ := eq_of_takenUp? hx
      unfold Pool.issued PendingCall.issued
      rw [← (h.queue.of_head hadmits.2).2]
    refine List.Perm.of_eq ((List.map_congr_left fun x hx => ?_).trans (List.map_id _))
    exact hfresh x (mem_stillOpen.mp hx).1

/-- **One step keeps the books.** -/
theorem Accounts.next (h : Accounts history p) {event : Event}
    (hadmits : p.Admits history event) : Accounts (history ++ [⟨p, event⟩]) (p.after event).1 := by
  obtain ⟨hbalances, htidy⟩ := h.tidy.after h.queue hadmits
  refine ⟨h.queue.next hadmits hbalances.grows, by rw [effectsOf_concat]; exact htidy, ?_⟩
  rw [effectsOf_concat]
  -- what suffices later suffices now
  refine hbalances.issued.trans ((h.same_adopted hadmits hbalances.grows).mono ?_)
  exact fun hroom => hroom.of_append

/-- **Every run keeps the books.** -/
theorem Run.accounts (run : Run config history p) : Accounts history p := by
  induction run with
  | start h =>
    rw [eq_of_new h]
    refine ⟨⟨List.Sublist.refl _, List.nodup_nil, by simp, ?_, by simp⟩, ?_, .refl _⟩
    · -- no number has been given out
      intro id hpos hlt
      exact absurd hlt (Nat.not_lt.mpr hpos)
    · exact ⟨List.nodup_nil, by simp, by simp⟩
  | next run event hadmits ih => exact ih.next hadmits

end RemoteCall.Pool
