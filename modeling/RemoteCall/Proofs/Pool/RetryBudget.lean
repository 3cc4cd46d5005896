/-
  RemoteCall.Proofs.Pool.RetryBudget
  ──────────────────────────────────
  **THE RETRY BUDGET.**

  Let R be the budget of a pool that does not send calls twice on purpose.  In
  every run:

    • the counter of an open call never exceeds R, and it grows by exactly one
      on, and only on, what `Charges` lists;
    • a call is sent at most R + 1 times, and once more for each refusal;
    • a failure of the transport becomes the outcome of a call only where the
      call is charged for the (R + 1)-st time, and then it is the failure that
      it is charged for.

  Main statements:
    • `frames_after`     — frames, waiting calls, charges and refusals, one step,
    • `Run.sent_of_open` — the same for all steps,
    • `retry_budget`     — the whole.
-/
import RemoteCall.Proofs.Pool.Frames
import RemoteCall.Proofs.Pool.OnePlace

namespace RemoteCall.Pool

variable {config : PoolConfig} {history : List Moment} {p q : Pool} {id : CallId}

/-! ## §1. One step. -/

theorem frames_advance {env : Surroundings} {now : Time} (hdupe : ¬ 0.0 < p.config.dupeCalls)
    (id : CallId) :
    sentFor id (p.advance env now).2 + inQueue id (p.advance env now).1.connections
      ≤ inQueue id p.connections := by
  have hreturns := returns_moveAll (fun _ => [])
    (Connection.returns_advance hdupe env now) p.connections p.ledger id
  have hfree : (p.connections.flatMap fun _ : Connection => ([] : List PendingCall)) = [] := by
    simp
  rw [hfree, occurrences_nil, Nat.add_zero] at hreturns
  -- letting go of connections makes no queue longer
  have hspent : inQueue id (p.advance env now).1.connections
      ≤ inQueue id (moveAll (Connection.advance env p.config now) p.connections p.ledger).1 :=
    inQueue_filter_le _ _
  -- taking leave of the directory sends no call
  have hleft : ∀ cs : List Connection, sentFor id (cs.flatMap (·.leave)) = 0 := by
    refine fun cs => sentFor_of_isQuiet fun effect hmem => ?_
    obtain ⟨c, -, hleave⟩ := List.mem_flatMap.mp hmem
    exact Connection.isQuiet_leave hleave
  have hsent : sentFor id (p.advance env now).2
      = sentFor id (moveAll (Connection.advance env p.config now) p.connections p.ledger).2.2 :=
    (sentFor_append id _ _).trans (by rw [hleft, Nat.add_zero])
  omega

theorem inQueue_cancelIn_le (env : Surroundings) (other : CallId) (cs : List Connection) :
    inQueue id (cancelIn env other cs).1 ≤ inQueue id cs := by
  induction cs with
  | nil => exact Nat.le_refl _
  | cons c rest ih =>
    unfold cancelIn
    split
    · next c' sent hcancel =>
      have hone := Connection.returns_cancel hcancel id
      rw [occurrences_nil] at hone
      dsimp only
      rw [inQueue_cons, inQueue_cons]
      omega
    · dsimp only
      rw [inQueue_cons, inQueue_cons]
      omega

theorem inQueue_modify (key : ConnectionKey) {f : Connection → Connection}
    (hf : ∀ c, (f c).waiting = c.waiting) (p : Pool) :
    inQueue id (p.modify key f).connections = inQueue id p.connections := by
  unfold inQueue modify
  dsimp only
  rw [List.flatMap_map]
  refine congrArg (occurrences id) (List.flatMap_congr fun c _ => ?_)
  split
  · exact hf c
  · rfl

theorem inQueue_withConnection (now : Time) (key : ConnectionKey) (p : Pool) :
    inQueue id (p.withConnection now key).connections = inQueue id p.connections := by
  unfold withConnection
  split
  · rfl
  · exact (inQueue_append id _ _).trans (Nat.add_zero _)

/-- A command adds at most the call that it asks for. -/
theorem inQueue_command {effects : List Effect} (h : Tidy effects p) (env : Surroundings)
    (now : Time) (first : Command) :
    inQueue id (p.command env now first).1.connections
      ≤ inQueue id p.connections
        + (Moment.takenUp? ⟨p, .look env now (.command first)⟩).toList.countP (·.2.id == id) := by
  cases first with
  | call key call =>
    unfold command
    dsimp only
    split
    · -- the call has an outcome already, so it is not queued
      exact Nat.le_add_right _ _
    · -- only the connection of the key grows, and by this call
      obtain ⟨c, hc, rfl⟩ := key_mem_withConnection p now key
      obtain ⟨before, after, hsplit, hmodify⟩ := modify_between (h.withConnection now c.key).keys hc
        (fun c => { c with waiting := c.waiting ++ [call] })
      have hone : [(c.key, call)].countP (·.2.id == id) = occurrences id [call] := by
        unfold occurrences
        rw [List.countP_singleton, List.countP_singleton]
      rw [← inQueue_withConnection now c.key p, hmodify, hsplit, inQueue_append, inQueue_append,
        inQueue_cons, inQueue_cons]
      show _ ≤ _ + [(c.key, call)].countP _
      rw [hone, occurrences_append]
      omega
  | abort other => exact Nat.le_trans (inQueue_cancelIn_le env other _) (Nat.le_add_right _ _)
  | acquire key =>
    refine Nat.le_trans (Nat.le_of_eq ?_) (Nat.le_add_right _ _)
    exact (inQueue_modify key (f := fun c => { c with handles := c.handles + 1 }) (fun _ => rfl)
      _).trans (inQueue_withConnection now key p)
  | release key =>
    refine Nat.le_trans (Nat.le_of_eq ?_) (Nat.le_add_right _ _)
    exact inQueue_modify key (f := fun c => { c with handles := c.handles - 1 }) (fun _ => rfl) _

theorem frames_attend {effects : List Effect} (h : Tidy effects p) {c : Connection}
    (hc : c ∈ p.connections) (first : Notice) (id : CallId) :
    sentFor id (p.attend c first).2 + inQueue id (p.attend c first).1.connections
      ≤ inQueue id p.connections
        + (occurrences id (c.paysForNotice p.config p.ledger first)
          + occurrences id (c.refusedByNotice first)) := by
  have hk : ∀ call ∈ c.calls, p.ledger.knows call.id = true :=
    fun call hcall => h.known (c.key, call) (mem_held.mpr ⟨c, hc, rfl, hcall⟩)
  -- a failure may go either way in `exact`; any will do for the key
  have hlose : ∀ e, (c.lose p.config e p.ledger).connection.key = c.key := fun e =>
    (Connection.conserves_lose p.config e hk : Connection.Conserves True _ _ _ _ _).key
  have hattended := attended p c first
  generalize p.attend c first = stepped at *
  generalize c.paysForNotice p.config p.ledger first = paying at *
  cases hattended with
  | @attached candidates key generation peer link hphase =>
    have hattach : Connection.Returns [] (c.attach peer link).2 c (c.attach peer link).1 := by
      refine Connection.returns_of_waiting_le (fun effect hmem => ?_) fun id => Nat.le_refl _
      rw [List.mem_singleton.mp hmem]
      rfl
    exact Nat.le_trans
      (returns_settle h.keys hc ⟨(c.attach peer link).1, p.ledger, (c.attach peer link).2⟩ rfl
        hattach id)
      (Nat.add_le_add_left (Nat.zero_le _) _)
  | attemptFailed hphase =>
    exact returns_settle h.keys hc _ (hlose _) (Connection.returns_lose p.config _ c p.ledger) id
  | @responded key generation frame =>
    rw [← occurrences_append]
    have hkey : Connection.Conserves True _ _ _ _ _ ∧ _ :=
      Connection.conserves_respond p.config frame (h.numbered c hc) hk
    exact returns_settle h.keys hc _ hkey.1.key
      (Connection.returns_respond p.config frame c p.ledger) id
  | linkFailed hphase =>
    exact returns_settle h.keys hc _ (hlose _) (Connection.returns_lose p.config _ c p.ledger) id
  | dropped =>
    rw [sentFor_of_isQuiet fun effect hmem => isQuiet_dropNotice hmem, Nat.zero_add]
    exact Nat.le_add_right _ _

theorem frames_notice {effects : List Effect} (h : Tidy effects p) (env : Surroundings)
    (first : Notice) (id : CallId) :
    sentFor id (p.notice first).2 + inQueue id (p.notice first).1.connections
      ≤ inQueue id p.connections
        + ((p.pays env (.notice first)).countP (·.2.id == id)
          + occurrences id (p.refusedBy first)) := by
  have hdropped : sentFor id (dropNotice first) + inQueue id p.connections
      ≤ inQueue id p.connections + (0 + 0) := by
    rw [sentFor_of_isQuiet fun effect hmem => isQuiet_dropNotice hmem]
    exact Nat.le_of_eq (Nat.zero_add _)
  unfold notice pays refusedBy
  dsimp only
  cases hc : p.connection? first.key with
  | none => exact hdropped
  | some c =>
    dsimp only
    split
    · rw [occurrences_map_key]
      exact frames_attend h (mem_of_connection? hc).1 first id
    · exact hdropped

theorem frames_directoryChanged (env : Surroundings) (now : Time) (directory : Directory)
    (p : Pool) (id : CallId) :
    sentFor id (p.directoryChanged env now directory).2
        + inQueue id (p.directoryChanged env now directory).1.connections
      ≤ inQueue id p.connections
        + (p.pays env (.directory directory)).countP (·.2.id == id) := by
  -- the keys that `pays` records do not matter for the count
  have hpays : (p.pays env (.directory directory)).countP (·.2.id == id)
      = occurrences id (p.connections.flatMap (Connection.paysForDirectory env)) := by
    unfold pays occurrences
    rw [List.countP_flatMap, List.countP_flatMap]
    congr 1
    refine List.map_congr_left fun c _ => ?_
    exact occurrences_map_key id c.key _
  rw [hpays]
  exact returns_moveAll (Connection.paysForDirectory env)
    (Connection.returns_reconsider env p.config now) p.connections p.ledger id

/-- **Frames, waiting calls, charges and refusals**: one step. -/
theorem frames_after (h : Accounts history p) (hdupe : ¬ 0.0 < p.config.dupeCalls)
    (event : Event) (id : CallId) :
    sentFor id (p.after event).2 + inQueue id (p.after event).1.connections
      ≤ inQueue id p.connections
        + (Moment.takenUp? ⟨p, event⟩).toList.countP (·.2.id == id)
        + ((Moment.paying ⟨p, event⟩).countP (·.2.id == id)
          + occurrences id (Moment.refused ⟨p, event⟩)) := by
  -- most events leave the connections alone and have no effects
  have hsilent : ∀ q : Pool, q.connections = p.connections →
      sentFor id [] + inQueue id q.connections ≤ inQueue id p.connections + 0 + (0 + 0) := by
    intro q hconnections
    rw [hconnections]
    exact Nat.le_of_eq (Nat.zero_add _)
  cases event with
  | send command =>
    refine hsilent _ ?_
    show (p.send command).1.connections = _
    unfold Pool.send
    split <;> rfl
  | advance env now => exact frames_advance hdupe id
  | look env now subject =>
    cases subject with
    | stop =>
      -- nothing is left in the queues of a pool that stops
      have hsent : sentFor id p.teardown.2 = 0 :=
        sentFor_of_isQuiet fun effect hmem => isQuiet_teardown hmem
      show sentFor id p.teardown.2 + 0 ≤ _
      rw [hsent]
      exact Nat.zero_le _
    | command first =>
      have htidy : Tidy (effectsOf history) { p with commands := p.commands.tail } :=
        ⟨h.tidy.keys, h.tidy.known, h.tidy.numbered⟩
      have hsent : sentFor id (p.after (.look env now (.command first))).2 = 0 :=
        sentFor_of_isQuiet fun effect hmem => isQuiet_look hmem
      rw [hsent, Nat.zero_add]
      exact inQueue_command htidy env now first
    | notice first =>
      have htidy : Tidy (effectsOf history) { p with notices := p.notices.tail } :=
        ⟨h.tidy.keys, h.tidy.known, h.tidy.numbered⟩
      exact frames_notice htidy env first id
    | directory directory => exact frames_directoryChanged env now directory p id
    | timer => exact hsilent p rfl
  | _ => exact hsilent _ rfl

/-! ## §2. All steps. -/

/-- How often a call has been refused. -/
def refusalsOf (history : List Moment) (id : CallId) : Nat :=
  history.countP fun m => m.refused.any (·.id == id)

theorem refusalsOf_concat (history : List Moment) (m : Moment) (id : CallId) :
    refusalsOf (history ++ [m]) id
      = refusalsOf history id + if m.refused.any (·.id == id) then 1 else 0 := by
  unfold refusalsOf
  rw [List.countP_append, List.countP_singleton]

/-- A response gives back one call at most. -/
theorem occurrences_refused (m : Moment) (id : CallId) :
    occurrences id m.refused ≤ if m.refused.any (·.id == id) then 1 else 0 := by
  have hshort : m.refused.length ≤ 1 := by
    unfold Moment.refused refusedBy Connection.refusedByNotice Connection.refusedBy
    repeat' split
    all_goals simp
  split
  · exact Nat.le_trans List.countP_le_length hshort
  · next hany =>
    refine Nat.le_of_eq (List.countP_eq_zero.mpr fun call hmem hid => hany ?_)
    exact List.any_eq_true.mpr ⟨call, hmem, hid⟩

/-- An open call is charged once at most in one step. -/
theorem Accounts.countP_paying (h : Accounts history p) {event : Event}
    (hadmits : p.Admits history event) (hopen : (p.after event).1.ledger.isOpen id = true) :
    (Moment.paying ⟨p, event⟩).countP (·.2.id == id)
      ≤ if (stillOpen p.ledger (Moment.paying ⟨p, event⟩)).any (·.2.id == id) then 1 else 0 := by
  have hbalances := h.balances hadmits
  -- those that pay are among the calls held before, and these have distinct numbers
  obtain ⟨others, hold, -⟩ := hbalances.split
  have hbefore := h.nodup_adopted hadmits hbalances.grows
  have hids := ((stillOpen_perm (p.after event).1.ledger hold).map
    (fun x : ConnectionKey × PendingCall => x.2.id)).nodup hbefore
  rw [stillOpen_append, List.map_append] at hids
  have hdistinct := (List.nodup_append.mp hids).1
  have hopen' := hbalances.grows.isOpen hopen
  generalize Moment.paying ⟨p, event⟩ = paying at *
  split
  · -- `id` is open, so nothing of it is lost in the open part of the payers
    have hselect : paying.countP (·.2.id == id)
        = ((stillOpen (p.after event).1.ledger paying).map (·.2.id)).count id := by
      unfold stillOpen
      rw [List.count, List.countP_map, List.countP_filter]
      apply List.countP_congr
      intro x _
      rw [Function.comp_apply, Bool.and_eq_true]
      refine ⟨fun hid => ⟨hid, ?_⟩, fun hid => hid.1⟩
      rw [show x.2.id = id by simpa using hid]
      exact hopen
    rw [hselect]
    exact List.nodup_iff_count_le_one.mp hdistinct id
  · next hany =>
    refine Nat.le_of_eq (List.countP_eq_zero.mpr fun x hmem hid => hany ?_)
    refine List.any_eq_true.mpr ⟨x, mem_stillOpen.mpr ⟨hmem, ?_⟩, hid⟩
    rw [show x.2.id = id by simpa using hid]
    exact hopen'

/-- **An open call** has been sent once, once more for each charge, and once more for each refusal,
unless it waits. -/
theorem Run.sent_of_open (run : Run config history p) (hdupe : ¬ 0.0 < config.dupeCalls)
    (hopen : p.ledger.isOpen id = true) :
    sentFor id (effectsOf history) + inQueue id p.connections
      ≤ (takenUp history).countP (·.2.id == id) + chargesOf history id + refusalsOf history id := by
  induction run with
  | start h =>
    rw [eq_of_new h]
    exact Nat.zero_le _
  | @next history p run event hadmits ih =>
    have h := run.accounts
    have hframes := frames_after h (run.config_eq ▸ hdupe) event id
    have hcharged := h.countP_paying hadmits hopen
    have hrefused := occurrences_refused ⟨p, event⟩ id
    -- a call that is open now was open before
    have hbefore := ih ((h.balances hadmits).grows.isOpen hopen)
    have hcharges := chargesOf_concat history ⟨p, event⟩ id
    have hrefusals := refusalsOf_concat history ⟨p, event⟩ id
    dsimp only at hcharges
    rw [effectsOf_concat, sentFor_append, takenUp_concat, List.countP_append, hcharges, hrefusals]
    show _ + sentFor id (p.after event).2 + _ ≤ _
    omega

/-- Only by doing what is due does the pool send a call. -/
theorem eq_advance_of_isCall {event : Event} {effect : Effect} (hmem : effect ∈ (p.after event).2)
    (hcall : effect.isCall = true) : ∃ env now, event = .advance env now := by
  cases event with
  | advance env now => exact ⟨env, now, rfl⟩
  | look env now subject =>
    rw [Effect.isCall_of_isQuiet (isQuiet_look hmem)] at hcall
    cases hcall
  | _ => exact absurd hmem (List.not_mem_nil)

/-- **Every call** is sent once, once more for each retry that the budget allows, and once more for
each refusal. -/
theorem Run.sent_le (run : Run config history p) (hlimit : config.callRetries.toNat < 2 ^ 32 - 1)
    (hdupe : ¬ 0.0 < config.dupeCalls) (id : CallId) :
    sentFor id (effectsOf history) ≤ config.callRetries.toNat + 1 + refusalsOf history id := by
  induction run with
  | start _ => exact Nat.zero_le _
  | @next history p run event hadmits ih =>
    have h := run.accounts
    by_cases hsent : sentFor id (p.after event).2 = 0
    · rw [effectsOf_concat, sentFor_append, refusalsOf_concat]
      show _ + sentFor id (p.after event).2 ≤ _
      omega
    · obtain ⟨effect, hmem, hid⟩ := List.countP_pos_iff.mp (Nat.pos_of_ne_zero hsent)
      have hcall : effect.isCall = true := by
        cases effect with
        | send link call frame taken =>
          have hall : (call.id == id && frame.kind == .call && taken) = true := hid
          rw [Bool.and_eq_true, Bool.and_eq_true] at hall
          exact hall.1.2
        | _ => cases hid
      -- a call that is sent is held and open, so its counter says how often it has been charged
      obtain ⟨x, hx, hopen, link, n, taken, rfl⟩ := h.of_mem_effects hmem hcall
      rw [Effect.isSent_call, Bool.and_eq_true] at hid
      obtain rfl : x.2.id = id := by simpa using hid.1
      rw [← Ledger.isOpen_iff] at hopen
      obtain ⟨hcount, hle⟩ := run.metered hlimit x
        (mem_stillOpen.mpr ⟨hx, (h.balances hadmits).grows.isOpen hopen⟩)
      rw [UInt32.le_iff_toNat_le] at hle
      -- no call is charged while calls are sent
      obtain ⟨env, now, rfl⟩ := eq_advance_of_isCall hmem hcall
      have hcharges : chargesOf (history ++ [⟨p, .advance env now⟩]) x.2.id
          = chargesOf history x.2.id :=
        chargesOf_concat history ⟨p, .advance env now⟩ x.2.id
      have hnext := run.next (.advance env now) hadmits
      have honce := List.nodup_iff_count_le_one.mp hnext.accounts.queue.takenUp_nodup x.2.id
      rw [List.count, List.countP_map] at honce
      have hall := hnext.sent_of_open hdupe hopen
      have hsame : (takenUp (history ++ [⟨p, .advance env now⟩])).countP (·.2.id == x.2.id) ≤ 1 :=
        honce
      omega

/-! ## §3. The budget. -/

/-- What the retry budget of a pool comes to, for a run that has led to `p`. -/
structure RetryBudget (config : PoolConfig) (history : List Moment) (p : Pool) : Prop where
  /-- The counter of an open call never exceeds the budget, and counts the charges. -/
  within : ∀ x ∈ held p.connections, p.ledger.isFinished x.2.id = false →
    x.2.retries ≤ config.callRetries ∧ x.2.retries.toNat = chargesOf history x.2.id
  /-- It grows by exactly one on a charge, and only then. -/
  counter : ∀ m ∈ history, ∀ x ∈ held m.before.connections, ∀ y ∈ held m.after.connections,
    y.2.id = x.2.id → m.after.ledger.isFinished x.2.id = false →
    (∃ e, Charges m.before m.event x e) ∧ y.2.retries.toNat = x.2.retries.toNat + 1
      ∨ (∀ e, ¬ Charges m.before m.event x e) ∧ y.2.retries = x.2.retries
  /-- A refusal is no charge. -/
  refusal : ∀ m ∈ history, ∀ x, x.2 ∈ m.refused → ∀ e, ¬ Charges m.before m.event x e
  /-- Neither is a change of the directory during an attempt. -/
  restart : ∀ m ∈ history, ∀ c ∈ m.before.connections, ∀ candidates,
    c.phase = .connecting candidates → ∀ env now directory,
    m.event = .look env now (.directory directory) →
    ∀ call e, ¬ Charges m.before m.event (c.key, call) e
  /-- Neither is the loss of a link on which the call still waits, nor anything else. -/
  waiting : ∀ m ∈ history, ∀ c ∈ m.before.connections, ∀ live, c.phase = .connected live →
    ∀ call ∈ c.waiting, m.before.ledger.isFinished call.id = false →
    ∀ e, ¬ Charges m.before m.event (c.key, call) e
  /-- A call is sent once, once more for each retry, and once more for each refusal. -/
  sent : ∀ id,
    sentFor id (effectsOf history) ≤ config.callRetries.toNat + 1 + refusalsOf history id
  /-- A failure of the transport becomes an outcome only when the call is charged for it and has
  been charged as often as the budget allows. -/
  outcome : ∀ earlier m later, history = earlier ++ m :: later →
    ∀ id ∈ (askedFor earlier).map (·.2.id), m.before.ledger.isFinished id = false →
    ∀ e, m.after.ledger.failure? id = some e → e.isTransport = true →
    chargesOf earlier id = config.callRetries.toNat
      ∧ ∃ x, x.2.id = id ∧ Charges m.before m.event x e

/-- Connections with the same key are the same. -/
theorem Tidy.eq_of_key_eq {effects : List Effect} (h : Tidy effects p) {c d : Connection}
    (hc : c ∈ p.connections) (hd : d ∈ p.connections) (hkey : c.key = d.key) : c = d :=
  List.inj_on_of_nodup_map h.keys hc hd hkey

theorem refused_notice {env : Surroundings} {now : Time} (first : Notice) {c : Connection}
    (hc : p.connection? first.key = some c) (hgeneration : c.generation = first.generation) :
    Moment.refused ⟨p, .look env now (.notice first)⟩ = c.refusedByNotice first := by
  unfold Moment.refused refusedBy
  dsimp only
  rw [hc]
  exact if_pos hgeneration

/-- **A refusal is no charge.** -/
theorem not_charges_of_refused {event : Event} {x : ConnectionKey × PendingCall}
    (hx : x.2 ∈ Moment.refused ⟨p, event⟩) (e : Failure) : ¬ Charges p event x e := by
  intro h
  cases h with
  | @attempt env now key c e candidates call hc =>
    rw [refused_notice (.connectFailed key c.generation e) hc rfl] at hx
    exact absurd hx (List.not_mem_nil)
  | @link env now key c e live call hc =>
    rw [refused_notice (.failed key c.generation e) hc rfl] at hx
    exact absurd hx (List.not_mem_nil)
  | withdrawal => exact absurd hx (List.not_mem_nil)
  | @unreadable env now key c e live frame call payload hc hphase hdisc hat hresult =>
    have hnone : c.refusedBy frame = [] := by
      unfold Connection.refusedBy
      rw [hphase]
      dsimp only
      rw [hdisc, hat, hresult]
      rfl
    rw [refused_notice (.response key c.generation frame) hc rfl] at hx
    rw [show c.refusedByNotice (.response key c.generation frame) = [] from hnone] at hx
    exact absurd hx (List.not_mem_nil)

/-- A call that waits on a link is not in flight on it. -/
theorem Accounts.not_in_flight (h : Accounts history p) {c : Connection}
    (hc : c ∈ p.connections) {live : Live} (hphase : c.phase = .connected live)
    {call : PendingCall} (hwaiting : call ∈ c.waiting)
    (hopen : p.ledger.isOpen call.id = true) : call ∉ live.calls := by
  intro hflight
  obtain ⟨before, after, hsplit⟩ := List.append_of_mem hc
  have hnodup := h.held_nodup
  rw [hsplit, held_append, held_cons, stillOpen_append, stillOpen_append, List.map_append,
    List.map_append, Connection.calls_of_connected hphase, List.map_append, stillOpen_append,
    List.map_append] at hnodup
  have hown := (List.nodup_append.mp (List.nodup_append.mp hnodup).2.1).1
  have hboth : ∀ calls : List PendingCall, call ∈ calls →
      call.id ∈ (stillOpen p.ledger (calls.map (c.key, ·))).map (·.2.id) := fun calls hmem =>
    List.mem_map.mpr ⟨(c.key, call), mem_stillOpen.mpr ⟨List.mem_map_of_mem hmem, hopen⟩, rfl⟩
  exact (List.nodup_append.mp hown).2.2 _ (hboth _ hflight) _ (hboth _ hwaiting) rfl

/-- **A call that waits on a link is never charged.** -/
theorem Accounts.not_charges_of_waiting (h : Accounts history p) {c : Connection}
    (hc : c ∈ p.connections) {live : Live} (hphase : c.phase = .connected live)
    {call : PendingCall} (hwaiting : call ∈ c.waiting)
    (hopen : p.ledger.isOpen call.id = true) (event : Event) (e : Failure) :
    ¬ Charges p event (c.key, call) e := by
  have hflight := h.not_in_flight hc hphase hwaiting hopen
  have hsame : ∀ {d : Connection} {other : Live}, d ∈ p.connections → d.key = c.key →
      d.phase = .connected other → other = live := by
    intro d other hd hkey hother
    rw [h.tidy.eq_of_key_eq hd hc hkey, hphase] at hother
    exact (Phase.connected.inj hother).symm
  intro hcharges
  generalize hx : (c.key, call) = x at hcharges
  cases hcharges with
  | attempt hd hconnecting =>
    obtain ⟨hkey, -⟩ := Prod.mk.inj hx
    obtain ⟨hmem, hdkey⟩ := mem_of_connection? hd
    rw [h.tidy.eq_of_key_eq hmem hc (hdkey.trans hkey.symm), hphase] at hconnecting
    cases hconnecting
  | link hd hother _ _ hcall =>
    obtain ⟨hkey, rfl⟩ := Prod.mk.inj hx
    obtain ⟨hmem, hdkey⟩ := mem_of_connection? hd
    exact hflight (hsame hmem (hdkey.trans hkey.symm) hother ▸ hcall)
  | withdrawal hd hother _ hcall =>
    obtain ⟨hkey, rfl⟩ := Prod.mk.inj hx
    exact hflight (hsame hd hkey.symm hother ▸ hcall)
  | unreadable hd hother _ hat =>
    obtain ⟨hkey, rfl⟩ := Prod.mk.inj hx
    obtain ⟨hmem, hdkey⟩ := mem_of_connection? hd
    have hcall := List.mem_map_of_mem (f := Prod.snd) (Connection.mem_of_callAt? hat)
    exact hflight (hsame hmem (hdkey.trans hkey.symm) hother ▸ hcall)

/-- **A change of the directory during an attempt is no charge.** -/
theorem Tidy.not_charges_of_restart {effects : List Effect} (h : Tidy effects p) {c : Connection}
    (hc : c ∈ p.connections) {candidates : List PeerName}
    (hphase : c.phase = .connecting candidates) (env : Surroundings) (now : Time)
    (directory : Directory) (call : PendingCall) (e : Failure) :
    ¬ Charges p (.look env now (.directory directory)) (c.key, call) e := by
  intro hcharges
  generalize hx : (c.key, call) = x at hcharges
  cases hcharges with
  | withdrawal hd hother =>
    obtain ⟨hkey, -⟩ := Prod.mk.inj hx
    rw [h.eq_of_key_eq hd hc hkey.symm, hphase] at hother
    cases hother

/-- A failure of the transport is the last charge. -/
theorem Run.last_charge (run : Run config history p)
    (hlimit : config.callRetries.toNat < 2 ^ 32 - 1) {event : Event}
    (hadmits : p.Admits history event) (hid : id ∈ (askedFor history).map (·.2.id))
    (hopen : p.ledger.isOpen id = true) {e : Failure}
    (hfail : (p.after event).1.ledger.failure? id = some e) (he : e.isTransport = true) :
    chargesOf history id = config.callRetries.toNat ∧ ∃ x, x.2.id = id ∧ Charges p event x e := by
  obtain ⟨x, hcharges, rfl, hspent⟩ := (charged_of_transport hadmits).only hopen hfail he hid
  obtain ⟨hcount, hle⟩ := run.metered hlimit x
    (mem_stillOpen.mpr ⟨mem_held_of_charges hcharges, hopen⟩)
  refine ⟨?_, x, rfl, hcharges⟩
  rw [run.config_eq, UInt32.lt_iff_toNat_lt, UInt32.toNat_add, UInt32.toNat_one] at hspent
  rw [UInt32.le_iff_toNat_le] at hle
  rw [← hcount]
  omega

/-- **The retry budget of a pool**, in every run. -/
theorem retry_budget (run : Run config history p)
    (hlimit : config.callRetries.toNat < 2 ^ 32 - 1) (hdupe : ¬ 0.0 < config.dupeCalls) :
    RetryBudget config history p := by
  refine ⟨?_, ?_, ?_, ?_, ?_, ?_, ?_⟩
  · intro x hx hopen
    obtain ⟨hcount, hle⟩ := run.metered hlimit x
      (mem_stillOpen.mpr ⟨hx, Ledger.isOpen_iff.mpr hopen⟩)
    exact ⟨hle, hcount⟩
  · intro m hm x hx y hy hid hopen
    obtain ⟨earlier, later, hsplit⟩ := List.append_of_mem hm
    obtain ⟨hrun, hadmits⟩ := run.at_split hsplit
    have h := hrun.accounts
    have hafter := Ledger.isOpen_iff.mpr hopen
    rcases h.counter hadmits hx hy hid hafter with ⟨hcharges, rfl⟩ | ⟨hfree, rfl⟩
    · refine .inl ⟨hcharges, ?_⟩
      have hle := (hrun.metered hlimit x (mem_stillOpen.mpr
        ⟨hx, (h.balances hadmits).grows.isOpen hafter⟩)).2
      rw [UInt32.le_iff_toNat_le] at hle
      show (x.2.retries + 1).toNat = _
      rw [UInt32.toNat_add, UInt32.toNat_one]
      omega
    · exact .inr ⟨hfree, rfl⟩
  · exact fun m _ x hx e => not_charges_of_refused hx e
  · intro m hm c hc candidates hphase env now directory hevent call e
    obtain ⟨earlier, later, hsplit⟩ := List.append_of_mem hm
    obtain ⟨hrun, -⟩ := run.at_split hsplit
    rw [hevent]
    exact hrun.accounts.tidy.not_charges_of_restart hc hphase env now directory call e
  · intro m hm c hc live hphase call hwaiting hopen e
    obtain ⟨earlier, later, hsplit⟩ := List.append_of_mem hm
    obtain ⟨hrun, -⟩ := run.at_split hsplit
    exact hrun.accounts.not_charges_of_waiting hc hphase hwaiting (Ledger.isOpen_iff.mpr hopen)
      m.event e
  · exact run.sent_le hlimit hdupe
  · intro earlier m later hsplit id hid hopen e hfail he
    obtain ⟨hrun, hadmits⟩ := run.at_split hsplit
    exact hrun.last_charge hlimit hadmits hid (Ledger.isOpen_iff.mpr hopen) hfail he

/-- Two attempts fail, and the budget is one: the second failure is the outcome. -/
theorem retry_budget_when_spent :
    ∃ (history : List Moment) (p : Pool), Run { callRetries := 1 } history p
      ∧ RetryBudget { callRetries := 1 } history p
      ∧ chargesOf history oneCall.id = 2
      ∧ p.ledger.failure? oneCall.id = some (.connectionFailed "again") := by
  have start : Run { callRetries := 1 } []
      { config := { callRetries := 1 }, subscription := ⟨0⟩ } :=
    Run.start (show Pool.new { callRetries := 1 } {} = _ from rfl)
  have asked := (start.next (.issue .unit) trivial).next (.send (.call oneAgent oneCall))
    ⟨by decide, by decide, rfl⟩
  have sought := (asked.next (.look oneAddress 0 (.command (.call oneAgent oneCall)))
    ⟨rfl, rfl⟩).next (.advance oneAddress 0) trivial
  have once := (sought.next (.report (.connectFailed oneAgent 1 (.connectionFailed "first")))
    trivial).next (.look oneAddress 0
      (.notice (.connectFailed oneAgent 1 (.connectionFailed "first")))) ⟨rfl, rfl⟩
  have again := (once.next (.advance oneAddress 0) trivial).next (.advance oneAddress 200) trivial
  have twice := (again.next (.report (.connectFailed oneAgent 2 (.connectionFailed "again")))
    trivial).next (.look oneAddress 200
      (.notice (.connectFailed oneAgent 2 (.connectionFailed "again")))) ⟨rfl, rfl⟩
  exact ⟨_, _, twice, retry_budget twice (by decide) (by decide), rfl, rfl⟩

end RemoteCall.Pool
