/-
  RemoteCall.Proofs.Pool.Verdicts
  ───────────────────────────────
  **WHICH FAILURES BECOME OUTCOMES.**

  A failure becomes the outcome of a call for one of few reasons
  (`Pool.Verdict`):

      a caller or an observer     any failure
      stopping                    the pool is gone
      a timer                     a deadline has come
      an attempt, a link, a peer  the call is charged and its budget is spent
      a peer at fault             the fault, for all in flight
      a response                  what it reports, or that it cannot be read

  So a failure of the transport is recorded only where the call is charged for
  it and cannot pay.

  Main statements:
    • `Ledger.records_chargeAll`        — charging several calls,
    • `Connection.records_lose`, `Connection.records_respond` — one connection,
    • `Pool.records_after`              — the whole pool,
    • `Pool.charged_of_transport`       — failures of the transport,
    • `Pool.budget_of_charges`          — what is charged and stays open can pay.
-/
import RemoteCall.Proofs.Pool.Charging

namespace RemoteCall

namespace Ledger

variable {P Q : CallId → Failure → Prop} {l l' l'' : Ledger}

/-! ## §1. What is recorded. -/

theorem failure?_of_isOpen {id : CallId} (h : l.isOpen id = true) : l.failure? id = none := by
  cases hf : l.failure? id with
  | none => rfl
  | some e =>
    unfold isOpen at h
    rw [isFinished_of_failure? hf] at h
    exact absurd h (by simp)

theorem failure?_of_get?_eq {id : CallId} (h : l'.get? id = l.get? id) :
    l'.failure? id = l.failure? id := by
  unfold failure?
  rw [h]

/-- From `l` to `l'`, failures have been recorded that `P` allows, and no other outcomes. -/
structure Tells (P : CallId → Failure → Prop) (l l' : Ledger) : Prop where
  grows : l.Grows l'
  told : ∀ {id}, l.isFinished id = false → l'.isFinished id = true →
    ∃ e, l'.failure? id = some e ∧ P id e

theorem Tells.refl (l : Ledger) : Tells P l l := by
  refine ⟨Grows.refl l, fun hopen hfin => ?_⟩
  rw [hopen] at hfin
  cases hfin

theorem Tells.trans (h : Tells P l l') (h' : Tells P l' l'') : Tells P l l'' := by
  refine ⟨h.grows.trans h'.grows, fun {id} hopen hfin => ?_⟩
  cases hfin' : l'.isFinished id with
  | false => exact h'.told hfin' hfin
  | true =>
    obtain ⟨e, hfail, he⟩ := h.told hopen hfin'
    rw [← failure?_of_get?_eq (h'.grows.get?_of_isFinished hfin')] at hfail
    exact ⟨e, hfail, he⟩

theorem Tells.mono (h : Tells P l l') (himp : ∀ {id e}, P id e → Q id e) : Tells Q l l' :=
  ⟨h.grows, fun hopen hfin => (h.told hopen hfin).imp fun _ hfail => hfail.imp_right himp⟩

theorem tells_fail {id : CallId} {e : Failure} (h : P id e) (l : Ledger) :
    Tells P l (l.fail id e) := by
  refine ⟨grows_fail l id e, fun {other} hopen hfin => ?_⟩
  by_cases hid : other = id
  · subst hid
    cases hk : l.knows other with
    | true => exact ⟨e, failure?_fail hk (isOpen_iff.mpr hopen) e, h⟩
    | false =>
      -- a call that is not known records nothing
      have hnone : l.get? other = none := by simpa [knows] using hk
      rw [fail, update_of_get?_eq_none hnone, hopen] at hfin
      cases hfin
  · rw [isFinished_eq, get?_fail_of_ne l hid, ← isFinished_eq, hopen] at hfin
    cases hfin

/-- The entries of other calls stay when a slot is opened. -/
theorem get?_issue_of_ne (l : Ledger) {new id : CallId} (h : id ≠ new) (shape : Payload.Shape) :
    (l.issue new shape).get? id = l.get? id := by
  unfold get? issue
  rw [List.find?_append]
  have hother : ([(new, (⟨shape, {}⟩ : Entry))].find? (·.1 == id)) = none := by
    simpa using Ne.symm h
  rw [hother, Option.or_none]

/-- A new slot is empty. -/
theorem isFinished_issue (l : Ledger) (new : CallId) (shape : Payload.Shape) (id : CallId) :
    (l.issue new shape).isFinished id = l.isFinished id := by
  by_cases h : id = new
  · subst h
    unfold isFinished get? issue
    rw [List.find?_append]
    cases l.entries.find? (·.1 == id) with
    | some _ => rfl
    | none =>
      rw [Option.none_or, List.find?_cons_of_pos (by simp)]
      rfl
  · rw [isFinished_eq, get?_issue_of_ne l h, ← isFinished_eq]

theorem tells_issue (l : Ledger) (new : CallId) (shape : Payload.Shape) :
    Tells P l (l.issue new shape) := by
  refine ⟨grows_issue l new shape, fun hopen hfin => ?_⟩
  rw [isFinished_issue, hopen] at hfin
  cases hfin

/-- From `l` to `l'`, failures have been recorded only where `P` allows them. -/
structure Records (P : CallId → Failure → Prop) (l l' : Ledger) : Prop where
  grows : l.Grows l'
  only : ∀ {id e}, l.isOpen id = true → l'.failure? id = some e → P id e

theorem Tells.records (h : Tells P l l') : Records P l l' := by
  refine ⟨h.grows, fun {id e} hopen hfail => ?_⟩
  obtain ⟨told, htold, hallowed⟩ := h.told (isOpen_iff.mp hopen) (isFinished_of_failure? hfail)
  rw [hfail] at htold
  cases htold
  exact hallowed

theorem Records.refl (l : Ledger) : Records P l l :=
  (Tells.refl l).records

theorem Records.trans (h : Records P l l') (h' : Records P l' l'') : Records P l l'' := by
  refine ⟨h.grows.trans h'.grows, fun {id e} hopen hfail => ?_⟩
  cases hopen' : l'.isOpen id with
  | true => exact h'.only hopen' hfail
  | false =>
    have hfin : l'.isFinished id = true := by
      unfold isOpen at hopen'
      simpa using hopen'
    rw [failure?_of_get?_eq (h'.grows.get?_of_isFinished hfin)] at hfail
    exact h.only hopen hfail

theorem records_fail {id : CallId} {e : Failure} (h : P id e) (l : Ledger) :
    Records P l (l.fail id e) :=
  (tells_fail h l).records

theorem records_failAll {ids : List CallId} {e : Failure} (h : ∀ id ∈ ids, P id e) (l : Ledger) :
    Records P l (l.failAll ids e) := by
  induction ids generalizing l with
  | nil => exact Records.refl l
  | cons id ids ih =>
    exact (records_fail (h id List.mem_cons_self) l).trans
      (ih (fun other hmem => h other (List.mem_cons_of_mem _ hmem)) _)

/-- **Charging several calls** records the failure for those whose budget is spent. -/
theorem records_chargeAll {limit : UInt32} {e : Failure} {calls : List PendingCall}
    (h : ∀ call ∈ calls, limit < call.retries + 1 → P call.id e) (l : Ledger) :
    Records P l (chargeAll limit e calls l).2 := by
  induction calls generalizing l with
  | nil => exact Records.refl l
  | cons call rest ih =>
    have hrest : ∀ other ∈ rest, limit < other.retries + 1 → P other.id e :=
      fun other hmem => h other (List.mem_cons_of_mem _ hmem)
    unfold chargeAll
    split
    · exact ih hrest l
    · split
      · next hspent =>
        exact (records_fail (h call List.mem_cons_self hspent) l).trans (ih hrest _)
      · exact ih hrest l

/-- A response that is delivered is no failure. -/
theorem records_deliver (l : Ledger) (id : CallId) (payload : Bytes) :
    Records P l (l.deliver id payload).1 := by
  refine ⟨grows_deliver l id payload, fun {other e} hopen hfail => ?_⟩
  by_cases hid : other = id
  · subst hid
    unfold deliver at hfail
    cases hget : l.get? other with
    | none =>
      rw [hget, failure?_of_isOpen hopen] at hfail
      cases hfail
    | some entry =>
      have hnone : entry.slot.outcome = none := by
        unfold isOpen at hopen
        rw [isFinished_eq, hget] at hopen
        simpa [Slot.isFinished] using hopen
      rw [hget] at hfail
      dsimp only at hfail
      unfold failure? at hfail
      rw [get?_update_self, hget] at hfail
      have hempty : (Entry.afterDelivery payload entry).failure? = none := by
        unfold Entry.afterDelivery Entry.failure? Slot.deliver
        cases Payload.decode entry.shape payload with
        | ok v => simp [Slot.settle_of_none hnone]
        | error e => simp [hnone]
      rw [Option.map_some, Option.bind_some, hempty] at hfail
      cases hfail
  · rw [failure?_of_get?_eq (get?_deliver_of_ne l hid payload), failure?_of_isOpen hopen] at hfail
    cases hfail

/-! ## §2. What is to blame. -/

/-- From `l` to `l'`, failures of the transport have been recorded only for calls that `P` allows
them for. -/
structure Blames (P : CallId → Failure → Prop) (l l' : Ledger) : Prop where
  grows : l.Grows l'
  only : ∀ {id e}, l.isOpen id = true → l'.failure? id = some e → e.isTransport = true → P id e

theorem Records.blames (h : Records Q l l')
    (himp : ∀ {id e}, Q id e → e.isTransport = true → P id e) : Blames P l l' :=
  ⟨h.grows, fun hopen hfail => himp (h.only hopen hfail)⟩

theorem isFinished_eq_false_of_grows (h : l.Grows l') {id : CallId}
    (hopen : l'.isFinished id = false) : l.isFinished id = false := by
  cases hfin : l.isFinished id with
  | false => rfl
  | true => rw [h.isFinished hfin] at hopen; cases hopen

theorem succ_le_of_lt {n limit : UInt32} (h : n < limit) : n + 1 ≤ limit := by
  rw [UInt32.lt_iff_toNat_lt] at h
  rw [UInt32.le_iff_toNat_le, UInt32.toNat_add, UInt32.toNat_one]
  have := limit.toNat_lt
  omega

/-- A call that is charged and stays open can pay. -/
theorem budget_of_mem_chargeAll {limit : UInt32} {e : Failure} {calls : List PendingCall}
    {l : Ledger} (hk : ∀ call ∈ calls, l.knows call.id = true) {call : PendingCall}
    (hmem : call ∈ calls) (hopen : (chargeAll limit e calls l).2.isFinished call.id = false) :
    call.retries + 1 ≤ limit := by
  induction calls generalizing l with
  | nil => exact absurd hmem (List.not_mem_nil)
  | cons first rest ih =>
    have hrest : ∀ other ∈ rest, l.knows other.id = true :=
      fun other h => hk other (List.mem_cons_of_mem _ h)
    have hcontra : ∀ {l' : Ledger}, l'.isFinished first.id = true →
        (chargeAll limit e rest l').2.isFinished call.id = false → call ≠ first := by
      rintro l' hfin hstill rfl
      rw [(grows_chargeAll limit e rest l').isFinished hfin] at hstill
      exact absurd hstill (by simp)
    unfold chargeAll at hopen
    split at hopen
    · next hfin =>
      have hne := hcontra hfin hopen
      exact ih hrest ((List.mem_cons.mp hmem).resolve_left hne) hopen
    · split at hopen
      · have hfin := isFinished_fail_of_knows (hk first List.mem_cons_self) e
        have hne := hcontra hfin hopen
        exact ih (fun other h => (grows_fail l first.id e).knows (hrest other h))
          ((List.mem_cons.mp hmem).resolve_left hne) hopen
      · next hbudget =>
        rcases List.mem_cons.mp hmem with rfl | hmem
        · exact UInt32.not_lt.mp hbudget
        · exact ih hrest hmem hopen

end Ledger

theorem Failure.isTransport_of_fault {e : Failure}
    (h : (e.isProtocol || e.isVersionRejection) = true) : e.isTransport = false := by
  cases e <;> first | rfl | (exact absurd h (by simp [isProtocol, isVersionRejection]))

/-- A response reports what the agent says, unless it cannot be read. -/
theorem ResponseFrame.result_eq_error {frame : ResponseFrame} {e : Failure}
    (h : frame.result = .error e) :
    (∃ detail, e = .invalidMessage detail) ∨ ∃ code message, e = .remote code message := by
  unfold result at h
  split at h
  · cases h
  · split at h <;> cases h
    · exact .inl ⟨_, rfl⟩
    · exact .inr ⟨_, _, rfl⟩

/-- A payload that is refused cannot be read. -/
theorem Ledger.eq_decode_of_deliver {l : Ledger} {id : CallId} {payload : Bytes} {e : Failure}
    (h : (l.deliver id payload).2 = .error e) : ∃ detail, e = .decode detail := by
  unfold deliver at h
  split at h
  · cases h
  · next entry _ =>
    have hdeliver : (entry.slot.deliver (Payload.decode entry.shape) payload).2 = .error e := h
    unfold Slot.deliver at hdeliver
    split at hdeliver
    · cases hdeliver
    · next hdecode =>
      cases hdeliver
      exact Payload.decode_eq_error hdecode

namespace Connection

variable {P : CallId → Failure → Prop} {env : Surroundings} {config : PoolConfig} {now : Time}
  {c : Connection}

/-! ## §3. One connection. -/

/-- **A timer** records that deadlines have come. -/
theorem records_expire (h : ∀ call ∈ c.calls, call.isExpired now = true → P call.id .timeout)
    (l : Ledger) : Ledger.Records P l (c.expire env now l).ledger := by
  rw [ledger_expire]
  refine Ledger.records_failAll (fun id hid => ?_) l
  obtain ⟨call, hcall, rfl⟩ := List.mem_map.mp hid
  obtain ⟨hmem, hexpired⟩ := List.mem_filter.mp hcall
  exact h call (List.perm_append_comm.subset hmem) hexpired

/-- **A failure** is recorded for those that are charged for it and whose budget is spent, and a
fault for all in flight. -/
theorem records_lose {e : Failure}
    (hpays : ∀ call ∈ c.paysForLoss e, config.callRetries < call.retries + 1 → P call.id e)
    (hfault : (e.isProtocol || e.isVersionRejection) = true → ∀ call ∈ c.inFlight, P call.id e)
    (l : Ledger) : Ledger.Records P l (c.lose config e l).ledger := by
  cases hlive? : c.live? with
  | none =>
    rw [lose_attempt hlive?]
    rw [paysForLoss_of_live?_eq_none hlive?] at hpays
    exact Ledger.records_chargeAll hpays l
  | some live =>
    have hlive := phase_of_live? hlive?
    cases he : e.isProtocol || e.isVersionRejection with
    | true =>
      rw [lose_at_fault hlive he]
      refine Ledger.records_failAll (fun id hid => ?_) l
      obtain ⟨call, hcall, rfl⟩ := List.mem_map.mp hid
      exact hfault he call (c.inFlightByAge_perm.subset hcall)
    | false =>
      rw [lose_link hlive he]
      rw [paysForLoss_of_connected hlive, if_neg (by simp [he])] at hpays
      exact Ledger.records_chargeAll
        (fun call hmem => hpays call (c.inFlightByAge_perm.subset hmem)) l

/-- **A response** records what it reports, or that it cannot be read. -/
theorem records_respond {frame : ResponseFrame}
    (hreported : ∀ id e, frame.result = .error e → P id e)
    (hunreadable : ∀ id detail, P id (.decode detail)) (l : Ledger) :
    Ledger.Records P l (c.respond config frame l).ledger := by
  have hresponded := responded config frame c l
  generalize c.respond config frame l = moved at *
  cases hresponded with
  | ignored _ => exact Ledger.Records.refl l
  | dropped _ _ => exact Ledger.Records.refl l
  | @delivered live call payload => exact Ledger.records_deliver l call.id payload
  | @retried live call payload => exact Ledger.records_deliver l call.id payload
  | @unreadable live call payload e _ _ he =>
    obtain ⟨detail, rfl⟩ := Ledger.eq_decode_of_deliver he
    exact (Ledger.records_deliver l call.id payload).trans
      (Ledger.records_fail (hunreadable call.id detail) _)
  | refused _ _ _ => exact Ledger.Records.refl l
  | @rejected live call e _ hresult _ hversion =>
    -- no call is charged for a version that is refused
    refine (Ledger.records_fail (hreported call.id e hresult) l).trans
      (records_lose (fun other hmem _ => ?_) (fun _ other _ => hreported other.id e hresult) _)
    rw [paysForLoss_of_connected rfl, hversion, Bool.or_true, if_pos rfl] at hmem
    exact absurd hmem List.not_mem_nil
  | @failed live call e _ hresult =>
    exact Ledger.records_fail (hreported call.id e hresult) l

/-- **A peer that is withdrawn** is a failure of the transport for the calls in flight. -/
theorem records_reconsider
    (h : ∀ live call, c.phase = .connected live →
      (env.lookup c.key.agent).any (·.same live.peer) = false → call ∈ live.calls →
      config.callRetries < call.retries + 1 → P call.id
        (.connectionFailed s!"{c.key.agent.text} no longer advertised at {live.peer.text}"))
    (l : Ledger) : Ledger.Records P l (c.reconsider env config now l).ledger := by
  have hreconsidered := reconsidered env config now c l
  generalize c.reconsider env config now l = moved at *
  cases hreconsidered with
  | kept _ => exact Ledger.Records.refl l
  | @withdrawn live hphase hgone =>
    refine records_lose (fun call hmem hbudget => ?_) (fun hfault => by cases hfault) l
    exact h live call hphase hgone ((mem_paysForLoss_of_connected hphase).mp hmem).2 hbudget
  | restarted _ => exact Ledger.Records.refl l

/-- A call in flight on a link that is lost, if it stays open, can pay. -/
theorem budget_of_lose {live : Live} (hlive : c.phase = .connected live) {e : Failure}
    (he : (e.isProtocol || e.isVersionRejection) = false) {l : Ledger}
    (hk : ∀ call ∈ c.calls, l.knows call.id = true) {call : PendingCall}
    (hmem : call ∈ live.calls)
    (hopen : (c.lose config e l).ledger.isFinished call.id = false) :
    call.retries + 1 ≤ config.callRetries := by
  rw [lose_link hlive he] at hopen
  rw [← inFlight_of_connected hlive] at hmem
  exact Ledger.budget_of_mem_chargeAll (knows_of_inFlightByAge hk)
    (c.inFlightByAge_perm.symm.subset hmem) hopen

end Connection

namespace Pool

variable {P : CallId → Failure → Prop} {history : List Moment} {p : Pool}

/-! ## §4. The whole pool. -/

theorem records_moveAll {f : Connection → Ledger → Moved} {cs : List Connection}
    (hf : ∀ c ∈ cs, ∀ l, Ledger.Records P l (f c l).ledger) (l : Ledger) :
    Ledger.Records P l (moveAll f cs l).2.1 := by
  induction cs generalizing l with
  | nil => exact Ledger.Records.refl l
  | cons c rest ih =>
    exact (hf c List.mem_cons_self l).trans
      (ih (fun d hd => hf d (List.mem_cons_of_mem _ hd)) _)

theorem ledger_send (p : Pool) (first : Command) : (p.send first).1.ledger = p.ledger := by
  unfold send
  split <;> rfl

theorem ledger_command (env : Surroundings) (now : Time) (p : Pool) (first : Command) :
    (p.command env now first).1.ledger = p.ledger := by
  cases first with
  | call key call =>
    unfold command
    dsimp only
    split
    · rfl
    · exact ledger_withConnection p now key
  | acquire key => exact ledger_withConnection p now key
  | abort _ | release _ => rfl

/-- An event makes a failure the outcome of a call. -/
inductive Verdict (p : Pool) : Event → CallId → Failure → Prop where
  /-- A caller or an observer says so. -/
  | settled (id : CallId) (e : Failure) : Verdict p (.settle id e) id e
  /-- The pool is gone. -/
  | gone {env : Surroundings} {now : Time} (id : CallId) :
    Verdict p (.look env now .stop) id .disconnected
  /-- The deadline of a call that is held has come. -/
  | expired {env : Surroundings} {now : Time} {x : ConnectionKey × PendingCall} :
    x ∈ held p.connections → x.2.isExpired now = true →
      Verdict p (.advance env now) x.2.id .timeout
  /-- The call is charged for the failure, and cannot pay. -/
  | charged {event : Event} {x : ConnectionKey × PendingCall} {e : Failure} :
    Charges p event x e → p.config.callRetries < x.2.retries + 1 → Verdict p event x.2.id e
  /-- The peer of the link on which the call is in flight is at fault. -/
  | fault {env : Surroundings} {now : Time} {key : ConnectionKey} {c : Connection} {e : Failure}
      {call : PendingCall} :
    p.connection? key = some c → (e.isProtocol || e.isVersionRejection) = true →
      call ∈ c.inFlight →
      Verdict p (.look env now (.notice (.failed key c.generation e))) call.id e
  /-- A response reports the failure. -/
  | reported {env : Surroundings} {now : Time} {key : ConnectionKey} {generation : Nat}
      {frame : ResponseFrame} {e : Failure} (id : CallId) :
    frame.result = .error e →
      Verdict p (.look env now (.notice (.response key generation frame))) id e
  /-- A response cannot be read. -/
  | unreadable {env : Surroundings} {now : Time} {key : ConnectionKey} {generation : Nat}
      {frame : ResponseFrame} (id : CallId) (detail : String) :
    Verdict p (.look env now (.notice (.response key generation frame))) id (.decode detail)

/-- What becomes an outcome does not depend on the notices that have arrived. -/
theorem Verdict.notices {notices : List Notice} {event : Event} {id : CallId} {e : Failure}
    (h : Verdict { p with notices } event id e) : Verdict p event id e := by
  cases h with
  | settled => exact .settled id e
  | gone => exact .gone id
  | expired hx hexpired => exact .expired hx hexpired
  | charged hcharges hspent => exact .charged hcharges.notices hspent
  | fault hc he hcall => exact .fault hc he hcall
  | reported _ hresult => exact .reported id hresult
  | unreadable _ detail => exact .unreadable id detail

theorem records_notice (env : Surroundings) (now : Time) (first : Notice) (p : Pool) :
    Ledger.Records (Verdict p (.look env now (.notice first))) p.ledger
      (p.notice first).1.ledger := by
  unfold Pool.notice
  cases hc : p.connection? first.key with
  | none => exact Ledger.Records.refl _
  | some c =>
    dsimp only
    split
    · next hgeneration =>
      unfold attend
      split
      · exact Ledger.Records.refl _
      · next key generation e candidates hphase =>
        cases hgeneration
        have hnone := Connection.live?_of_connecting hphase
        refine Connection.records_lose (fun call hmem hspent => ?_) (fun _ call hcall => ?_) _
        · rw [Connection.paysForLoss_of_live?_eq_none hnone] at hmem
          exact .charged (x := (key, call)) (.attempt hc hphase hmem) hspent
        · -- nothing is in flight during an attempt
          unfold Connection.inFlight at hcall
          rw [hphase] at hcall
          cases hcall
      · exact Connection.records_respond (fun id _ hresult => .reported id hresult)
          (fun id detail => .unreadable id detail) _
      · next key generation e live hphase =>
        cases hgeneration
        refine Connection.records_lose (fun call hmem hspent => ?_)
          (fun he call hcall => .fault hc he hcall) _
        obtain ⟨⟨hprotocol, hversion⟩, hflight⟩ :=
          (Connection.mem_paysForLoss_of_connected hphase).mp hmem
        exact .charged (x := (key, call)) (.link hc hphase hprotocol hversion hflight) hspent
      · exact Ledger.Records.refl _
    · exact Ledger.Records.refl _

/-- **Whatever happens**, a failure is recorded only where there is a verdict. -/
theorem records_after (p : Pool) (event : Event) :
    Ledger.Records (Verdict p event) p.ledger (p.after event).1.ledger := by
  cases event with
  | issue shape => exact (Ledger.tells_issue p.ledger p.nextCall shape).records
  | settle id e => exact Ledger.records_fail (.settled id e) p.ledger
  | send command =>
    show Ledger.Records _ p.ledger (p.send command).1.ledger
    rw [ledger_send]
    exact Ledger.Records.refl _
  | report notice => exact Ledger.Records.refl _
  | stop => exact Ledger.Records.refl _
  | advance env now =>
    refine records_moveAll (f := Connection.advance env p.config now)
      (fun c hc l => Connection.records_expire (fun call hcall hexpired => ?_) l) p.ledger
    exact .expired (x := (c.key, call)) (mem_held.mpr ⟨c, hc, rfl, hcall⟩) hexpired
  | look env now subject =>
    cases subject with
    | stop =>
      exact teardown_rel Ledger.Records.refl Ledger.Records.trans
        (fun l id => Ledger.records_fail (.gone id) l) p
    | command first =>
      show Ledger.Records _ p.ledger
        (({ p with commands := p.commands.tail } : Pool).command env now first).1.ledger
      rw [ledger_command]
      exact Ledger.Records.refl _
    | notice first =>
      have hrecords := records_notice env now first { p with notices := p.notices.tail }
      exact ⟨hrecords.grows, fun hopen hfail => (hrecords.only hopen hfail).notices⟩
    | directory directory =>
      refine records_moveAll (fun c hc l => Connection.records_reconsider ?_ l) _
      exact fun live call hphase hpeer hcall hspent =>
        .charged (x := (c.key, call)) (.withdrawal hc hphase hpeer hcall) hspent
    | timer => exact Ledger.Records.refl _

/-- **Whatever happens**, a failure of the transport is recorded for a call that was asked for only
where it is charged for this failure and its budget is spent. -/
theorem charged_of_transport {event : Event} (hadmits : p.Admits history event) :
    Ledger.Blames
      (fun id e => id ∈ (askedFor history).map (·.2.id) →
        ∃ x, Charges p event x e ∧ x.2.id = id ∧ p.config.callRetries < x.2.retries + 1)
      p.ledger (p.after event).1.ledger := by
  refine (records_after p event).blames fun {id e} hverdict he hasked => ?_
  -- of all verdicts only the charge is about the transport
  cases hverdict with
  | settled =>
    rcases hadmits hasked with rfl | rfl | rfl <;> cases he
  | gone | expired | unreadable => cases he
  | @charged event x e hcharges hspent => exact ⟨x, hcharges, rfl, hspent⟩
  | fault _ hfault _ =>
    rw [Failure.isTransport_of_fault hfault] at he
    cases he
  | reported _ hresult =>
    rcases ResponseFrame.result_eq_error hresult with ⟨_, rfl⟩ | ⟨_, _, rfl⟩ <;> cases he

/-- The ledger after a notice that belongs to the current attempt. -/
theorem ledger_after_notice {env : Surroundings} {now : Time} (first : Notice) {c : Connection}
    (hc : p.connection? first.key = some c) (hgeneration : c.generation = first.generation) :
    (p.after (.look env now (.notice first))).1.ledger = (p.attend c first).1.ledger := by
  show (({ p with notices := p.notices.tail } : Pool).notice first).1.ledger = _
  unfold notice
  rw [show ({ p with notices := p.notices.tail } : Pool).connection? first.key = some c from hc]
  dsimp only
  rw [if_pos hgeneration]
  unfold attend
  split <;> rfl

theorem ledger_moveAll_append {f : Connection → Ledger → Moved} (cs ds : List Connection)
    (l : Ledger) :
    (moveAll f (cs ++ ds) l).2.1 = (moveAll f ds (moveAll f cs l).2.1).2.1 := by
  induction cs generalizing l with
  | nil => rfl
  | cons c rest ih => exact ih _

/-- **A call that is charged and stays open can pay.** -/
theorem budget_of_charges {effects : List Effect} (h : Tidy effects p) {event : Event}
    {x : ConnectionKey × PendingCall} {e : Failure} (hcharges : Charges p event x e)
    (hopen : (p.after event).1.ledger.isFinished x.2.id = false) :
    x.2.retries + 1 ≤ p.config.callRetries := by
  have hknows : ∀ {c : Connection}, c ∈ p.connections → ∀ call ∈ c.calls,
      p.ledger.knows call.id = true :=
    fun hc call hcall => h.known (_, call) (mem_held.mpr ⟨_, hc, rfl, hcall⟩)
  cases hcharges with
  | @attempt env now key c e candidates call hc hphase hcall =>
    have hnone := Connection.live?_of_connecting hphase
    have hattend : (p.attend c (.connectFailed key c.generation e)).1.ledger
        = (c.lose p.config e p.ledger).ledger := by
      unfold attend
      rw [hphase]
      rfl
    rw [ledger_after_notice _ hc rfl, hattend, Connection.lose_attempt hnone] at hopen
    refine Ledger.budget_of_mem_chargeAll (fun other hother => ?_) hcall hopen
    exact hknows (mem_of_connection? hc).1 other (List.mem_append_right _ hother)
  | @link env now key c e live call hc hphase hprotocol hversion hcall =>
    have hattend : (p.attend c (.failed key c.generation e)).1.ledger
        = (c.lose p.config e p.ledger).ledger := by
      unfold attend
      rw [hphase]
      rfl
    rw [ledger_after_notice _ hc rfl, hattend] at hopen
    exact Connection.budget_of_lose hphase (by rw [hprotocol, hversion]; rfl)
      (hknows (mem_of_connection? hc).1) hcall hopen
  | @withdrawal env now directory c live call hc hphase hpeer hcall =>
    obtain ⟨before, after, hsplit⟩ := List.append_of_mem hc
    -- the connections behind this one settle no other call
    have hgrows : ∀ (cs : List Connection) (l : Ledger),
        l.Grows (moveAll (Connection.reconsider env p.config now) cs l).2.1 := fun cs l =>
      (records_moveAll (P := fun _ _ => True)
        (fun c _ l => Connection.records_reconsider (fun _ _ _ _ _ _ => trivial) l) l).grows
    have hledger : (p.after (.look env now (.directory directory))).1.ledger
        = (moveAll (Connection.reconsider env p.config now) (before ++ c :: after)
            p.ledger).2.1 := by
      rw [← hsplit]
      rfl
    rw [hledger, ledger_moveAll_append] at hopen
    have hmoved := Ledger.isFinished_eq_false_of_grows (hgrows after _) hopen
    rw [Connection.reconsider_of_withdrawn hphase hpeer] at hmoved
    exact Connection.budget_of_lose (c := { c with looking := false }) hphase rfl
      (fun other hother => (hgrows before p.ledger).knows (hknows hc other hother)) hcall hmoved
  | unreadable hc hphase hdisc hat hresult he hidem hbudget =>
    exact Ledger.succ_le_of_lt hbudget

end Pool

end RemoteCall
