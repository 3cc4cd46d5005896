/-
  RemoteCall.Proofs.Pool.Losing
  ─────────────────────────────
  **WHAT COMES FROM OUTSIDE NEITHER LOSES NOR DOUBLES A CALL.**

  An attempt or a link fails, a response arrives, a caller gives up, the
  directory changes.  Some calls pay for it by a retry:

      paysForLoss      — those in flight on a link that is lost, unless the peer
                         broke the protocol or refuses the version; those that
                         wait, if there was no link
      paysForResponse  — the call whose response cannot be read, if it may be
                         sent again and its budget allows it
      paysForDirectory — those in flight on a link whose peer is withdrawn

  Main statements:
    • `conserves_lose`       — a failure,
    • `conserves_respond`    — a response,
    • `conserves_cancel`     — a call that is let go of,
    • `conserves_reconsider` — a change of the directory.
-/
import RemoteCall.Proofs.Keyed
import RemoteCall.Proofs.Pool.Reacting

namespace RemoteCall

/-! ## §1. Charging several calls. -/

namespace Ledger

/-- **Charging several calls**: those that are open afterwards have been charged once each, and the
others are gone. -/
theorem unsettled_chargeAll (limit : UInt32) (e : Failure) {calls : List PendingCall}
    {l : Ledger} (hk : ∀ call ∈ calls, l.knows call.id = true) :
    (chargeAll limit e calls l).2.unsettled (chargeAll limit e calls l).1
      = ((chargeAll limit e calls l).2.unsettled calls).map (·.charged) := by
  induction calls generalizing l with
  | nil => rfl
  | cons call rest ih =>
    have hrest : ∀ other ∈ rest, l.knows other.id = true :=
      fun other h => hk other (List.mem_cons_of_mem _ h)
    unfold chargeAll
    split
    · next hfin =>
      rw [unsettled_cons_of_isFinished ((grows_chargeAll limit e rest l).isFinished hfin)]
      exact ih hrest
    · split
      · -- the budget is spent, so the call has failed
        have hgrows := grows_fail l call.id e
        have hfin := isFinished_fail_of_knows (hk call List.mem_cons_self) e
        rw [unsettled_cons_of_isFinished ((grows_chargeAll limit e rest _).isFinished hfin)]
        exact ih fun other h => hgrows.knows (hrest other h)
      · -- the call is given back, charged
        dsimp only
        have hkept := ih hrest
        unfold unsettled at hkept ⊢
        rw [List.filter_cons, List.filter_cons, hkept]
        show (if !(chargeAll limit e rest l).2.isFinished call.id then _ else _) = _
        split <;> rfl

/-- A call that is given back has been charged, within its budget. -/
theorem of_mem_chargeAll {limit : UInt32} {e : Failure} {calls : List PendingCall}
    {l : Ledger} {call : PendingCall} (h : call ∈ (chargeAll limit e calls l).1) :
    ∃ old ∈ calls, call = old.charged ∧ call.retries ≤ limit := by
  induction calls generalizing l with
  | nil => exact absurd h (by simp [chargeAll])
  | cons first rest ih =>
    unfold chargeAll at h
    split at h
    · obtain ⟨old, hmem, hold⟩ := ih h
      exact ⟨old, List.mem_cons_of_mem _ hmem, hold⟩
    · split at h
      · obtain ⟨old, hmem, hold⟩ := ih h
        exact ⟨old, List.mem_cons_of_mem _ hmem, hold⟩
      · next hbudget =>
        -- the budget is not exceeded by the one more
        rcases List.mem_cons.mp h with rfl | h
        · exact ⟨first, List.mem_cons_self, rfl, UInt32.not_lt.mp hbudget⟩
        · obtain ⟨old, hmem, hold⟩ := ih h
          exact ⟨old, List.mem_cons_of_mem _ hmem, hold⟩

theorem isFinished_of_mem_failAll {l : Ledger} {calls : List PendingCall} (e : Failure)
    (hk : ∀ call ∈ calls, l.knows call.id = true) :
    ∀ call ∈ calls, (l.failAll (calls.map (·.id)) e).isFinished call.id = true :=
  fun call h => isFinished_failAll (List.mem_map_of_mem h) e (hk call h)

end Ledger

namespace Connection

variable {exact : Prop} {config : PoolConfig} {frame : ResponseFrame} {c : Connection} {l : Ledger}
  {effects : List Effect}

/-! ## §2. The attempt or the link has failed. -/

/-- The calls that pay when the attempt or the link fails. -/
def paysForLoss (e : Failure) (c : Connection) : List PendingCall :=
  match c.phase with
  | .connected _ => if e.isProtocol || e.isVersionRejection then [] else c.inFlight
  | _ => c.waiting

theorem paysForLoss_of_connected {live : Live} (h : c.phase = .connected live) (e : Failure) :
    c.paysForLoss e = if e.isProtocol || e.isVersionRejection then [] else c.inFlight := by
  unfold paysForLoss
  rw [h]

theorem paysForLoss_of_live?_eq_none (h : c.live? = none) (e : Failure) :
    c.paysForLoss e = c.waiting := by
  unfold paysForLoss
  split
  · next hphase => rw [live?_of_phase hphase] at h; cases h
  · rfl

theorem inFlightByAge_perm (c : Connection) : c.inFlightByAge.Perm c.inFlight :=
  List.mergeSort_perm _ _

/-- After a link has failed for a reason that the calls in flight have to bear. -/
theorem lose_at_fault {live : Live} (hlive : c.phase = .connected live) {e : Failure}
    (he : (e.isProtocol || e.isVersionRejection) = true) (l : Ledger) :
    c.lose config e l
      = { connection :=
            { c with
              phase := .errored e
              waiting := (l.failAll (c.inFlightByAge.map (·.id)) e).unsettled c.waiting }
          ledger := l.failAll (c.inFlightByAge.map (·.id)) e
          effects := c.leave } := by
  unfold lose
  rw [hlive]
  dsimp only
  rw [if_pos he]

/-- After a link has failed for another reason. -/
theorem lose_link {live : Live} (hlive : c.phase = .connected live) {e : Failure}
    (he : (e.isProtocol || e.isVersionRejection) = false) (l : Ledger) :
    c.lose config e l
      = { connection :=
            { c with
              phase := .errored e
              waiting := (Ledger.chargeAll config.callRetries e c.inFlightByAge l).1
                ++ (Ledger.chargeAll config.callRetries e c.inFlightByAge l).2.unsettled c.waiting
              retries := c.retries
                + (Ledger.chargeAll config.callRetries e c.inFlightByAge l).1.length }
          ledger := (Ledger.chargeAll config.callRetries e c.inFlightByAge l).2
          effects := c.leave } := by
  unfold lose
  rw [hlive]
  dsimp only
  rw [he]
  rfl

/-- After an attempt has failed. -/
theorem lose_attempt (hlive : c.live? = none) (e : Failure) (l : Ledger) :
    c.lose config e l
      = { connection :=
            { c with
              phase := .errored e
              waiting := (Ledger.chargeAll config.callRetries e c.waiting l).1
              retries := c.retries
                + (Ledger.chargeAll config.callRetries e c.waiting l).1.length }
          ledger := (Ledger.chargeAll config.callRetries e c.waiting l).2
          effects := c.leave } := by
  unfold lose
  split
  · next hphase => rw [live?_of_phase hphase] at hlive; exact absurd hlive (by simp)
  · rfl

theorem live?_lose (e : Failure) (l : Ledger) : (c.lose config e l).connection.live? = none := by
  unfold lose
  split
  · split <;> rfl
  · rfl

theorem knows_of_inFlightByAge (hk : ∀ call ∈ c.calls, l.knows call.id = true) :
    ∀ call ∈ c.inFlightByAge, l.knows call.id = true :=
  fun call hmem => hk call (List.mem_append_left _ (c.inFlightByAge_perm.subset hmem))

theorem mem_calls_of_inFlightByAge {id : CallId} (h : id ∈ c.inFlightByAge.map (·.id)) :
    id ∈ c.calls.map (·.id) := by
  rw [calls, List.map_append]
  exact List.mem_append_left _ ((c.inFlightByAge_perm.map _).subset h)

theorem grows_lose (config : PoolConfig) (e : Failure) (c : Connection) (l : Ledger) :
    l.Grows (c.lose config e l).ledger := by
  unfold lose
  dsimp only
  split
  · split
    · exact Ledger.grows_failAll _ e l
    · exact Ledger.grows_chargeAll _ e _ l
  · exact Ledger.grows_chargeAll _ e _ l

/-- No call is touched that the connection does not hold. -/
theorem get?_lose (e : Failure) {id : CallId} (h : id ∉ c.calls.map (·.id)) (l : Ledger) :
    (c.lose config e l).ledger.get? id = l.get? id := by
  cases hlive? : c.live? with
  | none =>
    rw [lose_attempt hlive?]
    exact Ledger.get?_chargeAll_of_notMem (calls_of_live?_eq_none hlive? ▸ h) l
  | some live =>
    have hflight : id ∉ c.inFlightByAge.map (·.id) :=
      fun hmem => h (mem_calls_of_inFlightByAge hmem)
    cases he : e.isProtocol || e.isVersionRejection with
    | true =>
      rw [lose_at_fault (phase_of_live? hlive?) he]
      exact Ledger.get?_failAll_of_notMem hflight e l
    | false =>
      rw [lose_link (phase_of_live? hlive?) he]
      exact Ledger.get?_chargeAll_of_notMem hflight l

/-- A link fails by a fault of the peer: the calls in flight are settled. -/
theorem conserves_lose_at_fault {live : Live} (hlive : c.phase = .connected live) {e : Failure}
    (he : (e.isProtocol || e.isVersionRejection) = true)
    (hk : ∀ call ∈ c.calls, l.knows call.id = true) :
    Conserves exact (c.paysForLoss e) c l (c.lose config e l).connection
      (c.lose config e l).ledger := by
  rw [lose_at_fault hlive he, paysForLoss_of_connected hlive, if_pos he]
  refine conserves_of_perm rfl (Ledger.grows_failAll _ _ l) ?_ ?_ ?_
  · -- no call in flight is open any more
    have hflight := Ledger.unsettled_eq_nil fun call hmem =>
      Ledger.isFinished_of_mem_failAll e (knows_of_inFlightByAge hk) call
        (c.inFlightByAge_perm.symm.subset hmem)
    show (Ledger.unsettled _ (Ledger.unsettled _ c.waiting)).Perm
      (Ledger.unsettled _ (c.inFlight ++ c.waiting))
    rw [Ledger.unsettled_append, hflight, (Ledger.Grows.refl _).unsettled]
    exact List.Perm.refl _
  · intro call hmem
    exact ⟨call, List.mem_append_right _ (Ledger.mem_unsettled.mp hmem).1, rfl⟩
  · intro id hid
    exact Ledger.get?_failAll_of_notMem (fun hmem => hid (mem_calls_of_inFlightByAge hmem)) e l

/-- A link fails otherwise: a call in flight is charged, and waits again if the budget allows it. -/
theorem conserves_lose_link {live : Live} (hlive : c.phase = .connected live) {e : Failure}
    (he : (e.isProtocol || e.isVersionRejection) = false)
    (hk : ∀ call ∈ c.calls, l.knows call.id = true) :
    Conserves exact (c.paysForLoss e) c l (c.lose config e l).connection
      (c.lose config e l).ledger := by
  rw [lose_link hlive he, paysForLoss_of_connected hlive, if_neg (by simp [he])]
  refine ⟨rfl, Ledger.grows_chargeAll _ e _ l, ⟨c.waiting, List.Perm.refl _, .of_perm ?_⟩, ?_, ?_⟩
  · have hcharged := Ledger.unsettled_chargeAll config.callRetries e (knows_of_inFlightByAge hk)
    show (Ledger.unsettled _ (_ ++ Ledger.unsettled _ c.waiting)).Perm _
    rw [Ledger.unsettled_append, hcharged, (Ledger.Grows.refl _).unsettled]
    exact ((Ledger.unsettled_perm _ c.inFlightByAge_perm).map _).append_right _
  · intro call hmem
    have hmem' : call ∈ (Ledger.chargeAll config.callRetries e c.inFlightByAge l).1
        ++ Ledger.unsettled _ c.waiting := hmem
    -- a call that is given back was in flight; the others waited before
    rcases List.mem_append.mp hmem' with hkept | hwaiting
    · obtain ⟨old, hold, rfl, -⟩ := Ledger.of_mem_chargeAll hkept
      exact ⟨old, List.mem_append_left _ (c.inFlightByAge_perm.subset hold), rfl⟩
    · exact ⟨call, List.mem_append_right _ (Ledger.mem_unsettled.mp hwaiting).1, rfl⟩
  · intro id hid
    exact Ledger.get?_chargeAll_of_notMem (fun hmem => hid (mem_calls_of_inFlightByAge hmem)) l

/-- An attempt fails: the calls that wait are charged. -/
theorem conserves_lose_attempt (hlive : c.live? = none) (e : Failure)
    (hk : ∀ call ∈ c.calls, l.knows call.id = true) :
    Conserves exact (c.paysForLoss e) c l (c.lose config e l).connection
      (c.lose config e l).ledger := by
  have hcalls := calls_of_live?_eq_none hlive
  rw [lose_attempt hlive, paysForLoss_of_live?_eq_none hlive]
  refine ⟨rfl, Ledger.grows_chargeAll _ e _ l, ⟨[], by rw [hcalls]; simp, .of_perm ?_⟩, ?_, ?_⟩
  · show (Ledger.unsettled _ (Ledger.chargeAll config.callRetries e c.waiting l).1).Perm _
    rw [Ledger.unsettled_chargeAll config.callRetries e fun call h => hk call (hcalls ▸ h)]
    simp
  · intro call hmem
    obtain ⟨old, hold, rfl, -⟩ := Ledger.of_mem_chargeAll hmem
    exact ⟨old, hcalls ▸ hold, rfl⟩
  · intro id hid
    exact Ledger.get?_chargeAll_of_notMem (fun hmem => hid (hcalls ▸ hmem)) l

/-- **A failure loses and doubles no call.** -/
theorem conserves_lose (config : PoolConfig) (e : Failure)
    (hk : ∀ call ∈ c.calls, l.knows call.id = true) :
    Conserves exact (c.paysForLoss e) c l (c.lose config e l).connection
      (c.lose config e l).ledger := by
  cases hlive? : c.live? with
  | some live =>
    cases he : e.isProtocol || e.isVersionRejection with
    | true => exact conserves_lose_at_fault (phase_of_live? hlive?) he hk
    | false => exact conserves_lose_link (phase_of_live? hlive?) he hk
  | none => exact conserves_lose_attempt hlive? e hk

/-! ## §3. A response has arrived. -/

/-- The calls that pay when a response arrives. -/
def paysForResponse (config : PoolConfig) (frame : ResponseFrame) (c : Connection) (l : Ledger) :
    List PendingCall :=
  match c.phase with
  | .connected live =>
    if live.discarded.contains frame.sequence then []
    else
      match live.callAt? frame.sequence, frame.result with
      | some call, .ok payload =>
        if !l.reads call.id payload && call.idempotent && call.retries < config.callRetries
        then [call] else []
      | _, _ => []
  | _ => []

theorem mem_of_callAt? {live : Live} {n : SequenceNumber} {call : PendingCall}
    (h : live.callAt? n = some call) : (n, call) ∈ live.inFlight :=
  mem_of_find?_key h

/-- **A call is taken out**, and no other. -/
theorem calls_takeOut {live : Live} (h : live.Distinct) {n : SequenceNumber} {call : PendingCall}
    (hmem : (n, call) ∈ live.inFlight) : live.calls.Perm (call :: (live.takeOut n).calls) :=
  (perm_cons_filter_of_nodup h hmem).map Prod.snd

section Answered

variable {live : Live} {n : SequenceNumber} {call : PendingCall} {l' : Ledger}

/-- A call that is in flight is taken out, and the connection keeps everything else. -/
theorem calls_answered (hlive : c.phase = .connected live) (h : live.Distinct)
    (hmem : (n, call) ∈ live.inFlight) :
    c.calls.Perm (call :: ((live.takeOut n).calls ++ c.waiting)) := by
  rw [calls_of_connected hlive]
  exact (calls_takeOut h hmem).append_right c.waiting

theorem ne_of_notMem {calls rest : List PendingCall} (h : calls.Perm (call :: rest)) {id : CallId}
    (hid : id ∉ calls.map (·.id)) : id ≠ call.id := by
  rintro rfl
  exact hid (List.mem_map_of_mem (h.symm.subset List.mem_cons_self))

/-- The call that was answered is settled. -/
theorem conserves_settled (hlive : c.phase = .connected live) (h : live.Distinct)
    (hmem : (n, call) ∈ live.inFlight) (hgrows : l.Grows l')
    (hframe : ∀ {id}, id ≠ call.id → l'.get? id = l.get? id)
    (hfin : l'.isFinished call.id = true) :
    Conserves exact [] c l { c with phase := .connected (live.takeOut n) } l' := by
  have hcalls := calls_answered hlive h hmem
  refine conserves_of_perm rfl hgrows ?_ ?_ fun hid => hframe (ne_of_notMem hcalls hid)
  · have hopen := l'.unsettled_perm hcalls
    rw [Ledger.unsettled_cons_of_isFinished hfin] at hopen
    exact hopen.symm
  · intro other hother
    exact ⟨other, hcalls.symm.subset (List.mem_cons_of_mem _ hother), rfl⟩

/-- The call that was answered waits again. -/
theorem conserves_refused (hlive : c.phase = .connected live) (h : live.Distinct)
    (hmem : (n, call) ∈ live.inFlight) (l : Ledger) :
    Conserves exact [] c l
      { c with
        phase := .connected { live.takeOut n with draining := true }
        waiting := c.waiting ++ [call] } l := by
  have hcalls := calls_answered hlive h hmem
  -- the call goes from the link to the end of the queue
  have hback : ((live.takeOut n).calls ++ (c.waiting ++ [call])).Perm c.calls := by
    rw [← List.append_assoc]
    exact (List.perm_append_singleton call _).trans hcalls.symm
  refine conserves_of_perm rfl (Ledger.Grows.refl l) (l.unsettled_perm hback) ?_ fun _ => rfl
  intro other hother
  exact ⟨other, hback.subset hother, rfl⟩

/-- The call that was answered is charged a retry and waits again. -/
theorem conserves_retried (hlive : c.phase = .connected live) (h : live.Distinct)
    (hmem : (n, call) ∈ live.inFlight) (hgrows : l.Grows l')
    (hframe : ∀ {id}, id ≠ call.id → l'.get? id = l.get? id) :
    Conserves exact [call] c l
      { c with
        phase := .connected (live.takeOut n)
        waiting := c.waiting ++ [call.charged]
        retries := c.retries + 1 } l' := by
  have hcalls := calls_answered hlive h hmem
  -- the charged call goes to the end of the queue
  have hback : ((live.takeOut n).calls ++ (c.waiting ++ [call.charged])).Perm
      ([call].map (·.charged) ++ ((live.takeOut n).calls ++ c.waiting)) := by
    rw [← List.append_assoc]
    exact List.perm_append_singleton call.charged _
  refine ⟨rfl, hgrows, ⟨(live.takeOut n).calls ++ c.waiting, hcalls, .of_perm ?_⟩, ?_,
    fun hid => hframe (ne_of_notMem hcalls hid)⟩
  · have hone : l'.unsettled ([call].map (·.charged)) = (l'.unsettled [call]).map (·.charged) := by
      unfold Ledger.unsettled
      rw [List.filter_map]
      rfl
    rw [← hone, ← Ledger.unsettled_append]
    exact l'.unsettled_perm hback
  · intro other hother
    rcases List.mem_cons.mp (hback.subset hother) with rfl | hrest
    · exact ⟨call, hcalls.symm.subset List.mem_cons_self, rfl⟩
    · exact ⟨other, hcalls.symm.subset (List.mem_cons_of_mem _ hrest), rfl⟩

end Answered

theorem paysForResponse_of_finds {live : Live} {call : PendingCall} (h : c.Finds frame live call)
    (l : Ledger) :
    c.paysForResponse config frame l
      = match frame.result with
        | .ok payload =>
          if !l.reads call.id payload && call.idempotent && call.retries < config.callRetries
          then [call] else []
        | .error _ => [] := by
  unfold paysForResponse
  rw [h.phase]
  dsimp only
  rw [h.fresh, h.found]
  cases frame.result <;> rfl

theorem paysForResponse_of_ignored
    (h : ∀ live, c.phase = .connected live →
      live.discarded.contains frame.sequence = false ∧ live.callAt? frame.sequence = none)
    (l : Ledger) : c.paysForResponse config frame l = [] := by
  unfold paysForResponse
  split
  · next live hphase =>
    obtain ⟨hfresh, hnone⟩ := h live hphase
    rw [hfresh, hnone]
    rfl
  · rfl

theorem paysForResponse_of_dropped {live : Live} (hphase : c.phase = .connected live)
    (h : live.discarded.contains frame.sequence = true) (l : Ledger) :
    c.paysForResponse config frame l = [] := by
  unfold paysForResponse
  rw [hphase]
  exact if_pos h

/-- A failure that the agent reports costs nothing. -/
theorem paysForResponse_of_error {live : Live} {call : PendingCall} (h : c.Finds frame live call)
    {e : Failure} (hresult : frame.result = .error e) (l : Ledger) :
    c.paysForResponse config frame l = [] := by
  rw [paysForResponse_of_finds h, hresult]

/-- What can be read costs nothing. -/
theorem paysForResponse_of_reads {live : Live} {call : PendingCall} {payload : Bytes}
    (h : c.Finds frame live call) (hresult : frame.result = .ok payload)
    (hreads : l.reads call.id payload = true) : c.paysForResponse config frame l = [] := by
  rw [paysForResponse_of_finds h, hresult]
  dsimp only
  rw [hreads]
  rfl

theorem paysForResponse_of_not_reads (config : PoolConfig) {live : Live} {call : PendingCall}
    {payload : Bytes} (h : c.Finds frame live call) (hresult : frame.result = .ok payload)
    (hreads : l.reads call.id payload = false) :
    c.paysForResponse config frame l
      = if call.idempotent && decide (call.retries < config.callRetries) then [call] else [] := by
  rw [paysForResponse_of_finds h, hresult]
  dsimp only
  rw [hreads, Bool.not_false, Bool.true_and]

/-- What stays in flight when a call is taken out stays in order. -/
theorem numberedIn_takeOut {live : Live} (hlive : c.phase = .connected live)
    (h : c.NumberedIn effects) (n : SequenceNumber) {c' : Connection} {draining : Bool}
    (hphase : c'.phase = .connected { live.takeOut n with draining }) :
    c'.NumberedIn effects := by
  intro other hother
  obtain ⟨hdistinct, hnumbered⟩ := h live hlive
  rw [hphase] at hother
  cases hother
  refine ⟨hdistinct.of_sublist List.filter_sublist, fun hroom => ?_⟩
  obtain ⟨hnumbered, hle⟩ := hnumbered hroom
  exact ⟨hnumbered.of_sublist List.filter_sublist rfl rfl, hle⟩

/-- **A response loses and doubles no call.** -/
theorem conserves_respond (config : PoolConfig) (frame : ResponseFrame)
    (h : c.NumberedIn effects) (hk : ∀ call ∈ c.calls, l.knows call.id = true) :
    Conserves exact (c.paysForResponse config frame l) c l (c.respond config frame l).connection
        (c.respond config frame l).ledger
      ∧ (c.respond config frame l).connection.NumberedIn effects := by
  have hresponded := responded config frame c l
  generalize c.respond config frame l = moved at *
  -- the call that is found in flight is held, and no other is under the number
  have hheld : ∀ {live call}, c.Finds frame live call → live.Distinct
      ∧ (frame.sequence, call) ∈ live.inFlight ∧ l.knows call.id = true := by
    intro live call hfinds
    have hdistinct := (h live hfinds.phase).1
    have hmem := mem_of_callAt? hfinds.found
    have hcalls := calls_answered hfinds.phase hdistinct hmem
    exact ⟨hdistinct, hmem, hk call (hcalls.symm.subset List.mem_cons_self)⟩
  cases hresponded with
  | ignored hnobody =>
    rw [paysForResponse_of_ignored hnobody]
    exact ⟨conserves_of_calls_eq (by rfl) (by rfl) l, h⟩
  | @dropped live hphase hdisc =>
    rw [paysForResponse_of_dropped hphase hdisc]
    refine ⟨conserves_of_calls_eq (by rfl) ?_ l, ?_⟩
    · rw [calls_of_connected hphase]
      rfl
    · -- the number of the duplicate is free again
      intro other hother
      cases hother
      obtain ⟨hdistinct, hnumbered⟩ := h live hphase
      refine ⟨hdistinct, fun hroom => ?_⟩
      obtain ⟨hnumbered, hle⟩ := hnumbered hroom
      exact ⟨hnumbered.of_discarded List.filter_sublist, hle⟩
  | @delivered live call payload hfinds hresult hreads =>
    obtain ⟨hdistinct, hmem, hknown⟩ := hheld hfinds
    rw [paysForResponse_of_reads hfinds hresult hreads]
    exact ⟨conserves_settled hfinds.phase hdistinct hmem (l.grows_deliver call.id payload)
        (fun hne => l.get?_deliver_of_ne hne payload) (Ledger.isFinished_deliver hknown hreads),
      numberedIn_takeOut hfinds.phase h frame.sequence rfl⟩
  | @retried live call payload hfinds hresult hreads hbudget =>
    -- the call waits again, charged
    obtain ⟨hdistinct, hmem, -⟩ := hheld hfinds
    rw [paysForResponse_of_not_reads config hfinds hresult hreads, if_pos hbudget]
    exact ⟨conserves_retried hfinds.phase hdistinct hmem (l.grows_deliver call.id payload)
        (fun hne => l.get?_deliver_of_ne hne payload),
      numberedIn_takeOut hfinds.phase h frame.sequence rfl⟩
  | @unreadable live call payload e hfinds hresult he hbudget =>
    obtain ⟨hdistinct, hmem, hknown⟩ := hheld hfinds
    have hgrows := l.grows_deliver call.id payload
    rw [paysForResponse_of_not_reads config hfinds hresult (Ledger.reads_eq_false.mpr ⟨e, he⟩),
      if_neg (by simp [hbudget])]
    exact ⟨conserves_settled hfinds.phase hdistinct hmem (hgrows.trans (Ledger.grows_fail _ _ _))
        (fun hne => (Ledger.get?_fail_of_ne _ hne e).trans (l.get?_deliver_of_ne hne payload))
        (Ledger.isFinished_fail_of_knows (hgrows.knows hknown) e),
      numberedIn_takeOut hfinds.phase h frame.sequence rfl⟩
  | refused hfinds hresult =>
    -- the call waits again, as it was
    obtain ⟨hdistinct, hmem, -⟩ := hheld hfinds
    rw [paysForResponse_of_error hfinds hresult]
    exact ⟨conserves_refused hfinds.phase hdistinct hmem l,
      numberedIn_takeOut hfinds.phase h frame.sequence rfl⟩
  | @rejected live call e hfinds hresult _ hversion =>
    obtain ⟨hdistinct, hmem, hknown⟩ := hheld hfinds
    have hcalls := calls_answered hfinds.phase hdistinct hmem
    have hsettled : Conserves exact [] c l _ (l.fail call.id e) :=
      conserves_settled hfinds.phase hdistinct hmem (l.grows_fail call.id e)
        (fun hne => l.get?_fail_of_ne hne e) (Ledger.isFinished_fail_of_knows hknown e)
    -- the others that are in flight fail as well, and no call pays
    have hlost : Conserves exact _ _ _ _ _ := conserves_lose config e
      (c := { c with phase := .connected (live.takeOut frame.sequence) })
      (l := l.fail call.id e) fun other hother =>
        (l.grows_fail call.id e).knows
          (hk other (hcalls.symm.subset (List.mem_cons_of_mem _ hother)))
    rw [paysForLoss_of_connected rfl, hversion, Bool.or_true, if_pos rfl] at hlost
    rw [paysForResponse_of_error hfinds hresult]
    exact ⟨hsettled.trans hlost, numberedIn_of_live?_eq_none (live?_lose e _) effects⟩
  | @failed live call e hfinds hresult =>
    obtain ⟨hdistinct, hmem, hknown⟩ := hheld hfinds
    rw [paysForResponse_of_error hfinds hresult]
    exact ⟨conserves_settled hfinds.phase hdistinct hmem (l.grows_fail call.id e)
        (fun hne => l.get?_fail_of_ne hne e) (Ledger.isFinished_fail_of_knows hknown e),
      numberedIn_takeOut hfinds.phase h frame.sequence rfl⟩

theorem grows_respond (config : PoolConfig) (frame : ResponseFrame) (c : Connection) (l : Ledger) :
    l.Grows (c.respond config frame l).ledger := by
  have hresponded := responded config frame c l
  generalize c.respond config frame l = moved at *
  cases hresponded with
  | ignored _ => exact Ledger.Grows.refl l
  | dropped _ _ => exact Ledger.Grows.refl l
  | delivered _ _ _ => exact Ledger.grows_deliver l _ _
  | retried _ _ _ _ => exact Ledger.grows_deliver l _ _
  | unreadable _ _ _ _ => exact (Ledger.grows_deliver l _ _).trans (Ledger.grows_fail _ _ _)
  | refused _ _ _ => exact Ledger.Grows.refl l
  | rejected _ _ _ _ => exact (Ledger.grows_fail l _ _).trans (grows_lose config _ _ _)
  | failed _ _ _ _ => exact Ledger.grows_fail l _ _

/-- No call is touched that the connection does not hold. -/
theorem get?_respond (frame : ResponseFrame) {id : CallId} (h : id ∉ c.calls.map (·.id))
    (l : Ledger) : (c.respond config frame l).ledger.get? id = l.get? id := by
  have hother : ∀ {live : Live} {call : PendingCall}, c.Finds frame live call → id ≠ call.id := by
    rintro live call hfinds rfl
    refine h (List.mem_map_of_mem ?_)
    rw [calls_of_connected hfinds.phase]
    exact List.mem_append_left _ (List.mem_map_of_mem (f := Prod.snd) (mem_of_callAt? hfinds.found))
  have hresponded := responded config frame c l
  generalize c.respond config frame l = moved at *
  cases hresponded with
  | ignored _ | dropped _ _ | refused _ _ _ => rfl
  | delivered hfinds _ _ | retried hfinds _ _ _ =>
    exact Ledger.get?_deliver_of_ne l (hother hfinds) _
  | unreadable hfinds _ _ _ =>
    rw [Ledger.get?_fail_of_ne _ (hother hfinds), Ledger.get?_deliver_of_ne l (hother hfinds)]
  | @rejected live call e hfinds _ _ _ =>
    -- a call that is left on the link was held before
    have hrest : id ∉ ({ c with phase := .connected (live.takeOut frame.sequence) } :
        Connection).calls.map (·.id) := by
      intro hmem
      refine h ((List.Sublist.map _ ?_).subset hmem)
      rw [calls_of_connected hfinds.phase, calls_of_connected rfl]
      exact (List.filter_sublist.map _).append_right _
    rw [get?_lose e hrest]
    exact Ledger.get?_fail_of_ne l (hother hfinds) e
  | failed hfinds _ _ _ => exact Ledger.get?_fail_of_ne l (hother hfinds) _

/-! ## §4. Giving up, and changes of the directory. -/

theorem unsettled_eraseP {id : CallId} (hfin : l.isFinished id = true)
    (calls : List PendingCall) :
    l.unsettled (calls.eraseP (·.id == id)) = l.unsettled calls := by
  induction calls with
  | nil => rfl
  | cons call rest ih =>
    rw [List.eraseP_cons]
    cases hid : call.id == id with
    | true =>
      -- the call that is erased has an outcome, so it need not be held
      have heq : call.id = id := by simpa using hid
      rw [Ledger.unsettled_cons_of_isFinished (heq ▸ hfin)]
      rfl
    | false =>
      unfold Ledger.unsettled at ih ⊢
      rw [cond_false, List.filter_cons, List.filter_cons, ih]

/-- **Letting go of a settled call loses and doubles no call.** -/
theorem conserves_cancel {env : Surroundings} {id : CallId} {c' : Connection}
    {sent : List Effect} (hcancel : c.cancel? env id = some (c', sent))
    (hfin : l.isFinished id = true) (h : c.NumberedIn effects) :
    Conserves exact [] c l c' l ∧ c'.NumberedIn effects := by
  cases letGo hcancel with
  | waiting =>
    refine ⟨conserves_of_perm rfl (Ledger.Grows.refl l) ?_ ?_ fun _ => rfl, h⟩
    · show (l.unsettled (c.inFlight ++ c.waiting.eraseP (·.id == id))).Perm
        (l.unsettled (c.inFlight ++ c.waiting))
      rw [Ledger.unsettled_append, unsettled_eraseP hfin, ← Ledger.unsettled_append]
    · intro call hmem
      rcases List.mem_append.mp hmem with hflight | hwaiting
      · exact ⟨call, List.mem_append_left _ hflight, rfl⟩
      · exact ⟨call, List.mem_append_right _ (List.mem_of_mem_eraseP hwaiting), rfl⟩
  | @inFlight live n call hphase hmem hid =>
    exact ⟨conserves_settled hphase (h live hphase).1 hmem (Ledger.Grows.refl l) (fun _ => rfl)
        (hid ▸ hfin), numberedIn_takeOut hphase h n rfl⟩

/-- **A link that is attached takes over the calls that wait.** -/
theorem conserves_attach (h : c.live? = none) (peer : PeerName) (link : LinkId) (l : Ledger)
    (effects : List Effect) :
    Conserves exact [] c l (c.attach peer link).1 l
      ∧ (c.attach peer link).1.NumberedIn effects := by
  refine ⟨conserves_of_calls_eq (by rfl) ?_ l, ?_⟩
  · rw [calls_of_live?_eq_none h]
    rfl
  · intro live hphase
    cases hphase
    exact ⟨List.nodup_nil, fun _ => ⟨Live.numbered_new peer link, Nat.zero_le _⟩⟩

/-- The calls that pay when the directory changes. -/
def paysForDirectory (env : Surroundings) (c : Connection) : List PendingCall :=
  match c.phase with
  | .connected live =>
    if (env.lookup c.key.agent).any (·.same live.peer) then [] else c.inFlight
  | _ => []

theorem paysForDirectory_of_connected {live : Live} (h : c.phase = .connected live)
    (env : Surroundings) :
    c.paysForDirectory env
      = if (env.lookup c.key.agent).any (·.same live.peer) then [] else c.inFlight := by
  unfold paysForDirectory
  rw [h]

/-- When a link is lost without a fault, those in flight pay. -/
theorem paysForLoss_of_withdrawn {live : Live} (h : c.phase = .connected live) (text : String)
    (looking : Bool) : paysForLoss (.connectionFailed text) { c with looking } = c.inFlight :=
  paysForLoss_of_connected (c := { c with looking }) h (.connectionFailed text)

/-- A connection that keeps its link pays nothing. -/
theorem paysForDirectory_of_kept {env : Surroundings}
    (h : ∀ live, c.phase = .connected live →
      (env.lookup c.key.agent).any (·.same live.peer) = true) : c.paysForDirectory env = [] := by
  unfold paysForDirectory
  split
  · next live hphase => exact if_pos (h live hphase)
  · rfl

theorem paysForDirectory_of_connecting {candidates : List PeerName}
    (h : c.phase = .connecting candidates) (env : Surroundings) : c.paysForDirectory env = [] := by
  unfold paysForDirectory
  rw [h]

theorem grows_reconsider (env : Surroundings) (config : PoolConfig) (now : Time) (c : Connection)
    (l : Ledger) : l.Grows (c.reconsider env config now l).ledger := by
  have hreconsidered := reconsidered env config now c l
  generalize c.reconsider env config now l = moved at *
  cases hreconsidered with
  | kept _ | restarted _ => exact Ledger.Grows.refl l
  | withdrawn _ _ => exact grows_lose config _ _ l

theorem get?_reconsider {env : Surroundings} {now : Time} (c : Connection) (l : Ledger)
    {id : CallId} (h : id ∉ c.calls.map (·.id)) :
    (c.reconsider env config now l).ledger.get? id = l.get? id := by
  have hreconsidered := reconsidered env config now c l
  generalize c.reconsider env config now l = moved at *
  cases hreconsidered with
  | kept _ | restarted _ => rfl
  | withdrawn _ _ => exact get?_lose _ (c := { c with looking := false }) h l

/-- **A change of the directory loses and doubles no call.** -/
theorem conserves_reconsider (env : Surroundings) (config : PoolConfig) (now : Time)
    (h : c.NumberedIn effects) (hk : ∀ call ∈ c.calls, l.knows call.id = true) :
    Conserves exact (c.paysForDirectory env) c l (c.reconsider env config now l).connection
        (c.reconsider env config now l).ledger
      ∧ (c.reconsider env config now l).connection.NumberedIn effects := by
  have hreconsidered := reconsidered env config now c l
  generalize c.reconsider env config now l = moved at *
  cases hreconsidered with
  | kept hlisted =>
    rw [paysForDirectory_of_kept hlisted]
    exact ⟨conserves_of_calls_eq (by rfl) (by rfl) l, h⟩
  | @withdrawn live hphase hgone =>
    have hlost : Conserves exact _ _ l _ _ := conserves_lose config
      (.connectionFailed s!"{c.key.agent.text} no longer advertised at {live.peer.text}")
      (c := { c with looking := false }) (l := l) hk
    rw [paysForLoss_of_withdrawn hphase] at hlost
    rw [paysForDirectory_of_connected hphase, if_neg (by simp [hgone])]
    exact ⟨hlost.of_eq rfl rfl, numberedIn_of_live?_eq_none (live?_lose _ l) effects⟩
  | restarted hphase =>
    rw [paysForDirectory_of_connecting hphase]
    refine ⟨conserves_of_calls_eq (by rfl) ?_ l, numberedIn_of_live?_eq_none rfl effects⟩
    rw [calls_of_live?_eq_none (live?_of_connecting hphase)]
    rfl

end Connection

end RemoteCall
