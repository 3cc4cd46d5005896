/-
  RemoteCall.Proofs.Server.Balance
  ────────────────────────────────
  **THE BALANCE OF A WORKER'S CALLS.**

  A worker hands calls to the service and finishes them.  What it has
  outstanding is the difference, after each of its steps:

      outstanding before + dispatched  =  outstanding afterwards + finished

  A call that the service rejects is dispatched and finished at once.  A
  resolution that comes too late finishes nothing.  A resolution that finds an
  entry takes out one call and no other, since the numbers of the outstanding
  calls are distinct; so this is kept along with the balance (`Balances`).

  The counters of an endpoint see each dispatch and each end of a call.

  Main statements:
    • `Balances.trans`             — steps follow each other,
    • `balances_complete`          — a resolution is taken up,
    • `balances_pump`              — the frames of the receive buffer,
    • `balances_step`              — one step of the worker,
    • `Counters.dispatched_countAll`, `Counters.ended_countAll` — what is counted.
-/
import RemoteCall.Proofs.Server.Taking
import RemoteCall.Server.Endpoint

namespace RemoteCall

namespace Worker

variable {σ : Type} {service : Service σ} {limits : EndpointConfig} {shutdown : Bool}
  {v v' w w' w'' : Worker σ} {effects more : List WorkerEffect}

/-! ## §1. Balances. -/

/-- The sequence numbers of the outstanding calls are distinct. -/
def Distinct (w : Worker σ) : Prop := (w.outstanding.map (·.1)).Nodup

/-- A worker with distinct outstanding calls has come from `w` to `w'` and has done this. -/
structure Balances (effects : List WorkerEffect) (w w' : Worker σ) : Prop where
  distinct : Distinct w'
  calls : w.outstanding.length + (dispatchesIn effects).length
    = w'.outstanding.length + (finishedIn effects).length

/-- Nothing is dispatched and nothing is finished. -/
theorem Balances.quiet (h : Distinct w) (houtstanding : w'.outstanding = w.outstanding)
    (hdispatched : dispatchesIn effects = []) (hfinished : finishedIn effects = []) :
    Balances effects w w' := by
  refine ⟨?_, ?_⟩
  · unfold Distinct
    rw [houtstanding]
    exact h
  · rw [houtstanding, hdispatched, hfinished]
    rfl

/-- **Steps follow each other.** -/
theorem Balances.trans (h : Balances effects w w') (h' : Balances more w' w'') :
    Balances (effects ++ more) w w'' := by
  refine ⟨h'.distinct, ?_⟩
  have hfirst := h.calls
  have hsecond := h'.calls
  rw [dispatchesIn_append, finishedIn_append, List.length_append, List.length_append]
  omega

/-- What is not outstanding may change besides, before and afterwards. -/
theorem Balances.of_eq (h : Balances effects w w') (hbefore : v.outstanding = w.outstanding)
    (hafter : v'.outstanding = w'.outstanding) : Balances effects v v' := by
  refine ⟨?_, ?_⟩
  · unfold Distinct
    rw [hafter]
    exact h.distinct
  · rw [hbefore, hafter]
    exact h.calls

/-! ## §2. One call. -/

/-- A call that is handed over under a free number keeps the numbers distinct. -/
theorem Distinct.hand (h : Distinct w) {n : SequenceNumber} (hfree : w.outstanding? n = none)
    (ticket : Ticket) : ((w.outstanding ++ [(n, ticket)]).map (·.1)).Nodup := by
  rw [List.map_append, List.nodup_append]
  refine ⟨h, List.nodup_singleton n, ?_⟩
  intro number hnumber number' hnumber'
  obtain ⟨entry, hentry, rfl⟩ := List.mem_map.mp hnumber
  rw [List.mem_singleton.mp hnumber']
  exact ne_of_outstanding?_eq_none hfree hentry

/-- **A call is handed to the service.**  It is outstanding, or rejected and finished at once; if
its number is taken it is a fault. -/
theorem balances_dispatch (h : Distinct w) (service : Service σ) (limits : EndpointConfig)
    (shutdown : Bool) (frame : RequestFrame) :
    Balances (w.dispatch service limits shutdown frame).effects w
      (w.dispatch service limits shutdown frame).worker := by
  cases hfree : w.outstanding? frame.sequence with
  | some ticket =>
    unfold dispatch
    dsimp only
    rw [hfree]
    exact .quiet h rfl rfl rfl
  | none =>
    have hover := handedOver service shutdown frame w
    rw [dispatch_eq hfree]
    dsimp only
    cases hverdict : (w.dispatchOf service shutdown frame).verdict with
    | ok _ =>
      refine ⟨?_, ?_⟩
      · unfold Distinct
        rw [hover.outstanding, hover.entry]
        exact h.hand hfree w.nextTicket
      · rw [hover.outstanding, List.length_append]
        rfl
    | error e =>
      have hfreed : ((w.handOver service shutdown frame).outstanding.filter
          (·.1 != frame.sequence)) = w.outstanding := by
        rw [hover.outstanding, hover.entry]
        exact filter_outstanding_of_free hfree w.nextTicket
      refine ⟨?_, ?_⟩
      · show (List.map _ (List.filter _ _)).Nodup
        rw [hfreed]
        exact h
      · show w.outstanding.length + 1 = (List.filter _ _).length + 1
        rw [hfreed]

/-- **A resolution is taken up.**  It finishes the call under its number, if there is one. -/
theorem balances_complete (h : Distinct w) (limits : EndpointConfig) (done : Completed) :
    Balances (w.complete limits done).2 w (w.complete limits done).1 := by
  cases hfind : w.outstanding? done.call.sequence with
  | none =>
    rw [complete_eq_self hfind]
    exact .quiet h rfl rfl rfl
  | some ticket =>
    rw [complete_eq hfind]
    refine ⟨h.sublist (List.filter_sublist.map _), ?_⟩
    have hlength := (perm_cons_filter_of_nodup h (mem_of_find?_key hfind)).length_eq
    have hdispatched : dispatchesIn (.finished done.call done.outcome
        :: (w.answers done).map .queued) = [] := dispatchesIn_map_queued _
    have hfinished : finishedIn (.finished done.call done.outcome
        :: (w.answers done).map .queued) = [done] :=
      congrArg (done :: ·) (finishedIn_map_queued _)
    rw [hdispatched, hfinished]
    exact hlength

/-! ## §3. Frames. -/

/-- To revoke answers leaves what is outstanding. -/
theorem outstanding_revoke (w : Worker σ) (n : SequenceNumber) :
    (w.revoke n).outstanding = w.outstanding := by
  rw [revoke_eq]

theorem outstanding_revokeAll (w : Worker σ) (ns : List SequenceNumber) :
    (w.revokeAll ns).outstanding = w.outstanding := by
  unfold revokeAll
  induction ns generalizing w with
  | nil => rfl
  | cons n ns ih => exact (ih (w.revoke n)).trans (outstanding_revoke w n)

/-- To check a version is neither to dispatch nor to finish a call. -/
theorem balances_checkVersion (h : Distinct w) (service : Service σ) (limits : EndpointConfig)
    (frame : RequestFrame) :
    Balances (w.checkVersion service limits frame).effects w
      (w.checkVersion service limits frame).worker := by
  unfold checkVersion
  cases w.version with
  | some expected =>
    dsimp only
    split <;> exact .quiet h rfl rfl rfl
  | none =>
    dsimp only
    split <;> exact .quiet h rfl rfl rfl

/-- **A frame is taken in.** -/
theorem balances_takeIn (h : Distinct w) (service : Service σ) (limits : EndpointConfig)
    (shutdown : Bool) (frame : RequestFrame) :
    Balances (w.takeIn service limits shutdown frame).effects w
      (w.takeIn service limits shutdown frame).worker := by
  have hchecked := balances_checkVersion h service limits frame
  unfold takeIn
  generalize w.checkVersion service limits frame = checked at *
  obtain ⟨w', fault, effects⟩ := checked
  cases fault with
  | some e => exact hchecked
  | none =>
    cases frame.kind with
    | cancel => exact hchecked.of_eq rfl (outstanding_revoke w' frame.sequence)
    | call => exact hchecked.trans (balances_dispatch hchecked.distinct service limits shutdown frame)

/-- **Frames are taken off a buffer.** -/
theorem balances_pumpFrom (h : Distinct w) (service : Service σ) (limits : EndpointConfig)
    (shutdown : Bool) (buffer : Bytes) :
    Balances (w.pumpFrom service limits shutdown buffer).effects w
      (w.pumpFrom service limits shutdown buffer).worker := by
  -- each frame shortens the buffer
  induction hlength : buffer.length using Nat.strongRecOn generalizing buffer w with
  | ind n ih =>
    rw [pumpFrom]
    split
    · exact .quiet h (outstanding_revokeAll w _) rfl rfl
    · split
      · exact .quiet h rfl rfl rfl
      · exact .quiet h rfl rfl rfl
      · next frame rest hframe =>
        have htaken := balances_takeIn h service limits shutdown frame
        generalize w.takeIn service limits shutdown frame = admitted at *
        obtain ⟨w', fault, effects⟩ := admitted
        cases fault with
        | some e => exact htaken
        | none =>
          have hshorter : rest.length < n := hlength ▸ Frame.length_of_decodeWith hframe
          exact htaken.trans (ih rest.length hshorter htaken.distinct rest rfl)

/-- **The frames of the receive buffer are taken**, and after a fault nothing more is read. -/
theorem balances_pump (h : Distinct w) (service : Service σ) (limits : EndpointConfig)
    (shutdown : Bool) :
    Balances (w.pump service limits shutdown).2 w (w.pump service limits shutdown).1 := by
  have hpumped := balances_pumpFrom h service limits shutdown w.received
  unfold pump
  generalize w.pumpFrom service limits shutdown w.received = pumped at *
  obtain ⟨w', buffer, fault, effects⟩ := pumped
  cases fault with
  | none => exact hpumped.of_eq rfl rfl
  | some e => exact hpumped.of_eq rfl rfl

/-- The calls that are left at the end are neither dispatched nor finished. -/
theorem balances_refuseFrom (h : Distinct w) (limits : EndpointConfig) (buffer : Bytes) :
    Balances (w.refuseFrom limits buffer).effects w (w.refuseFrom limits buffer).worker := by
  induction hlength : buffer.length using Nat.strongRecOn generalizing buffer w with
  | ind n ih =>
    rw [refuseFrom]
    split
    · exact .quiet h rfl rfl rfl
    · exact .quiet h rfl rfl rfl
    · next frame rest hframe =>
      have hshorter : rest.length < n := hlength ▸ Frame.length_of_decodeWith hframe
      split
      · have hrevoked : Balances [] w (w.revoke frame.sequence) :=
          .quiet h (outstanding_revoke w frame.sequence) rfl rfl
        exact hrevoked.trans (ih rest.length hshorter hrevoked.distinct rest rfl)
      · have hqueued : Balances (w.queue limits (.failure frame.sequence .shuttingDown)).2 w
            (w.queue limits (.failure frame.sequence .shuttingDown)).1 := .quiet h rfl rfl rfl
        exact hqueued.trans (ih rest.length hshorter hqueued.distinct rest rfl)

/-! ## §4. Steps. -/

/-- **One step of a worker**, whatever it is, and whether it may be made now. -/
theorem balances_step (h : Distinct w) (service : Service σ) (limits : EndpointConfig)
    (shutdown : Bool) (event : Event) :
    Balances (w.step service limits shutdown event).2 w
      (w.step service limits shutdown event).1 := by
  cases event with
  | lost => exact .quiet h rfl rfl rfl
  | writeFailed => exact .quiet h rfl rfl rfl
  | wrote count => exact .quiet h rfl rfl rfl
  | received chunk =>
    have hreceived : Distinct { w with received := w.received ++ chunk } := h
    exact (balances_pump hreceived service limits shutdown).of_eq rfl rfl
  | shutdown =>
    have hstopped : Distinct { w with reading := false } := h
    exact (balances_refuseFrom hstopped limits w.received).of_eq rfl rfl
  | drained =>
    unfold step
    cases w.completions with
    | nil => exact .quiet h rfl rfl rfl
    | cons done later =>
      have hpopped : Distinct { w with completions := later } := h
      have htaken := balances_complete hpopped limits done
      dsimp only
      generalize ({ w with completions := later } : Worker σ).complete limits done = result at *
      obtain ⟨w', effects⟩ := result
      dsimp only at htaken ⊢
      -- a freed place may let a call in that is in the buffer already
      by_cases hreads : w'.reading = true
      · rw [if_pos hreads]
        exact (htaken.trans (balances_pump htaken.distinct service limits shutdown)).of_eq rfl rfl
      · rw [if_neg hreads]
        exact htaken.of_eq rfl rfl

end Worker

/-! ## §5. Counters. -/

namespace Counters

open Worker (dispatchesIn finishedIn)

/-- What a worker does opens and closes no connection. -/
theorem connections_countAll (c : Counters) (effects : List WorkerEffect) :
    (c.countAll effects).accepted = c.accepted ∧ (c.countAll effects).active = c.active := by
  unfold countAll
  induction effects generalizing c with
  | nil => exact ⟨rfl, rfl⟩
  | cons effect effects ih =>
    obtain ⟨haccepted, hactive⟩ := ih (c.count effect)
    have hsame : (c.count effect).accepted = c.accepted ∧ (c.count effect).active = c.active := by
      unfold count
      split <;> exact ⟨rfl, rfl⟩
    exact ⟨haccepted.trans hsame.1, hactive.trans hsame.2⟩

/-- **Each call that is handed over is counted.** -/
theorem dispatched_countAll (c : Counters) (effects : List WorkerEffect) :
    (c.countAll effects).dispatched = c.dispatched + (dispatchesIn effects).length := by
  unfold countAll
  induction effects generalizing c with
  | nil => rfl
  | cons effect effects ih =>
    rw [List.foldl_cons, ih]
    cases effect with
    | dispatched incoming fate verdict =>
      show c.dispatched + 1 + _ = c.dispatched + ((dispatchesIn effects).length + 1)
      omega
    | finished call outcome => cases outcome <;> rfl
    | consulted version supported => rfl
    | queued frame => rfl

/-- **Each call that ends is counted**, as completed or as failed. -/
theorem ended_countAll (c : Counters) (effects : List WorkerEffect) :
    (c.countAll effects).completed + (c.countAll effects).failed
      = c.completed + c.failed + (finishedIn effects).length := by
  unfold countAll
  induction effects generalizing c with
  | nil => rfl
  | cons effect effects ih =>
    rw [List.foldl_cons, ih]
    cases effect with
    | finished call outcome =>
      have hone : (finishedIn (.finished call outcome :: effects)).length
          = (finishedIn effects).length + 1 := rfl
      rw [hone]
      cases outcome with
      | ok payload =>
        show c.completed + 1 + c.failed + _ = _
        omega
      | error e =>
        show c.completed + (c.failed + 1) + _ = _
        omega
    | dispatched incoming fate verdict => rfl
    | consulted version supported => rfl
    | queued frame => rfl

end Counters

end RemoteCall
