/-
  RemoteCall.Proofs.Link.Verbatim
  ───────────────────────────────
  **THE FAILURE OF A CALL REACHES ITS CALLER.**

  When a service fails a call, its failure crosses the link as a code and a
  message.  They arrive as they were sent, under the number of the call, and
  settle the call of that number and nothing else:

      service:  e   →   frame:  wireCode e, wireMessage e   →   caller:  .remote

  Three codes are an exception (`Failure.isSignal`).  With them an endpoint
  speaks of itself: it shuts down, or does not speak the version.  A connection
  looks at the code only, so it takes the failure of a service that has one of
  these codes for the word of the endpoint
  (`signals_of_services_are_taken_for_the_endpoint`).

  Main statements:
    • `FailureArrives.frame_eq`          — which response it is that arrives,
    • `failures_are_passed_on_verbatim`  — what becomes of the call, and of others.
-/
import RemoteCall.Proofs.Frame.Failures
import RemoteCall.Proofs.Link.Onward
import RemoteCall.Proofs.Pool.Acting
import RemoteCall.Proofs.Server.Admission

namespace RemoteCall

/-! ## §1. Failures on the wire. -/

namespace Failure

/-- Whether a failure has one of the codes with which an endpoint speaks of itself. -/
def isSignal (e : Failure) : Bool :=
  e.wireCode == WireCode.shuttingDown || e.wireCode == WireCode.unsupportedVersion
    || e.wireCode == WireCode.versionMismatch

end Failure

/-- What is shown for a response has its number. -/
theorem Worker.sequence_of_shown {limits : EndpointConfig} {frame other : ResponseFrame}
    (h : other ∈ shown limits frame) : other.sequence = frame.sequence := by
  unfold shown at h
  dsimp only at h
  split at h
  · rw [List.mem_singleton.mp h]
  · split at h
    · rw [List.mem_singleton.mp h]
      rfl
    · cases h

/-- What fits is shown as it is. -/
theorem Worker.shown_of_le {limits : EndpointConfig} {frame : ResponseFrame}
    (h : frame.bodyLength ≤ limits.maxMessageSize) : shown limits frame = [frame] := by
  unfold shown
  dsimp only
  rw [if_pos h]

/-! ## §2. The response to a call that has failed. -/

namespace Exchange

variable {σ : Type} {service : Service σ} {limits : EndpointConfig} {config : PoolConfig}
  {effects : List Effect} {history : List (Worker.Moment σ)} {x : Exchange σ}
  {frame : ResponseFrame} {live : Live} {call : PendingCall} {d : Worker.Dispatch} {e : Failure}

/-- The oldest response is that to a call which is in flight and has no outcome.  The service was
handed a call under its number and has come to a failure, by rejecting the call or by failing it
later; the response that tells of it fits. -/
structure FailureArrives (service : Service σ) (limits : EndpointConfig)
    (history : List (Worker.Moment σ)) (x : Exchange σ) (frame : ResponseFrame) (live : Live)
    (call : PendingCall) (d : Worker.Dispatch) (e : Failure) : Prop where
  next : x.responses.head? = some frame
  phase : x.caller.phase = .connected live
  inFlight : live.callAt? frame.sequence = some call
  issued : x.ledger.knows call.id = true
  unsettled : x.ledger.isFinished call.id = false
  dispatched : d ∈ Worker.dispatchesIn (Worker.effectsOf service limits history)
  sequence : d.call.sequence = frame.sequence
  failed : Worker.ComesTo (Worker.resolutionsOf service limits history) d (.error e)
  fits : (ResponseFrame.failure frame.sequence e).bodyLength ≤ limits.maxMessageSize

/-- Fewer than 2^64 numbers are used on the link, and all frames have less than 2³² bytes. -/
structure Sizes (service : Service σ) (limits : EndpointConfig) (effects : List Effect)
    (history : List (Worker.Moment σ)) : Prop where
  numbers : Suffices effects
  requests : ∀ frame ∈ handedIn effects, frame.bodyLength < 2 ^ 32
  responses : ∀ frame ∈ Worker.queuedIn (Worker.effectsOf service limits history),
    frame.bodyLength < 2 ^ 32

/-- **The service was handed the request of the call** in flight under the number. -/
theorem FailureArrives.own (h : FailureArrives service limits history x frame live call d e)
    (run : Run service limits config effects history x)
    (hsizes : Sizes service limits effects history) :
    d.asks = (frame.sequence, x.caller.key.interface, call.request) := by
  have hsaid := run.dealt hsizes.numbers
  have hwell := run.wellFormed hsizes.numbers hsizes.requests limits.maxMessageSize
  obtain ⟨taken, turned, hstanding⟩ := run.served.stands hwell
  have hsent := (hsaid.live live h.phase).sent frame.sequence call (mem_of_find?_key h.inFlight)
  obtain ⟨request, hrequest, hasks⟩ := hstanding.asked h.dispatched
  -- both are about the one request with that number
  have hhanded : request ∈ callsIn (handedIn effects) :=
    ((run.arrived hsizes.numbers hsizes.requests limits.maxMessageSize).filter _).subset hrequest
  have hown : RequestFrame.call x.caller.key.interface frame.sequence call.request
      ∈ callsIn (handedIn effects) :=
    List.mem_filter.mpr ⟨List.mem_filterMap.mpr ⟨_, hsent, rfl⟩, rfl⟩
  have hnumber : request.sequence = frame.sequence :=
    (congrArg Prod.fst hasks).symm.trans h.sequence
  obtain rfl := List.inj_on_of_nodup_map hsaid.numbers hhanded hown hnumber
  exact hasks

/-- **The response that arrives** is that with the failure of the service. -/
theorem FailureArrives.frame_eq (h : FailureArrives service limits history x frame live call d e)
    (run : Run service limits config effects history x)
    (hsizes : Sizes service limits effects history) :
    frame = .failure frame.sequence e := by
  have hwell := run.wellFormed hsizes.numbers hsizes.requests limits.maxMessageSize
  obtain ⟨taken, turned, hstanding⟩ := run.served.stands hwell
  have hspoken : service.supports x.caller.key.interface = true := by
    have hspeaks := run.served.speaks.2 d h.dispatched
    have hinterface : d.call.interface = x.caller.key.interface :=
      congrArg (·.2.1) (h.own run hsizes)
    rw [← hinterface]
    exact hspeaks
  have hframe : frame ∈ x.responses := List.mem_of_mem_head? h.next
  obtain ⟨queued, hqueued, hshown⟩ := run.shown hstanding hsizes.responses hframe
  have hnumber := Worker.sequence_of_shown hshown
  rcases List.mem_append.mp (hstanding.books.answers.subset hqueued) with hanswer | hrefusal
  · -- it is the answer to a call under the same number, so to the same call
    obtain ⟨done, hdone, rfl⟩ := List.mem_map.mp hanswer
    obtain ⟨d', hd', hcall, hcomes⟩ := hstanding.books.outcomes done hdone
    rw [Worker.sequence_answerTo, ← hcall] at hnumber
    obtain rfl : d' = d := List.inj_on_of_nodup_map (hstanding.dispatched_nodup hwell) hd'
      h.dispatched (hnumber.symm.trans h.sequence.symm)
    have houtcome : done.outcome = .error e := hstanding.eq_of_comesTo hwell hcomes h.failed
    have hfailure : Worker.answerTo done = .failure frame.sequence e := by
      unfold Worker.answerTo
      rw [← hcall, h.sequence, houtcome]
      rfl
    rw [hfailure, Worker.shown_of_le h.fits] at hshown
    exact List.mem_singleton.mp hshown
  · -- a call that was refused has another number
    obtain ⟨refused, hrefused, rfl⟩ := List.mem_map.mp hrefusal
    exact absurd (h.sequence.trans hnumber) (hstanding.apart hspoken hwell h.dispatched hrefused)

/-- What the connection makes of the response. -/
theorem FailureArrives.responded (h : FailureArrives service limits history x frame live call d e)
    (run : Run service limits config effects history x)
    (hsizes : Sizes service limits effects history) :
    x.caller.Finds frame live call
      ∧ frame.result = .error (.remote e.wireCode e.wireMessage) := by
  refine ⟨run.finds hsizes.numbers h.phase h.inFlight, ?_⟩
  rw [h.frame_eq run hsizes]
  exact ResponseFrame.result_of_failure _ e

/-- When the oldest response is looked at, the connection responds to it. -/
theorem moveOf_looked (config : PoolConfig) (h : x.responses.head? = some frame) :
    x.moveOf config .looked = x.caller.respond config frame x.ledger := by
  obtain ⟨later, hnext⟩ := List.head?_eq_some_iff.mp h
  unfold moveOf
  dsimp only
  rw [hnext]

/-! ## §3. What becomes of the call, and of others. -/

/-- A failure has settled its call, with its code and its message, and nothing else is touched: the
call is in flight no more, and everything else is as it was. -/
structure PassedOn (n : SequenceNumber) (live : Live) (call : PendingCall) (e : Failure)
    (x y : Exchange σ) : Prop where
  outcome : y.ledger.failure? call.id = some (.remote e.wireCode e.wireMessage)
  others : ∀ {id}, id ≠ call.id → y.ledger.get? id = x.ledger.get? id
  connection : y.caller = { x.caller with phase := .connected (live.takeOut n) }

/-- **A failure of a service is passed on verbatim.**  Fewer than 2^64 numbers are used on the link,
and all frames have less than 2³² bytes.  The service rejects a call or fails it later, with a code
that is not one with which an endpoint speaks of itself, and the response finds the call in flight
and unsettled.  Then the service has seen the request of this call, and

  * the call is settled, with the code and the message of the failure,
  * nothing else is: no other call, no other connection of the pool, and nothing is sent,
  * however things go on, the call stays settled so, and is not sent again. -/
theorem failures_are_passed_on_verbatim (run : Run service limits config effects history x)
    (hsizes : Sizes service limits effects history)
    (h : FailureArrives service limits history x frame live call d e)
    (hverdict : e.isSignal = false) :
    d.incoming.payload = call.request
      ∧ PassedOn frame.sequence live call e x (x.act config .looked).1
      ∧ (x.act config .looked).2 = []
      ∧ (∀ p : Pool, p.config = config → p.ledger = x.ledger →
          p.connection? x.caller.key = some x.caller →
          ∃ q, p.notice (.response x.caller.key x.caller.generation frame) = (q, [])
            ∧ q.ledger = (x.act config .looked).1.ledger
            ∧ q.connection? x.caller.key = some (x.act config .looked).1.caller
            ∧ ∀ key, key ≠ x.caller.key → q.connection? key = p.connection? key)
      ∧ ∀ more y, Onward service limits config (x.act config .looked).1 more y →
          y.ledger.failure? call.id = some (.remote e.wireCode e.wireMessage)
            ∧ sentFor call.id more = 0 := by
  obtain ⟨hfinds, hresult⟩ := h.responded run hsizes
  obtain ⟨hcaller, hledger, heffects⟩ := act_eq config x .looked
  -- neither a refusal nor a rejection of the version, so the call fails
  unfold Failure.isSignal at hverdict
  rw [Bool.or_assoc, Bool.or_eq_false_iff] at hverdict
  have hrefusal : (Failure.remote e.wireCode e.wireMessage).isRefusal = false := hverdict.1
  have hversion : (Failure.remote e.wireCode e.wireMessage).isVersionRejection = false :=
    hverdict.2
  have hresponse : x.caller.respond config frame x.ledger
      = { connection := { x.caller with phase := .connected (live.takeOut frame.sequence) }
          ledger := x.ledger.fail call.id (.remote e.wireCode e.wireMessage) } := by
    rw [hfinds.respond_of_error hresult, if_neg (Bool.eq_false_iff.mp hrefusal),
      if_neg (Bool.eq_false_iff.mp hversion)]
  rw [moveOf_looked config h.next, hresponse] at hcaller hledger heffects
  have houtcome : (x.act config .looked).1.ledger.failure? call.id
      = some (.remote e.wireCode e.wireMessage) := by
    rw [hledger]
    exact Ledger.failure?_fail h.issued (Ledger.isOpen_iff.mpr h.unsettled) _
  refine ⟨congrArg (·.2.2) (h.own run hsizes), ⟨houtcome, ?_, hcaller⟩, heffects, ?_, ?_⟩
  · intro id hother
    rw [hledger]
    exact Ledger.get?_fail_of_ne x.ledger hother _
  · intro p hconfig hsame hconnection
    rw [Pool.notice_response hconnection, if_pos rfl, hconfig, hsame, hresponse, hcaller, hledger]
    exact ⟨_, rfl, rfl, Pool.connection?_settle hconnection _ rfl⟩
  · intro more y onward
    obtain ⟨hstays, hsilent⟩ := onward.settled (Ledger.isFinished_of_failure? houtcome)
    exact ⟨(congrArg (·.bind Entry.failure?) hstays).trans houtcome, hsilent⟩

/-- **A failure of a service that has one of three codes is taken for the word of the endpoint.**
With the first the call is sent again on another link, though it has run, and nothing is sent on
this link any more.  With the others the link is lost, and all that are in flight on it fail. -/
theorem signals_of_services_are_taken_for_the_endpoint
    (run : Run service limits config effects history x)
    (hsizes : Sizes service limits effects history)
    (h : FailureArrives service limits history x frame live call d e) :
    (e.wireCode = WireCode.shuttingDown →
      (x.act config .looked).1.ledger = x.ledger
      ∧ (x.act config .looked).1.caller
        = { x.caller with
            phase := .connected { live.takeOut frame.sequence with draining := true }
            waiting := x.caller.waiting ++ [call] })
    ∧ (e.wireCode = WireCode.unsupportedVersion ∨ e.wireCode = WireCode.versionMismatch →
      (x.act config .looked).1.caller.phase = .errored (.remote e.wireCode e.wireMessage)
      ∧ ∀ other ∈ live.calls, x.ledger.knows other.id = true →
        x.ledger.isFinished other.id = false →
        (x.act config .looked).1.ledger.failure? other.id
          = some (.remote e.wireCode e.wireMessage)) := by
  obtain ⟨hfinds, hresult⟩ := h.responded run hsizes
  obtain ⟨hcaller, hledger, -⟩ := act_eq config x .looked
  rw [moveOf_looked config h.next, hfinds.respond_of_error hresult] at hcaller hledger
  constructor
  · intro hcode
    have hrefusal : (Failure.remote e.wireCode e.wireMessage).isRefusal = true :=
      beq_iff_eq.mpr hcode
    rw [if_pos hrefusal] at hcaller hledger
    exact ⟨hledger, hcaller⟩
  · intro hcode
    have hrefusal : (Failure.remote e.wireCode e.wireMessage).isRefusal = false := by
      show (e.wireCode == WireCode.shuttingDown) = false
      rcases hcode with hcode | hcode <;> rw [hcode] <;> rfl
    have hversion : (Failure.remote e.wireCode e.wireMessage).isVersionRejection = true := by
      show (e.wireCode == WireCode.unsupportedVersion || e.wireCode == WireCode.versionMismatch)
        = true
      rcases hcode with hcode | hcode <;> rw [hcode] <;> rfl
    rw [if_neg (Bool.eq_false_iff.mp hrefusal), if_pos hversion,
      Connection.lose_at_fault rfl (by rw [hversion, Bool.or_true])] at hcaller hledger
    rw [hcaller, hledger]
    refine ⟨rfl, fun other hother hknown hopen => ?_⟩
    -- the call and the others are those that were in flight
    let left : Connection := { x.caller with phase := .connected (live.takeOut frame.sequence) }
    have hcalls : live.calls.Perm (call :: left.inFlightByAge) :=
      (Connection.calls_takeOut (run.numbered hsizes.numbers h.phase).distinct
        (Connection.mem_of_callAt? h.inFlight)).trans
        ((Connection.inFlightByAge_perm left).symm.cons call)
    exact Ledger.failure?_failAll ((hcalls.map (·.id)).subset (List.mem_map_of_mem hother)) hknown
      hopen _

section OneFailure

/-- The link of a connection that has sent a call. -/
def oneSent : Live :=
  { peer := .unix ⟨"/agent"⟩, link := 3, next := 1, inFlight := [(0, ⟨1, [7], none, false, 0⟩)] }

/-- The service keeps a call, and fails it later with a code of an application: the caller gets the
code and the message. -/
theorem failures_are_passed_on_verbatim_when_application :
    ∃ (effects : List Effect) (history : List (Worker.Moment Unit)) (x : Exchange Unit)
        (frame : ResponseFrame) (live : Live) (call : PendingCall) (d : Worker.Dispatch),
      Run Worker.keeper {} {} effects history x
      ∧ Sizes Worker.keeper {} effects history
      ∧ FailureArrives Worker.keeper {} history x frame live call d (.application 1000 "no")
      ∧ Failure.isSignal (.application 1000 "no") = false ∧ call.id = 1
      ∧ (x.act {} .looked).1.ledger.failure? 1 = some (.remote 1000 "no") := by
  obtain ⟨effects, history, x, read, hsizes, hnext, hphase, hslot, ⟨d, hd, hcall, hkept⟩,
      hresolved⟩ : ∃ (effects : List Effect) (history : List (Worker.Moment Unit))
        (x : Exchange Unit), Run Worker.keeper {} {} effects history x
        ∧ Sizes Worker.keeper {} effects history
        ∧ x.responses.head? = some (.failure 0 (.application 1000 "no"))
        ∧ x.caller.phase = .connected oneSent
        ∧ (x.ledger.knows 1 = true ∧ x.ledger.isFinished 1 = false)
        ∧ (∃ d ∈ Worker.dispatchesIn (Worker.effectsOf Worker.keeper {} history),
            d.call = ⟨0, 0, 1⟩ ∧ d.verdict.isOk = true)
        ∧ ⟨⟨0, 0, 1⟩, .error (.application 1000 "no")⟩
            ∈ Worker.resolutionsOf Worker.keeper {} history := by
    have start : Run Worker.keeper {} {} [] [] _ :=
      .start oneWaits (({} : Ledger).issue 1 .u8) (.unix ⟨"/agent"⟩) 3 (.unix ⟨""⟩)
    have sent := start.caller (.flushed openWriter)
    have arrived := sent.agent
      (.worked (.received (RequestFrame.call defaultVersion 0 [7]).bytes)) (by decide +kernel)
      (by decide +kernel)
    have resolved := arrived.agent (.resolved ⟨0, 0, 1⟩ (.error (.application 1000 "no")))
      (by decide +kernel) (by decide +kernel)
    have drained := resolved.agent (.worked .drained) (by decide +kernel) (by decide +kernel)
    have wrote := drained.agent (.worked (.wrote 17)) (by decide +kernel) (by decide +kernel)
    have read := wrote.caller (.read 17)
    exact ⟨_, _, _, read, ⟨by decide +kernel, by decide +kernel, by decide +kernel⟩,
      by decide +kernel, by rfl, by decide +kernel, by decide +kernel,
      List.mem_append_right _ (List.mem_singleton_self _)⟩
  have hfailed : Worker.ComesTo (Worker.resolutionsOf Worker.keeper {} history) d
      (.error (.application 1000 "no")) := by
    unfold Worker.ComesTo
    cases hverdict : d.verdict with
    | error e => rw [hverdict] at hkept; cases hkept
    | ok _ => rw [hcall]; exact hresolved
  have harrives : FailureArrives Worker.keeper {} history x _ oneSent _ d _ :=
    ⟨hnext, hphase, rfl, hslot.1, hslot.2, hd, by rw [hcall]; rfl, hfailed, by decide +kernel⟩
  obtain ⟨-, hpassed, -⟩ := failures_are_passed_on_verbatim read hsizes harrives (by decide)
  exact ⟨effects, history, x, _, _, _, d, read, hsizes, harrives, rfl, rfl, hpassed.outcome⟩

/-- A service that rejects its calls with the code under which endpoints refuse them. -/
def refuser : Service Unit where
  supports version := version == defaultVersion
  connected _ := ()
  called _ _ := ⟨(), .dropped, .error (.remote WireCode.shuttingDown "no")⟩

/-- **A rejection is taken for a refusal.**  The service is handed a call and rejects it with code
5; there is no shutdown.  The call has no outcome, it waits to be sent again, and the link is
drained. -/
theorem rejection_is_taken_for_a_refusal :
    ∃ (effects : List Effect) (history : List (Worker.Moment Unit)) (x : Exchange Unit)
        (frame : ResponseFrame) (live : Live) (call : PendingCall) (d : Worker.Dispatch),
      Run refuser {} {} effects history x ∧ Sizes refuser {} effects history
      ∧ FailureArrives refuser {} history x frame live call d (.remote 5 "no")
      ∧ x.agent.shutdown = false ∧ live.draining = false ∧ x.caller.waiting = []
      ∧ (x.act {} .looked).1.ledger.failure? call.id ≠ some (.remote 5 "no")
      ∧ (x.act {} .looked).1.caller.waiting = [call]
      ∧ (x.act {} .looked).1.caller.live?.map (·.draining) = some true := by
  obtain ⟨effects, history, x, read, hsizes, hnext, hphase, hslot, ⟨d, hd, hcall, hrejected⟩,
      hcalm⟩ : ∃ (effects : List Effect) (history : List (Worker.Moment Unit))
        (x : Exchange Unit), Run refuser {} {} effects history x
        ∧ Sizes refuser {} effects history
        ∧ x.responses.head? = some (.failure 0 (.remote 5 "no"))
        ∧ x.caller.phase = .connected oneSent
        ∧ (x.ledger.knows 1 = true ∧ x.ledger.isFinished 1 = false)
        ∧ (∃ d ∈ Worker.dispatchesIn (Worker.effectsOf refuser {} history),
            d.call = ⟨0, 0, 1⟩ ∧ d.verdict = .error (.remote 5 "no"))
        ∧ (x.agent.shutdown = false ∧ x.caller.waiting = []) := by
    have start : Run refuser {} {} [] [] _ :=
      .start oneWaits (({} : Ledger).issue 1 .u8) (.unix ⟨"/agent"⟩) 3 (.unix ⟨""⟩)
    have sent := start.caller (.flushed openWriter)
    have arrived := sent.agent
      (.worked (.received (RequestFrame.call defaultVersion 0 [7]).bytes)) (by decide +kernel)
      (by decide +kernel)
    have wrote := arrived.agent (.worked (.wrote 17)) (by decide +kernel) (by decide +kernel)
    have read := wrote.caller (.read 17)
    exact ⟨_, _, _, read, ⟨by decide +kernel, by decide +kernel, by decide +kernel⟩,
      by decide +kernel, by rfl, by decide +kernel, by decide +kernel, by decide +kernel⟩
  have hfailed : Worker.ComesTo (Worker.resolutionsOf refuser {} history) d
      (.error (.remote 5 "no")) := by
    unfold Worker.ComesTo
    rw [hrejected]
  have harrives : FailureArrives refuser {} history x _ oneSent _ d _ :=
    ⟨hnext, hphase, rfl, hslot.1, hslot.2, hd, by rw [hcall]; rfl, hfailed, by decide +kernel⟩
  obtain ⟨hledger, hcaller⟩ :=
    (signals_of_services_are_taken_for_the_endpoint read hsizes harrives).1 rfl
  refine ⟨effects, history, x, _, _, _, d, read, hsizes, harrives, hcalm.1, rfl, hcalm.2, ?_, ?_,
    ?_⟩
  · rw [hledger, Ledger.failure?_of_isOpen (Ledger.isOpen_iff.mpr hslot.2)]
    exact nofun
  · rw [hcaller, hcalm.2]
    rfl
  · rw [hcaller]
    rfl

end OneFailure

end Exchange

end RemoteCall
