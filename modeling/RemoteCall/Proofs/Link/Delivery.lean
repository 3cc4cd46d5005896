/-
  RemoteCall.Proofs.Link.Delivery
  ───────────────────────────────
  **THE VALUE OF A CALL ANSWERS ITS OWN REQUEST.**

  A call that is settled with a value has got it from a response on its link.
  The call was sent under the number of the response; under that number the
  service was handed the request of the call, and nothing else; the call was
  completed with a payload; and the payload reads as the value.

  It does not matter in which order things happen, nor in which chunks the
  bytes arrive.

  Main statements:
    • `value?_respond`               — which response settles a call with a value,
    • `Run.wellFormed`               — what the worker receives is well formed,
    • `Run.shown`                    — which response of the worker has come back,
    • `Run.completed`                — with what its call was completed,
    • `values_come_from_own_requests` — a value is the answer to its own request.
-/
import RemoteCall.Proofs.Link.Tracing
import RemoteCall.Proofs.Server.Answers

namespace RemoteCall

/-! ## §1. How a value is recorded. -/

/-- The value that is recorded in an entry, in the shape of its response. -/
def Entry.value? (entry : Entry) : Option (Sigma Payload.Shape.Value) :=
  match entry.slot.outcome with
  | some (.ok v) => some ⟨entry.shape, v⟩
  | _ => none

namespace Ledger

/-- The value that is recorded for a call. -/
def value? (l : Ledger) (id : CallId) : Option (Sigma Payload.Shape.Value) :=
  (l.get? id).bind Entry.value?

/-- To record a failure is to record no value. -/
theorem value?_fail (l : Ledger) (id other : CallId) (e : Failure) :
    (l.fail id e).value? other = l.value? other := by
  unfold value?
  by_cases h : other = id
  · subst h
    unfold fail
    rw [get?_update_self]
    cases l.get? other with
    | none => rfl
    | some entry =>
      show Entry.value? ⟨entry.shape, entry.slot.fail e⟩ = entry.value?
      -- an outcome that is there already stays
      unfold Entry.value? Slot.fail Slot.settle
      cases houtcome : entry.slot.outcome with
      | none => rfl
      | some outcome =>
        dsimp only
        rw [houtcome]
  · rw [get?_fail_of_ne l h]

theorem value?_failAll (ids : List CallId) (e : Failure) (l : Ledger) (id : CallId) :
    (l.failAll ids e).value? id = l.value? id := by
  induction ids generalizing l with
  | nil => rfl
  | cons first ids ih => exact (ih (l.fail first e)).trans (value?_fail l first id e)

theorem value?_chargeAll (limit : UInt32) (e : Failure) (calls : List PendingCall) (l : Ledger)
    (id : CallId) : (chargeAll limit e calls l).2.value? id = l.value? id := by
  induction calls generalizing l with
  | nil => rfl
  | cons call rest ih =>
    unfold chargeAll
    split
    · exact ih l
    · split
      · exact (ih (l.fail call.id e)).trans (value?_fail l call.id id e)
      · exact ih l

theorem outcome_of_open {l : Ledger} {id : CallId} (hopen : l.isFinished id = false) {entry : Entry}
    (hget : l.get? id = some entry) : entry.slot.outcome = none := by
  rw [isFinished_eq, hget] at hopen
  simpa [Slot.isFinished] using hopen

/-- A call without an outcome has no value. -/
theorem value?_of_open {l : Ledger} {id : CallId} (hopen : l.isFinished id = false) :
    l.value? id = none := by
  unfold value?
  cases hget : l.get? id with
  | none => rfl
  | some entry =>
    show entry.value? = none
    unfold Entry.value?
    rw [outcome_of_open hopen hget]

/-- **A response records the value that it reads as**, if its call had no outcome. -/
theorem value?_deliver {l : Ledger} {id other : CallId} {payload : Bytes}
    (hopen : l.isFinished other = false) {shape : Payload.Shape} {v : shape.Value}
    (h : (l.deliver id payload).1.value? other = some ⟨shape, v⟩) :
    other = id ∧ Payload.decode shape payload = .ok v := by
  by_cases hsame : other = id
  · subst hsame
    refine ⟨rfl, ?_⟩
    unfold deliver at h
    cases hget : l.get? other with
    | none =>
      rw [hget] at h
      exact absurd ((value?_of_open hopen).symm.trans h) nofun
    | some entry =>
      have hempty := outcome_of_open hopen hget
      rw [hget] at h
      dsimp only at h
      unfold value? at h
      rw [get?_update_self, hget] at h
      replace h : (Entry.afterDelivery payload entry).value? = some ⟨shape, v⟩ := h
      unfold Entry.afterDelivery Slot.deliver at h
      cases hdecode : Payload.decode entry.shape payload with
      | ok v' =>
        rw [hdecode] at h
        -- the payload reads as `v'`, and that is what is recorded
        unfold Entry.value? at h
        dsimp only at h
        rw [Slot.settle_of_none hempty] at h
        dsimp only at h
        cases h
        exact hdecode
      | error e =>
        rw [hdecode] at h
        -- it does not read, and nothing is recorded
        unfold Entry.value? at h
        dsimp only at h
        rw [hempty] at h
        cases h
  · unfold value? at h
    rw [get?_deliver_of_ne l hsame] at h
    exact absurd ((value?_of_open hopen).symm.trans h) nofun

end Ledger

namespace Connection

variable {c : Connection} {config : PoolConfig} {l : Ledger}

theorem value?_lose (config : PoolConfig) (e : Failure) (c : Connection) (l : Ledger)
    (id : CallId) : (c.lose config e l).ledger.value? id = l.value? id := by
  unfold lose
  dsimp only
  split
  · split
    · exact l.value?_failAll _ e id
    · exact l.value?_chargeAll _ e _ id
  · exact l.value?_chargeAll _ e _ id

/-- **A response that settles a call with a value** carries the payload that reads as the value, and
the call was in flight under its number. -/
theorem value?_respond {frame : ResponseFrame} {id : CallId} (hopen : l.isFinished id = false)
    {shape : Payload.Shape} {v : shape.Value}
    (h : (c.respond config frame l).ledger.value? id = some ⟨shape, v⟩) :
    ∃ live call payload, c.phase = .connected live ∧ live.callAt? frame.sequence = some call
      ∧ call.id = id ∧ frame.result = .ok payload ∧ Payload.decode shape payload = .ok v := by
  have hnone : l.value? id ≠ some ⟨shape, v⟩ := by
    rw [Ledger.value?_of_open hopen]
    exact nofun
  have hresponded := responded config frame c l
  generalize c.respond config frame l = moved at *
  cases hresponded with
  | ignored _ => exact absurd h hnone
  | dropped _ _ => exact absurd h hnone
  | @delivered live call payload hfinds hresult _ =>
    obtain ⟨hid, hdecode⟩ := Ledger.value?_deliver hopen h
    exact ⟨live, call, payload, hfinds.phase, hfinds.found, hid.symm, hresult, hdecode⟩
  | @retried live call payload hfinds hresult _ _ =>
    obtain ⟨hid, hdecode⟩ := Ledger.value?_deliver hopen h
    exact ⟨live, call, payload, hfinds.phase, hfinds.found, hid.symm, hresult, hdecode⟩
  | @unreadable live call payload e hfinds hresult _ _ =>
    rw [Ledger.value?_fail] at h
    obtain ⟨hid, hdecode⟩ := Ledger.value?_deliver hopen h
    exact ⟨live, call, payload, hfinds.phase, hfinds.found, hid.symm, hresult, hdecode⟩
  | refused _ _ _ => exact absurd h hnone
  | rejected _ _ _ _ =>
    -- a failure records no value, whatever else it does
    rw [value?_lose, Ledger.value?_fail] at h
    exact absurd h hnone
  | failed _ _ _ _ =>
    rw [Ledger.value?_fail] at h
    exact absurd h hnone

end Connection

/-! ## §2. What the worker receives. -/

namespace Exchange

variable {σ : Type} {service : Service σ} {limits : EndpointConfig} {config : PoolConfig}
  {effects : List Effect} {history : List (Worker.Moment σ)} {x : Exchange σ}

/-- **The connection says what it should**, as long as the numbers suffice. -/
theorem Run.dealt (run : Run service limits config effects history x) (hroom : Suffices effects) :
    x.caller.Dealt effects := by
  induction run with
  | start c ledger peer link origin =>
    refine ⟨said_nil _, fun live hlive => ?_⟩
    cases hlive
    exact Live.dealt_new _ peer link
  | @caller effects history x run act ih =>
    have h := ih hroom.of_append
    cases act with
    | queued call =>
      dsimp only [Exchange.act]
      rw [List.append_nil]
      exact h.of_eq rfl rfl
    | observed ledger =>
      dsimp only [Exchange.act]
      rw [List.append_nil]
      exact h
    | flushed env =>
      dsimp only [Exchange.act] at hroom ⊢
      rw [caller_move]
      exact h.flush hroom
    | expired env now =>
      dsimp only [Exchange.act] at hroom ⊢
      rw [caller_move]
      exact h.expire
    | advanced env now =>
      dsimp only [Exchange.act] at hroom ⊢
      rw [caller_move]
      exact h.advance hroom
    | canceled env id =>
      dsimp only [Exchange.act]
      split
      · next hcancel =>
        rw [caller_move]
        exact h.cancel hcancel
      · rw [List.append_nil]
        exact h
    | looked =>
      dsimp only [Exchange.act]
      split
      · rw [caller_move]
        exact h.respond config _ _
      · rw [List.append_nil]
        exact h
    | lost e =>
      dsimp only [Exchange.act]
      rw [caller_move]
      exact h.lose config e _
    | read count =>
      dsimp only [Exchange.act]
      rw [List.append_nil]
      have hcaller : (x.read config.maxMessageSize count).caller = x.caller := by
        unfold Exchange.read
        split <;> rfl
      rw [hcaller]
      exact h
  | agent run occurrence _ _ ih => exact ih hroom

/-- The requests that the worker has received were handed over by the connection. -/
theorem Run.arrived (run : Run service limits config effects history x)
    (hroom : Suffices effects)
    (hrequests : ∀ frame ∈ handedIn effects, frame.bodyLength < 2 ^ 32) (max : Nat) :
    (RequestFrame.drain max (Worker.receivedOf history)).1.Sublist (handedIn effects) := by
  have hsaid := (run.dealt hroom).toSaid
  obtain ⟨put, hput, hbytes⟩ := run.traced.requests
  have hhanded := hput.trans (takenIn_sublist effects)
  have hsized : ∀ frame ∈ put, frame.Sized := fun frame hmem =>
    ⟨hsaid.size frame (hhanded.subset hmem), hrequests frame (hhanded.subset hmem)⟩
  have hinitial : Worker.receivedOf history <+: put.flatMap (·.bytes) := by
    rw [hbytes]
    exact List.prefix_append _ _
  exact (RequestFrame.drain_bytes hsized hinitial max).sublist.trans hhanded

/-- **What the worker receives is well formed.** -/
theorem Run.wellFormed (run : Run service limits config effects history x)
    (hroom : Suffices effects)
    (hrequests : ∀ frame ∈ handedIn effects, frame.bodyLength < 2 ^ 32) (max : Nat) :
    WellFormed x.caller.key.interface
      (RequestFrame.drain max (Worker.receivedOf history)).1 := by
  have hsaid := (run.dealt hroom).toSaid
  have harrived := run.arrived hroom hrequests max
  exact ⟨fun frame hmem => hsaid.version frame (harrived.subset hmem),
    hsaid.numbers.sublist ((harrived.filter _).map _)⟩

end Exchange

/-! ## §3. What the reader sees. -/

theorem ResponseFrame.result_failure (n : SequenceNumber) (e : Failure) (payload : Bytes) :
    (ResponseFrame.failure n e).result ≠ .ok payload := by
  unfold result failure
  dsimp only
  split <;> exact nofun

/-- An answer that carries a payload is the answer to a completed call. -/
theorem ResponseFrame.result_ofOutcome {n : SequenceNumber} {outcome : Outcome Bytes}
    {payload : Bytes} (h : (ResponseFrame.ofOutcome n outcome).result = .ok payload) :
    outcome = .ok payload := by
  cases outcome with
  | ok payload' => exact h
  | error e => exact absurd h (result_failure n e payload)

namespace Worker

variable {limits : EndpointConfig}

/-- What is written for a response: the response, the failure that names the excess, or nothing. -/
def shown (limits : EndpointConfig) (frame : ResponseFrame) : List ResponseFrame :=
  let report := ResponseFrame.failure frame.sequence
    (.messageTooLarge frame.bodyLength limits.maxMessageSize)
  if frame.bodyLength ≤ limits.maxMessageSize then [frame]
  else if report.bodyLength ≤ limits.maxMessageSize then [report]
  else []

theorem written_eq (limits : EndpointConfig) (frame : ResponseFrame) :
    written limits frame = (shown limits frame).flatMap (·.bytes) := by
  unfold written shown
  rw [ResponseFrame.encode_eq]
  dsimp only
  by_cases hfits : frame.bodyLength ≤ limits.maxMessageSize
  · rw [if_neg (Nat.not_lt.mpr hfits), if_pos hfits]
    exact (List.flatMap_singleton _ _).symm
  · rw [if_pos (Nat.lt_of_not_le hfits), if_neg hfits]
    dsimp only
    rw [ResponseFrame.encode_eq]
    by_cases hreport : (ResponseFrame.failure frame.sequence
        (.messageTooLarge frame.bodyLength limits.maxMessageSize)).bodyLength
          ≤ limits.maxMessageSize
    · rw [if_neg (Nat.not_lt.mpr hreport), if_pos hreport]
      exact (List.flatMap_singleton _ _).symm
    · rw [if_pos (Nat.lt_of_not_le hreport), if_neg hreport]
      rfl

/-- What is written for a response of less than 2³² bytes has a true size. -/
theorem sized_of_shown {frame other : ResponseFrame} (hsized : frame.Sized)
    (h : other ∈ shown limits frame) : other.Sized := by
  unfold shown at h
  dsimp only at h
  split at h
  · rw [List.mem_singleton.mp h]
    exact hsized
  · next hexcess =>
    split at h
    · have hword : frame.bodyLength < 2 ^ 64 := Nat.lt_trans hsized.2 (by decide)
      -- the report of the excess is short whatever the excess is
      have hshort := length_messageTooLarge_le hword
        (Nat.lt_trans (Nat.lt_of_not_le hexcess) hword)
      rw [List.mem_singleton.mp h]
      refine ⟨rfl, ?_⟩
      calc 8 + 1 + (ResponseFrame.failurePayload
              (.messageTooLarge frame.bodyLength limits.maxMessageSize)).length
          ≤ 8 + 1 + 75 := Nat.add_le_add_left hshort _
        _ < 2 ^ 32 := by decide
    · cases h

/-- What carries a payload is shown as it is. -/
theorem eq_of_shown {frame other : ResponseFrame} (h : other ∈ shown limits frame)
    {payload : Bytes} (hok : other.result = .ok payload) : other = frame := by
  unfold shown at h
  dsimp only at h
  split at h
  · exact List.mem_singleton.mp h
  · split at h
    · rw [List.mem_singleton.mp h] at hok
      exact absurd hok (ResponseFrame.result_failure _ _ _)
    · cases h

end Worker

/-! ## §4. Values. -/

namespace Exchange

variable {σ : Type} {service : Service σ} {limits : EndpointConfig} {config : PoolConfig}
  {effects : List Effect} {history : List (Worker.Moment σ)} {x : Exchange σ}

/-- The size field of a response is true as soon as 32 bits are enough for it. -/
theorem size_of_queued {t : Worker.Tally} {w : Worker σ} (h : Worker.Books t w)
    {frame : ResponseFrame} (hmem : frame ∈ t.queued) :
    frame.size = frame.bodyLength.toUInt32 := by
  rcases List.mem_append.mp (h.answers.subset hmem) with hanswer | hrefusal
  · obtain ⟨done, -, rfl⟩ := List.mem_map.mp hanswer
    unfold Worker.answerTo ResponseFrame.ofOutcome
    cases done.outcome <;> rfl
  · obtain ⟨refused, -, rfl⟩ := List.mem_map.mp hrefusal
    rfl

/-- **A response that has come back** is what was written for one that the worker has queued. -/
theorem Run.shown (run : Run service limits config effects history x)
    {version : UInt32} {t : Worker.Tally} {lost : Bool}
    (h : Worker.Standing service limits version (Worker.receivedOf history)
      (Worker.writtenOf history) lost t x.agent.worker)
    (hresponses : ∀ frame ∈ t.queued, frame.bodyLength < 2 ^ 32) {frame : ResponseFrame}
    (hframe : frame ∈ x.responses) :
    ∃ queued ∈ t.queued, frame ∈ Worker.shown limits queued := by
  have hsized : ∀ other ∈ t.queued.flatMap (Worker.shown limits), other.Sized := by
    intro other hother
    obtain ⟨queued, hqueued, hshown⟩ := List.mem_flatMap.mp hother
    exact Worker.sized_of_shown ⟨size_of_queued h.books hqueued, hresponses queued hqueued⟩ hshown
  -- the reader has read a beginning of what was written for the responses
  obtain ⟨read, looked, hwritten, hseen, -⟩ := run.traced.responses
  obtain ⟨rest, hrest, -⟩ := h.transmits
  have hread : read <+: (t.queued.flatMap (Worker.shown limits)).flatMap (·.bytes) := by
    rw [List.flatMap_assoc]
    simp only [← Worker.written_eq]
    rw [hrest, hwritten, List.append_assoc]
    exact List.prefix_append _ _
  have hdrained := ResponseFrame.drain_bytes hsized hread config.maxMessageSize
  exact List.mem_flatMap.mp
    (hdrained.subset (hseen.subset (List.mem_append_right looked hframe)))

/-- **A payload that has come back** is that with which the call under its number was completed. -/
theorem Run.completed (run : Run service limits config effects history x)
    {version : UInt32} {t : Worker.Tally} {lost : Bool}
    (h : Worker.Standing service limits version (Worker.receivedOf history)
      (Worker.writtenOf history) lost t x.agent.worker)
    (hresponses : ∀ frame ∈ t.queued, frame.bodyLength < 2 ^ 32) {frame : ResponseFrame}
    (hframe : frame ∈ x.responses) {payload : Bytes} (hok : frame.result = .ok payload) :
    ∃ d ∈ t.dispatched, d.call.sequence = frame.sequence ∧ d.verdict = .ok ()
      ∧ ⟨d.call, .ok payload⟩ ∈ t.resolutions := by
  obtain ⟨queued, hqueued, hshown⟩ := run.shown h hresponses hframe
  obtain rfl := Worker.eq_of_shown hshown hok
  -- it carries a payload, so it is an answer and no refusal
  rcases List.mem_append.mp (h.books.answers.subset hqueued) with hanswer | hrefusal
  · obtain ⟨done, hdone, rfl⟩ := List.mem_map.mp hanswer
    have houtcome := ResponseFrame.result_ofOutcome hok
    obtain ⟨d, hd, hcall, hcomes⟩ := h.books.outcomes done hdone
    rw [houtcome] at hcomes
    refine ⟨d, hd, ?_, ?_⟩
    · rw [Worker.sequence_answerTo, hcall]
    · unfold Worker.ComesTo at hcomes
      cases hverdict : d.verdict with
      | ok _ =>
        rw [hverdict] at hcomes
        exact ⟨rfl, hcomes⟩
      | error e =>
        rw [hverdict] at hcomes
        cases hcomes
  · obtain ⟨refused, -, rfl⟩ := List.mem_map.mp hrefusal
    exact absurd hok (ResponseFrame.result_failure _ _ _)

/-- **A value is the answer to its own request.**  Fewer than 2^64 numbers are used on the link, and
all frames have less than 2³² bytes.  When the connection looks at a response and a call gets a
value, the call was in flight under the number of the response and had been sent under it.  Under
that number the service was handed one call: with the request of the call, and in the version of
the connection.  It was accepted and resolved once, with a payload that reads as the value. -/
theorem values_come_from_own_requests (run : Run service limits config effects history x)
    (hroom : Suffices effects)
    (hrequests : ∀ frame ∈ handedIn effects, frame.bodyLength < 2 ^ 32)
    (hresponses : ∀ frame ∈ Worker.queuedIn (Worker.effectsOf service limits history),
      frame.bodyLength < 2 ^ 32)
    {frame : ResponseFrame} {later : List ResponseFrame} (hnext : x.responses = frame :: later)
    {id : CallId} (hopen : x.ledger.isFinished id = false) {shape : Payload.Shape}
    {v : shape.Value} (hsettled : (x.act config .looked).1.ledger.value? id = some ⟨shape, v⟩) :
    ∃ live call d payload, x.caller.phase = .connected live
      ∧ live.callAt? frame.sequence = some call ∧ call.id = id
      ∧ .send live.link call (.call x.caller.key.interface frame.sequence call.request) true
          ∈ effects
      ∧ d ∈ Worker.dispatchesIn (Worker.effectsOf service limits history)
      ∧ d.call.sequence = frame.sequence ∧ d.call.interface = x.caller.key.interface
      ∧ d.incoming.payload = call.request ∧ d.verdict = .ok ()
      ∧ (∀ d' ∈ Worker.dispatchesIn (Worker.effectsOf service limits history),
          d'.call.sequence = frame.sequence → d' = d)
      ∧ ⟨d.call, .ok payload⟩ ∈ Worker.resolutionsOf service limits history
      ∧ (∀ outcome, ⟨d.call, outcome⟩ ∈ Worker.resolutionsOf service limits history →
          outcome = .ok payload)
      ∧ frame.result = .ok payload ∧ Payload.decode shape payload = .ok v := by
  have hsaid := run.dealt hroom
  have hwell := run.wellFormed hroom hrequests limits.maxMessageSize
  obtain ⟨taken, turned, h⟩ := run.served.standing [] (by rw [List.append_nil]; exact hwell)
  -- the response delivers a payload to the call in flight under its number
  have hrespond : (x.caller.respond config frame x.ledger).ledger.value? id
      = some ⟨shape, v⟩ := by
    unfold Exchange.act at hsettled
    dsimp only at hsettled
    rw [hnext] at hsettled
    dsimp only at hsettled
    rw [ledger_move] at hsettled
    exact hsettled
  obtain ⟨live, call, payload, hlive, hcall, hid, hok, hdecode⟩ :=
    Connection.value?_respond hopen hrespond
  have hsent := (hsaid.live live hlive).sent frame.sequence call (mem_of_find?_key hcall)
  -- the call that the service was handed under that number was completed
  have hframe : frame ∈ x.responses := hnext ▸ List.mem_cons_self
  obtain ⟨d, hd, hsequence, hverdict, hresolved⟩ := run.completed h hresponses hframe hok
  -- both are about the one request with that number
  obtain ⟨request, hrequest, hasks⟩ := h.asked hd
  have hhanded : request ∈ callsIn (handedIn effects) :=
    ((run.arrived hroom hrequests limits.maxMessageSize).filter _).subset hrequest
  have hown : RequestFrame.call x.caller.key.interface frame.sequence call.request
      ∈ callsIn (handedIn effects) :=
    List.mem_filter.mpr ⟨List.mem_filterMap.mpr ⟨_, hsent, rfl⟩, rfl⟩
  have hnumber : request.sequence = frame.sequence :=
    (congrArg Prod.fst hasks).symm.trans hsequence
  obtain rfl := List.inj_on_of_nodup_map hsaid.numbers hhanded hown hnumber
  refine ⟨live, call, d, payload, hlive, hcall, hid, hsent, hd, hsequence,
    congrArg (·.2.1) hasks, congrArg (·.2.2) hasks, hverdict, ?_, hresolved, ?_, hok, hdecode⟩
  · intro d' hd' hsame
    exact List.inj_on_of_nodup_map (h.dispatched_nodup hwell) hd' hd (hsame.trans hsequence.symm)
  · intro outcome hother
    have hone := List.inj_on_of_nodup_map (h.resolutions_nodup hwell) hother hresolved rfl
    exact congrArg Completed.outcome hone

section OneCall

/-- A connection of an agent, with a call that waits. -/
def oneWaits : Connection :=
  { Connection.new ⟨⟨"agent", Eq.refl true⟩, defaultVersion⟩ 0 with
    waiting := [⟨1, [7], none, false, 0⟩] }

/-- A writer that takes every frame. -/
def openWriter : Surroundings := ⟨fun _ => [], fun _ _ => true, fun _ _ => 0.5⟩

/-- A call is sent, kept by the service and completed later: it gets its value. -/
theorem values_come_from_own_requests_when_completed :
    ∃ (effects : List Effect) (history : List (Worker.Moment Unit)) (x : Exchange Unit),
      Run Worker.keeper {} {} effects history x ∧ x.ledger.isFinished 1 = false
      ∧ ∃ (call : PendingCall) (d : Worker.Dispatch) (payload : Bytes) (shape : Payload.Shape)
          (v : shape.Value),
        (x.act {} .looked).1.ledger.value? 1 = some ⟨shape, v⟩ ∧ call.id = 1
        ∧ d ∈ Worker.dispatchesIn (Worker.effectsOf Worker.keeper {} history)
        ∧ d.incoming.payload = call.request
        ∧ ⟨d.call, .ok payload⟩ ∈ Worker.resolutionsOf Worker.keeper {} history
        ∧ Payload.decode shape payload = .ok v := by
  have start : Run Worker.keeper {} {} [] [] _ :=
    .start oneWaits (({} : Ledger).issue 1 .u8) (.unix ⟨"/agent"⟩) 3 (.unix ⟨""⟩)
  have sent := start.caller (.flushed openWriter)
  have arrived := sent.agent
    (.worked (.received (RequestFrame.call defaultVersion 0 [7]).bytes)) (by decide +kernel)
    (by decide +kernel)
  have resolved := arrived.agent (.resolved ⟨0, 0, 1⟩ (.ok [9])) (by decide +kernel)
    (by decide +kernel)
  have drained := resolved.agent (.worked .drained) (by decide +kernel) (by decide +kernel)
  have wrote := drained.agent (.worked (.wrote 14)) (by decide +kernel) (by decide +kernel)
  have read := wrote.caller (.read 14)
  refine ⟨_, _, _, read, by decide +kernel, ?_⟩
  have hlook : ∀ {effects history x}, Run Worker.keeper {} {} effects history x →
      ((x.act {} .looked).1.ledger.value? 1).isSome = true →
      ∃ value, (x.act {} .looked).1.ledger.value? 1 = some value :=
    fun _ h => Option.isSome_iff_exists.mp h
  obtain ⟨⟨shape, v⟩, hvalue⟩ := hlook read (by decide +kernel)
  obtain ⟨_, call, d, payload, -, -, hid, -, hd, -, -, hpayload, -, -, hresolved, -, -,
      hdecode⟩ :=
    values_come_from_own_requests read (by decide +kernel) (by decide +kernel) (by decide +kernel)
      (by decide +kernel : _ = [ResponseFrame.success 0 [9]]) (by decide +kernel) hvalue
  exact ⟨call, d, payload, shape, v, hvalue, hid, hd, hpayload, hresolved, hdecode⟩

end OneCall

end Exchange

end RemoteCall
