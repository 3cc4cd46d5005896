/-
  RemoteCall.Proofs.Server.Transparency
  ─────────────────────────────────────
  **WHAT A PROMPT SERVICE ANSWERS DOES NOT DEPEND ON THE SCHEDULE.**

  A service is prompt if it settles each call before it returns, by its session
  and the request alone (`Prompt`).  What it makes of the requests of a stream
  can then be told in advance (`promptAnswers`).  A worker has come to rest when
  all that has arrived is dispatched, no resolution waits and everything is sent
  (`AtRest`).  Then it has written the answers to the requests, whole and each
  once, in some order:

      queued  ~  promptAnswers session requests

  Chunks, limits and the order of steps decide about that order, and about
  nothing else.

  Main statements:
    • `Run.handled`, `Handled.answers`  — what the service was handed,
    • `Run.reads`                       — nothing makes the worker stop,
    • `Run.answered_at_rest`            — what one run has answered,
    • `schedules_are_transparent`       — two runs.
-/
import RemoteCall.Proofs.Server.Admission
import RemoteCall.Proofs.Server.Attribution

namespace RemoteCall

theorem ResponseFrame.size_ofOutcome (n : SequenceNumber) (outcome : Outcome Bytes) :
    (ofOutcome n outcome).size = (ofOutcome n outcome).bodyLength.toUInt32 := by
  cases outcome <;> rfl

namespace Worker

variable {σ : Type} {service : Service σ} {limits : EndpointConfig} {version : UInt32}
  {history : List (Moment σ)} {s : Scene σ}

/-! ## §1. Prompt services. -/

/-- The outcome that a service comes to before it returns, if it does: the failure that it rejects
the call for, or else the resolution of the call. -/
def Dispatch.outcome? (d : Dispatch) : Option (Outcome Bytes) :=
  match d.verdict with
  | .error e => some (.error e)
  | .ok _ => d.fate.resolution?

/-- The answer to a call that is settled before the service returns. -/
def Dispatch.answer? (d : Dispatch) : Option ResponseFrame :=
  d.outcome?.map (.ofOutcome d.call.sequence)

/-- A service that settles each call before it returns, by its session and the request: whether the
answer is still wanted makes no difference. -/
structure Prompt (service : Service σ) : Prop where
  settles : ∀ session incoming, (reactionTo service session incoming).outcome?.isSome = true
  unaware : ∀ session call payload unwanted,
    service.called session ⟨call, payload, unwanted⟩ = service.called session ⟨call, payload, false⟩

/-- What a service in some session is handed with a request that is wanted. -/
def incomingOf (ticket : Ticket) (frame : RequestFrame) : Incoming :=
  ⟨⟨ticket, frame.sequence, frame.version⟩, frame.payload, false⟩

/-- The answers of a prompt service to some requests that it is handed one after another. -/
def promptAnswers (service : Service σ) : σ → Ticket → List RequestFrame → List ResponseFrame
  | _, _, [] => []
  | session, ticket, frame :: later =>
    let incoming := incomingOf ticket frame
    (reactionTo service session incoming).answer?.toList
      ++ promptAnswers service (service.called session incoming).session (ticket + 1) later

/-- **The answers are those to the requests**, if the service was handed what they ask. -/
theorem Handled.answers {session session' : σ} {ticket ticket' : Ticket} {ds : List Dispatch}
    (h : Handled service session ticket ds session' ticket') (hprompt : Prompt service)
    {frames : List RequestFrame} (hasks : ds.map (·.asks) = frames.map (·.asks)) :
    ds.filterMap (·.answer?) = promptAnswers service session ticket frames := by
  induction h generalizing frames with
  | nil session ticket =>
    rw [List.map_nil, eq_comm, List.map_eq_nil_iff] at hasks
    rw [hasks]
    rfl
  | @cons session ticket incoming later session' ticket' hticket _ ih =>
    cases frames with
    | nil => cases hasks
    | cons frame frames =>
      rw [List.map_cons, List.map_cons, List.cons.injEq] at hasks
      obtain ⟨hfirst, hlater⟩ := hasks
      -- the call is the one that the request asks for
      have hsame : service.called session incoming
          = service.called session (incomingOf ticket frame) := by
        obtain ⟨⟨ticket, sequence, interface⟩, payload, unwanted⟩ := incoming
        cases hticket
        cases hfirst
        exact hprompt.unaware session _ _ unwanted
      have hanswer : (reactionTo service session incoming).answer?
          = (reactionTo service session (incomingOf ticket frame)).answer? := by
        have hsequence : incoming.call.sequence = frame.sequence := congrArg Prod.fst hfirst
        unfold Dispatch.answer? Dispatch.outcome? reactionTo Dispatch.call
        dsimp only
        rw [hsame, hsequence]
        rfl
      rw [promptAnswers, ← hanswer, ← hsame, ← ih hlater]
      cases hnext : (reactionTo service session incoming).answer? with
      | none => exact List.filterMap_cons_none hnext
      | some answer => exact List.filterMap_cons_some hnext

theorem size_promptAnswers (service : Service σ) (frames : List RequestFrame) (session : σ)
    (ticket : Ticket) :
    ∀ answer ∈ promptAnswers service session ticket frames,
      answer.size = answer.bodyLength.toUInt32 := by
  induction frames generalizing session ticket with
  | nil => exact fun answer hanswer => absurd hanswer List.not_mem_nil
  | cons frame later ih =>
    intro answer hanswer
    rcases List.mem_append.mp hanswer with hfirst | hlater
    · obtain ⟨outcome, -, rfl⟩ := Option.map_eq_some_iff.mp (Option.mem_toList.mp hfirst)
      exact ResponseFrame.size_ofOutcome _ outcome
    · exact ih _ _ answer hlater

/-- A prompt service has settled all that it was handed. -/
theorem Handled.settled {session session' : σ} {ticket ticket' : Ticket} {ds : List Dispatch}
    (h : Handled service session ticket ds session' ticket') (hprompt : Prompt service) :
    ∀ d ∈ ds, d.outcome?.isSome = true := by
  induction h with
  | nil => exact fun d hd => absurd hd List.not_mem_nil
  | @cons session ticket incoming later session' ticket' _ _ ih =>
    intro d hd
    rcases List.mem_cons.mp hd with rfl | hlater
    · exact hprompt.settles session incoming
    · exact ih d hlater

/-- **A service is handed calls in the session of the connection.** -/
theorem Run.handled (run : Run service limits history s) :
    Handled service (service.connected s.worker.peer) 0
      (dispatchesIn (effectsOf service limits history)) s.worker.session s.worker.nextTicket := by
  induction run with
  | start peer => exact .nil _ _
  | @next history s run occurrence hadmits ih =>
    obtain ⟨effects, heffects, hpumping⟩ := (⟨s, occurrence⟩ : Moment σ).pumping service limits
    have hopened := (⟨s, occurrence⟩ : Moment σ).opened limits
    have hpeer := hpumping.peer.trans hopened.peer
    have hhandled := hpumping.handled
    rw [hopened.session, hopened.nextTicket] at hhandled
    show Handled service (service.connected ((⟨s, occurrence⟩ : Moment σ).worker service
      limits).peer) 0 _ _ _
    rw [hpeer, effectsOf_concat, heffects, dispatchesIn_append, dispatchesIn_append,
      hopened.dispatched, List.nil_append]
    exact ih.append hhandled

/-! ## §2. A worker that goes on reading. -/

/-- A worker that keeps its books goes on reading, if the stream is not at fault and the service
speaks its version. -/
theorem Desk.reads_pump {t : Tally} {w : Worker σ} {received sent : Bytes}
    (h : Desk service limits version sent true t w) (hturned : t.turned = [])
    (hspoken : service.supports version = true)
    (hsound : (RequestFrame.drain limits.maxMessageSize received).2.1 = none)
    (hwell : WellFormed version (RequestFrame.drain limits.maxMessageSize received).1)
    (hahead : ∀ more, RequestFrame.Taken limits.maxMessageSize (received ++ more) t.taken
      (w.received ++ more)) (shutdown : Bool) :
    (w.pump service limits shutdown).1.reading = true := by
  have hstream : WellFormed version
      (RequestFrame.drain limits.maxMessageSize (received ++ [])).1 := by
    rw [List.append_nil]
    exact hwell
  obtain ⟨taken, turned, hdesk, -, -, hstops⟩ :=
    Desk.pumpFrom shutdown hstream w.received h hturned hahead
  unfold Worker.pump
  generalize w.pumpFrom service limits shutdown w.received = pumped at *
  obtain ⟨w', buffer, fault, effects⟩ := pumped
  cases fault with
  | none => exact hdesk.reads
  | some e => exact absurd hsound (hstops (Option.some_ne_none e) hspoken)

/-- **A worker goes on reading**, if its peer stays, the endpoint is not shut down, the stream is
well formed and not at fault, and the service speaks the version. -/
theorem Run.reads (run : Run service limits history s)
    (hspoken : service.supports version = true) (hcalm : s.shutdown = false)
    (hstays : lossIn history = false)
    (hsound : (RequestFrame.drain limits.maxMessageSize (receivedOf history)).2.1 = none)
    (hwell : WellFormed version
      (RequestFrame.drain limits.maxMessageSize (receivedOf history)).1) :
    s.worker.reading = true := by
  induction run with
  | start peer => rfl
  | @next history s run occurrence hadmits ih =>
    rw [lossIn_concat, Bool.or_eq_false_iff] at hstays
    rw [receivedOf_concat] at hsound hwell
    have hsound' := Frame.drainWith_sound hsound
    have hwell' := WellFormed.arrived hwell
    cases occurrence with
    | signalled => cases hcalm
    | resolved call outcome => exact ih hcalm hstays.1 hsound' hwell'
    | worked event =>
      have hreading : s.worker.reading = true := ih hcalm hstays.1 hsound' hwell'
      obtain ⟨taken, turned, h⟩ := run.stands hwell'
      obtain ⟨-, hturned, -, hahead⟩ := h.reads hreading
      cases event with
      | lost => cases hstays.2
      | writeFailed => cases hstays.2
      | wrote count => exact hreading
      | shutdown =>
        have henabled := hadmits.2
        unfold enabled at henabled
        rw [show s.shutdown = false from hcalm] at henabled
        cases henabled
      | received chunk =>
        have hdesk : Desk service limits version (writtenOf history) true
            (tallyOf service limits history s taken turned)
            { s.worker with received := s.worker.received ++ chunk } :=
          (h.desk hreading hwell').of_eq rfl rfl rfl rfl rfl rfl
        refine hdesk.reads_pump hturned hspoken hsound hwell (fun more => ?_) s.shutdown
        have hhere := hahead (chunk ++ more)
        rw [← List.append_assoc, ← List.append_assoc] at hhere
        exact hhere
      | drained =>
        show (s.worker.step service limits s.shutdown .drained).1.reading = true
        unfold step
        dsimp only
        cases hcompletions : s.worker.completions with
        | nil => exact hreading
        | cons done later =>
          have hdesk := h.freed hcompletions hreading hwell'
          obtain ⟨hreads, -, hreceived, -⟩ :=
            complete_same limits done { s.worker with completions := later }
          dsimp only
          rw [if_pos (hreads.trans hreading)]
          refine hdesk.reads_pump hturned hspoken hsound' hwell' (fun more => ?_) s.shutdown
          rw [hreceived]
          exact hahead more

/-! ## §3. At rest. -/

/-- A stream has arrived, and the worker has come to rest: all of it is dispatched, no resolution
waits and everything is sent.  It was neither shut down nor left by its peer. -/
structure AtRest (stream : Bytes) (history : List (Moment σ)) (s : Scene σ) : Prop where
  arrived : receivedOf history = stream
  stays : lossIn history = false
  calm : s.shutdown = false
  taken : s.worker.received = []
  settled : s.worker.completions = []
  sent : s.worker.unsent = []

/-- What the service has settled before it returned is what the dispatch comes to. -/
theorem Dispatch.comesTo {dispatched : List Dispatch} {d : Dispatch} (hd : d ∈ dispatched)
    {outcome : Outcome Bytes} (houtcome : d.outcome? = some outcome) (others : List Completed) :
    ComesTo (dispatched.filterMap (·.resolution?) ++ others) d outcome := by
  unfold ComesTo
  unfold outcome? at houtcome
  cases hverdict : d.verdict with
  | error e =>
    rw [hverdict] at houtcome
    exact (Option.some.inj houtcome).symm
  | ok _ =>
    rw [hverdict] at houtcome
    dsimp only at houtcome ⊢
    refine List.mem_append_left _ (List.mem_filterMap.mpr ⟨d, hd, ?_⟩)
    unfold resolution?
    rw [houtcome]
    rfl

/-- What a prompt service has settled is outstanding no more when no resolution waits. -/
theorem Attributed.outstanding_eq_nil {t : Trail} {w : Worker σ} (h : Attributed t w)
    (hsettles : ∀ d ∈ t.handed, d.outcome?.isSome = true) (hnone : w.completions = []) :
    w.outstanding = [] := by
  apply List.eq_nil_iff_forall_not_mem.mpr
  intro entry hentry
  obtain ⟨d, hd, rfl⟩ := h.handed_of_outstanding hentry
  obtain ⟨hverdict, hopen⟩ := (h.outstanding_iff d hd).mp hentry
  obtain ⟨outcome, houtcome⟩ := Option.isSome_iff_exists.mp (hsettles d hd)
  -- the call was resolved at once, and its resolution has been taken up
  have hresolved : ComesTo t.resolutions d outcome := Dispatch.comesTo hd houtcome _
  unfold ComesTo at hresolved
  rw [hverdict] at hresolved
  have htaken := h.resolved.subset hresolved
  rw [hnone, List.nil_append] at htaken
  exact hopen (List.mem_map_of_mem htaken)

/-- A call that was settled before the service returned comes to nothing else. -/
theorem Standing.outcome_of_comesTo {received sent : Bytes} {lost : Bool} {t : Tally}
    {w : Worker σ} (h : Standing service limits version received sent lost t w)
    (hstream : WellFormed version (RequestFrame.drain limits.maxMessageSize received).1)
    {d : Dispatch} (hd : d ∈ t.dispatched) (hsettled : d.outcome?.isSome = true)
    {outcome : Outcome Bytes} (hcomes : ComesTo t.resolutions d outcome) :
    d.outcome? = some outcome := by
  obtain ⟨settled, hsettled⟩ := Option.isSome_iff_exists.mp hsettled
  rw [hsettled]
  exact congrArg some (h.eq_of_comesTo hstream (Dispatch.comesTo hd hsettled _) hcomes)

/-- **What is queued are the answers to what was dispatched**, when nothing is outstanding or turned
away and the service is prompt. -/
theorem Standing.queued_perm {received sent : Bytes} {t : Tally} {w : Worker σ}
    (h : Standing service limits version received sent false t w)
    (hspoken : service.supports version = true)
    (hstream : WellFormed version (RequestFrame.drain limits.maxMessageSize received).1)
    (hsettles : ∀ d ∈ t.dispatched, d.outcome?.isSome = true) (hturned : t.turned = [])
    (hidle : w.outstanding = []) : t.queued.Perm (t.dispatched.filterMap (·.answer?)) := by
  have hqueued := h.books.answers.all h.lost
  rw [hturned, List.map_nil, List.append_nil] at hqueued
  have hnodup : t.queued.Nodup := List.Nodup.of_map _ (h.queued_nodup hspoken hstream)
  have hnodup' : (t.dispatched.filterMap (·.answer?)).Nodup := by
    refine List.Nodup.of_map (·.sequence) ?_
    -- each answer has the number of its call
    have hnumbers : (t.dispatched.filterMap (·.answer?)).map (·.sequence)
        = t.dispatched.map (·.call.sequence) := by
      rw [List.map_filterMap, ← List.filterMap_eq_map]
      refine List.filterMap_congr fun d hd => ?_
      obtain ⟨outcome, houtcome⟩ := Option.isSome_iff_exists.mp (hsettles d hd)
      unfold Dispatch.answer?
      rw [houtcome]
      exact congrArg some (sequence_answerTo ⟨d.call, outcome⟩)
    rw [hnumbers]
    exact h.dispatched_nodup hstream
  refine (List.perm_ext_iff_of_nodup hnodup hnodup').mpr fun frame => ?_
  constructor
  · -- what was queued is the answer to what has come to its outcome
    intro hframe
    obtain ⟨done, hdone, rfl⟩ := List.mem_map.mp (hqueued.subset hframe)
    obtain ⟨d, hd, hcall, hcomes⟩ := h.books.outcomes done hdone
    refine List.mem_filterMap.mpr ⟨d, hd, ?_⟩
    unfold Dispatch.answer?
    rw [h.outcome_of_comesTo hstream hd (hsettles d hd) hcomes, hcall]
    rfl
  · -- what was dispatched is outstanding no more, so it has come to its outcome
    intro hframe
    obtain ⟨d, hd, hanswer⟩ := List.mem_filterMap.mp hframe
    have hentry := h.books.entries.subset (List.mem_map_of_mem hd)
    rw [hidle, List.nil_append] at hentry
    obtain ⟨done, hdone, hsame⟩ := List.mem_map.mp hentry
    have hnumber : done.call.sequence = d.call.sequence := congrArg Prod.fst hsame
    obtain ⟨d', hd', hcall, hcomes⟩ := h.books.outcomes done hdone
    obtain rfl : d' = d := h.books.eq_of_sequence (hstream.of_isPrefix h.arrived).distinct hd' hd
      ((congrArg _ hcall).trans hnumber)
    unfold Dispatch.answer? at hanswer
    rw [h.outcome_of_comesTo hstream hd' (hsettles d' hd') hcomes, ← hnumber] at hanswer
    rw [← Option.some.inj hanswer]
    exact hqueued.symm.subset (List.mem_map_of_mem hdone)

/-- **At rest** a worker has written what it has queued: the answers to the requests, in some
order, each once. -/
theorem Run.answered_at_rest (run : Run service limits history s) (hprompt : Prompt service)
    (hspoken : service.supports version = true) {stream : Bytes} {frames : List RequestFrame}
    (hstream : RequestFrame.drain limits.maxMessageSize stream = (frames, none, []))
    (hwell : WellFormed version frames) (hrest : AtRest stream history s) :
    let queued := queuedIn (effectsOf service limits history)
    writtenOf history = queued.flatMap (written limits)
      ∧ (queued.map (·.sequence)).Nodup
      ∧ queued.Perm
        (promptAnswers service (service.connected s.worker.peer) 0 (callsIn frames)) := by
  have hsound : (RequestFrame.drain limits.maxMessageSize (receivedOf history)).2.1 = none := by
    rw [hrest.arrived, hstream]
  have hwell' : WellFormed version
      (RequestFrame.drain limits.maxMessageSize (receivedOf history)).1 := by
    rw [hrest.arrived, hstream]
    exact hwell
  obtain ⟨taken, turned, h⟩ := run.stands hwell'
  rw [hrest.stays] at h
  have hreading := run.reads hspoken hrest.calm hrest.stays hsound hwell'
  obtain ⟨-, hturned, -, hahead⟩ := h.reads hreading
  -- nothing is ahead, so all frames have been taken
  have htaken : taken = frames := by
    have hall := hahead []
    rw [hrest.taken, hrest.arrived, List.append_nil] at hall
    have hdrained := hall.eq_of_incomplete (if_pos (by decide))
    exact congrArg Prod.fst (hdrained.symm.trans hstream)
  have hhandled := run.handled
  have hsettles := hhandled.settled hprompt
  have hwaits : Waits (deedsOf service limits history) := by
    refine waits_of_distinct ?_
    rw [handedIn_deedsOf]
    exact h.dispatched_nodup hwell'
  have hidle : s.worker.outstanding = [] := by
    refine (run.attributed hwaits).outstanding_eq_nil ?_ hrest.settled
    intro d hd
    refine hsettles d ?_
    rw [← handedIn_deedsOf]
    exact hd
  refine ⟨?_, h.queued_nodup hspoken hwell', ?_⟩
  · obtain ⟨rest, hwritten, hunsent⟩ := h.transmits
    rw [hunsent h.lost, hrest.sent, List.append_nil] at hwritten
    exact hwritten.symm
  · have hasks := h.books.calls
    rw [hturned, htaken] at hasks
    have hanswers : _ = promptAnswers service (service.connected s.worker.peer) 0 (callsIn frames) :=
      hhandled.answers hprompt ((List.append_nil _).symm.trans hasks)
    rw [← hanswers]
    exact h.queued_perm hspoken hwell' hsettles hturned hidle

/-! ## §4. Two runs. -/

/-- **Backpressure and scheduling are transparent.**  A prompt service is sent a well-formed stream
of one version that it speaks; its answers fit, no two calls have the same number, the peer stays,
and the endpoint is not shut down.  Two workers, which may differ in how many calls may be
outstanding and how many bytes unsent, have received the stream and come to rest, whatever the
chunks and the order of steps were.

What each of them has written are whole responses, which a reader with the same limit on messages
finds again; and they are the same responses, one under each number, up to their order. -/
theorem schedules_are_transparent {limits' : EndpointConfig} {history' : List (Moment σ)}
    {s' : Scene σ} (run : Run service limits history s) (run' : Run service limits' history' s')
    (hsize : limits'.maxMessageSize = limits.maxMessageSize)
    (hpeer : s'.worker.peer = s.worker.peer) (hprompt : Prompt service)
    (hspoken : service.supports version = true) {stream : Bytes} {frames : List RequestFrame}
    (hstream : RequestFrame.drain limits.maxMessageSize stream = (frames, none, []))
    (hwell : WellFormed version frames)
    (hfits : ∀ answer ∈
        promptAnswers service (service.connected s.worker.peer) 0 (callsIn frames),
      answer.bodyLength ≤ limits.maxMessageSize)
    (hrest : AtRest stream history s) (hrest' : AtRest stream history' s') :
    ∃ responses responses',
      writtenOf history = responses.flatMap (·.bytes)
      ∧ writtenOf history' = responses'.flatMap (·.bytes)
      ∧ (limits.maxMessageSize < 2 ^ 32 →
        ResponseFrame.drain limits.maxMessageSize (writtenOf history) = (responses, none, [])
        ∧ ResponseFrame.drain limits.maxMessageSize (writtenOf history') = (responses', none, []))
      ∧ (responses.map (·.sequence)).Nodup
      ∧ responses.Perm
        (promptAnswers service (service.connected s.worker.peer) 0 (callsIn frames))
      ∧ responses'.Perm responses := by
  obtain ⟨hwritten, hnodup, hperm⟩ := run.answered_at_rest hprompt hspoken hstream hwell hrest
  obtain ⟨hwritten', -, hperm'⟩ :=
    run'.answered_at_rest hprompt hspoken (hsize ▸ hstream) hwell hrest'
  rw [hpeer] at hperm'
  have hsame := hperm'.trans hperm.symm
  generalize queuedIn (effectsOf service limits history) = responses at *
  generalize queuedIn (effectsOf service limits' history') = responses' at *
  have hfit : ∀ answer ∈ responses, answer.bodyLength ≤ limits.maxMessageSize :=
    fun answer hanswer => hfits answer (hperm.subset hanswer)
  have hwhole : writtenOf history = responses.flatMap (·.bytes) := by
    rw [hwritten]
    exact List.flatMap_congr fun answer hanswer => written_eq_bytes (hfit answer hanswer)
  have hwhole' : writtenOf history' = responses'.flatMap (·.bytes) := by
    rw [hwritten']
    refine List.flatMap_congr fun answer hanswer => written_eq_bytes ?_
    rw [hsize]
    exact hfit answer (hsame.subset hanswer)
  refine ⟨responses, responses', hwhole, hwhole', fun hword => ?_, hnodup, hperm, hsame⟩
  have hreads : ∀ answer ∈ responses,
      answer.Sized ∧ answer.bodyLength ≤ limits.maxMessageSize := by
    intro answer hanswer
    have hshort := hfit answer hanswer
    exact ⟨⟨size_promptAnswers service _ _ _ answer (hperm.subset hanswer), by omega⟩, hshort⟩
  rw [hwhole, hwhole']
  exact ⟨ResponseFrame.drain_flatMap_bytes hreads,
    ResponseFrame.drain_flatMap_bytes fun answer hanswer => hreads answer (hsame.subset hanswer)⟩

/-- A service that rejects calls without a payload, and answers the others with how many it has
answered before. -/
def counting : Service Nat where
  supports version := version == defaultVersion
  connected _ := 0
  called count incoming :=
    if incoming.payload.isEmpty then ⟨count, .dropped, .error (.invalidMessage "empty")⟩
    else ⟨count + 1, .resolved (.ok [count.toUInt8]), .ok ()⟩

theorem counting_prompt : Prompt counting where
  settles count incoming := by
    unfold reactionTo Dispatch.outcome? counting
    dsimp only
    by_cases hempty : incoming.payload.isEmpty = true
    · rw [if_pos hempty]
      rfl
    · rw [if_neg hempty]
      rfl
  unaware _ _ _ _ := rfl

/-- Three calls, of which the counting service rejects the second. -/
def threeRequests : List RequestFrame :=
  [.call defaultVersion 0 [7], .call defaultVersion 1 [], .call defaultVersion 2 [8]]

/-- One call may be outstanding, and few bytes unsent. -/
def cramped : EndpointConfig := { maxOutstandingCalls := 1, txBufferLimit := 1 }

/-- Three calls arrive at once at a worker with room for them, and in two pieces at one with room
for one: the rejection comes first, or in its turn, and the responses are the same. -/
theorem schedules_are_transparent_when_one_overtakes :
    ∃ (history history' : List (Moment Nat)) (s s' : Scene Nat),
      Run counting {} history s ∧ Run counting cramped history' s'
      ∧ writtenOf history ≠ writtenOf history'
      ∧ ∃ responses responses' : List ResponseFrame,
        writtenOf history = responses.flatMap (·.bytes)
        ∧ writtenOf history' = responses'.flatMap (·.bytes)
        ∧ (responses.map (·.sequence)).Nodup ∧ responses'.Perm responses := by
  have start : Run counting {} [] _ := .start (.unix ⟨"/agent"⟩)
  have arrived := start.next (.worked (.received (threeRequests.flatMap (·.bytes))))
    (by decide +kernel)
  have first := arrived.next (.worked .drained) (by decide +kernel)
  have second := first.next (.worked .drained) (by decide +kernel)
  have third := second.next (.worked .drained) (by decide +kernel)
  have wrote := third.next (.worked (.wrote 72)) (by decide +kernel)
  have start' : Run counting cramped [] _ := .start (.unix ⟨"/agent"⟩)
  have half' := start'.next (.worked (.received ((threeRequests.flatMap (·.bytes)).take 40)))
    (by decide +kernel)
  have arrived' := half'.next (.worked (.received ((threeRequests.flatMap (·.bytes)).drop 40)))
    (by decide +kernel)
  have first' := arrived'.next (.worked .drained) (by decide +kernel)
  have part' := first'.next (.worked (.wrote 34)) (by decide +kernel)
  have more' := part'.next (.worked (.wrote 24)) (by decide +kernel)
  have second' := more'.next (.worked .drained) (by decide +kernel)
  have third' := second'.next (.worked .drained) (by decide +kernel)
  have wrote' := third'.next (.worked (.wrote 14)) (by decide +kernel)
  have hstream : RequestFrame.drain ({} : EndpointConfig).maxMessageSize
      (threeRequests.flatMap (·.bytes)) = (threeRequests, none, []) := by decide +kernel
  have hwell : WellFormed defaultVersion threeRequests := ⟨by decide, by decide⟩
  obtain ⟨responses, responses', hwhole, hwhole', -, hnodup, -, hsame⟩ :=
    schedules_are_transparent wrote wrote' rfl (by decide +kernel) counting_prompt rfl hstream
      hwell (by decide +kernel)
      ⟨by decide +kernel, by decide +kernel, rfl, by decide +kernel, by decide +kernel,
        by decide +kernel⟩
      ⟨by decide +kernel, by decide +kernel, rfl, by decide +kernel, by decide +kernel,
        by decide +kernel⟩
  exact ⟨_, _, _, _, wrote, wrote', by decide +kernel, responses, responses', hwhole, hwhole',
    hnodup, hsame⟩

end Worker

end RemoteCall
