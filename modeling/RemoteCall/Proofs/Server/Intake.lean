/-
  RemoteCall.Proofs.Server.Intake
  ───────────────────────────────
  **WHAT A WORKER TAKES IN.**

  Whatever bytes a peer sends, taking frames off them changes a worker in one
  way only: calls are handed to the service one after another, those that it
  accepts become outstanding, what it resolves at once goes into the queue, and
  responses go into the transmit buffer (`Intake`).

      outstanding  =  outstanding before ++ accepted
      completions  =  completions before ++ resolved
      unsent       =  unsent before ++ written responses

  Nothing is assumed of the stream: frames may be malformed, cancel calls or
  use a number again.  The calls that are handed over are the calls of the
  frames that are taken, in order (`Pumping`); and no call is taken when as many
  are outstanding as may be, since then only a cancel is decoded.

  Main statements:
    • `Intake.dispatch`, `Intake.takeIn` — one frame,
    • `Pumping.pumpFrom`, `Pumping.pump` — the frames of a buffer,
    • `Intake.refuseFrom`                — the frames that are left at the end,
    • `Moment.opened`, `Moment.pumping`  — a moment of a run.
-/
import RemoteCall.Proofs.Frame.Boundary
import RemoteCall.Proofs.Server.Trail

namespace RemoteCall

namespace Worker

variable {σ : Type} {service : Service σ} {limits : EndpointConfig} {shutdown : Bool}

/-! ## §1. Calls that are handed over. -/

/-- What a dispatch leaves outstanding: its call, if the service accepts it. -/
def Dispatch.admitted? (d : Dispatch) : Option (SequenceNumber × Ticket) :=
  match d.verdict with
  | .ok _ => some (entryOf d.call)
  | .error _ => none

/-- The answer to a call that the service rejects. -/
def Dispatch.rejection? (d : Dispatch) : Option ResponseFrame :=
  match d.verdict with
  | .ok _ => none
  | .error e => some (.failure d.call.sequence e)

/-- The entries of the calls that were accepted, in order. -/
def acceptedIn (effects : List WorkerEffect) : List (SequenceNumber × Ticket) :=
  (dispatchesIn effects).filterMap (·.admitted?)

/-- The answers to the calls that were rejected, in order. -/
def rejectionsIn (effects : List WorkerEffect) : List ResponseFrame :=
  (dispatchesIn effects).filterMap (·.rejection?)

@[simp] theorem acceptedIn_append (xs ys : List WorkerEffect) :
    acceptedIn (xs ++ ys) = acceptedIn xs ++ acceptedIn ys := by
  simp [acceptedIn]

@[simp] theorem rejectionsIn_append (xs ys : List WorkerEffect) :
    rejectionsIn (xs ++ ys) = rejectionsIn xs ++ rejectionsIn ys := by
  simp [rejectionsIn]

/-- What a service in some session does with a call. -/
def reactionTo (service : Service σ) (session : σ) (incoming : Incoming) : Dispatch :=
  let reaction := service.called session incoming
  ⟨incoming, reaction.fate, reaction.verdict⟩

/-- A service in some session is handed calls, one after another, and is in another session then.
The dispatches are numbered. -/
inductive Handled (service : Service σ) : σ → Ticket → List Dispatch → σ → Ticket → Prop where
  /-- No call is handed over. -/
  | nil (session : σ) (ticket : Ticket) : Handled service session ticket [] session ticket
  /-- A call is handed over, and then others. -/
  | cons {session : σ} {ticket : Ticket} (incoming : Incoming) {later : List Dispatch}
    {session' : σ} {ticket' : Ticket} :
    incoming.call.ticket = ticket →
    Handled service (service.called session incoming).session (ticket + 1) later session' ticket' →
    Handled service session ticket (reactionTo service session incoming :: later) session' ticket'

/-- Calls are handed over, and then others. -/
theorem Handled.append {session session' session'' : σ} {ticket ticket' ticket'' : Ticket}
    {ds ds' : List Dispatch} (h : Handled service session ticket ds session' ticket')
    (h' : Handled service session' ticket' ds' session'' ticket'') :
    Handled service session ticket (ds ++ ds') session'' ticket'' := by
  induction h with
  | nil => exact h'
  | cons incoming hticket _ ih => exact .cons incoming hticket (ih h')

/-! ## §2. Intake. -/

/-- The service speaks the version of the connection, if that is fixed. -/
def Speaks (service : Service σ) (w : Worker σ) : Prop :=
  ∀ version, w.version = some version → service.supports version = true

/-- What becomes of a worker that does this while it takes frames in. -/
structure Intake (service : Service σ) (limits : EndpointConfig) (effects : List WorkerEffect)
    (w w' : Worker σ) : Prop where
  handled : Handled service w.session w.nextTicket (dispatchesIn effects) w'.session w'.nextTicket
  outstanding : w'.outstanding = w.outstanding ++ acceptedIn effects
  completions : w'.completions
    = w.completions ++ (dispatchesIn effects).filterMap (·.resolution?)
  unsent : w'.unsent = w.unsent ++ (queuedIn effects).flatMap (written limits)
  broken : w'.broken = w.broken
  peer : w'.peer = w.peer
  reading : w'.reading = true → w.reading = true
  speaks : Speaks service w → Speaks service w'

namespace Intake

variable {w w' w'' : Worker σ} {effects : List WorkerEffect}

/-- A worker that does nothing of all this. -/
theorem refl (service : Service σ) (limits : EndpointConfig) (w : Worker σ) :
    Intake service limits [] w w :=
  ⟨.nil _ _, (List.append_nil _).symm, (List.append_nil _).symm, (List.append_nil _).symm, rfl,
    rfl, id, id⟩

/-- To ask the service about a version changes nothing. -/
theorem consulted (h : Intake service limits effects w w') (version : UInt32) (supported : Bool) :
    Intake service limits (.consulted version supported :: effects) w w' :=
  ⟨h.handled, h.outstanding, h.completions, h.unsent, h.broken, h.peer, h.reading,
    h.speaks⟩

/-- What intake is not about may change besides. -/
theorem of_eq (h : Intake service limits effects w w') (hsession : w''.session = w'.session)
    (hticket : w''.nextTicket = w'.nextTicket) (houtstanding : w''.outstanding = w'.outstanding)
    (hcompletions : w''.completions = w'.completions) (hunsent : w''.unsent = w'.unsent)
    (hbroken : w''.broken = w'.broken) (hpeer : w''.peer = w'.peer)
    (hversion : w''.version = w'.version) (hreading : w''.reading = true → w'.reading = true) :
    Intake service limits effects w w'' where
  handled := by
    rw [hsession, hticket]
    exact h.handled
  outstanding := houtstanding.trans h.outstanding
  completions := hcompletions.trans h.completions
  unsent := hunsent.trans h.unsent
  broken := hbroken.trans h.broken
  peer := hpeer.trans h.peer
  reading := fun hstill => h.reading (hreading hstill)
  speaks := by
    unfold Speaks
    rw [hversion]
    exact h.speaks

/-- **Frames are taken in, and then others.** -/
theorem trans (h : Intake service limits effects w w') {more : List WorkerEffect}
    (h' : Intake service limits more w' w'') :
    Intake service limits (effects ++ more) w w'' where
  handled := by
    rw [dispatchesIn_append]
    exact h.handled.append h'.handled
  outstanding := by
    rw [h'.outstanding, h.outstanding, acceptedIn_append, List.append_assoc]
  completions := by
    rw [h'.completions, h.completions, dispatchesIn_append, List.filterMap_append,
      List.append_assoc]
  unsent := by
    rw [h'.unsent, h.unsent, queuedIn_append, List.flatMap_append, List.append_assoc]
  broken := h'.broken.trans h.broken
  peer := h'.peer.trans h.peer
  reading := fun hstill => h.reading (h'.reading hstill)
  speaks := fun hspeaks => h'.speaks (h.speaks hspeaks)

/-- A response is queued. -/
theorem queue (service : Service σ) (limits : EndpointConfig) (frame : ResponseFrame)
    (w : Worker σ) :
    Intake service limits (w.queue limits frame).2 w (w.queue limits frame).1 where
  handled := .nil _ _
  outstanding := (List.append_nil _).symm
  completions := (List.append_nil _).symm
  unsent := congrArg (w.unsent ++ ·) (List.flatMap_singleton (written limits) frame).symm
  broken := rfl
  peer := rfl
  reading := id
  speaks := id

theorem revoke (h : Intake service limits effects w w') (n : SequenceNumber) :
    Intake service limits effects w (w'.revoke n) := by
  unfold Worker.revoke
  split
  · exact h.of_eq rfl rfl rfl rfl rfl rfl rfl rfl id
  · exact h

theorem revokeAll (h : Intake service limits effects w w') (ns : List SequenceNumber) :
    Intake service limits effects w (w'.revokeAll ns) := by
  unfold Worker.revokeAll
  induction ns generalizing w' with
  | nil => exact h
  | cons n ns ih => exact ih (h.revoke n)

end Intake

/-! ## §3. One frame. -/

variable {w : Worker σ}

/-- No call is under a number that is free, so one that takes it and leaves it again leaves the
others. -/
theorem filter_outstanding_of_free {n : SequenceNumber} (hfree : w.outstanding? n = none)
    (ticket : Ticket) : (w.outstanding ++ [(n, ticket)]).filter (·.1 != n) = w.outstanding := by
  rw [List.filter_append, List.filter_cons_of_neg (by simp), List.filter_nil, List.append_nil,
    List.filter_eq_self]
  intro entry hentry
  simpa using ne_of_outstanding?_eq_none hfree hentry

/-- A call is handed over and accepted: it is outstanding. -/
theorem Intake.accept {frame : RequestFrame} (limits : EndpointConfig)
    (hverdict : (w.dispatchOf service shutdown frame).verdict = .ok ()) :
    Intake service limits [(w.dispatchOf service shutdown frame).effect] w
      (w.handOver service shutdown frame) := by
  have hover := handedOver service shutdown frame w
  have hentry : acceptedIn [(w.dispatchOf service shutdown frame).effect]
      = [entryOf (w.dispatchOf service shutdown frame).call] := by
    show [w.dispatchOf service shutdown frame].filterMap (·.admitted?) = _
    simp [Dispatch.admitted?, hverdict]
  refine ⟨.cons _ rfl (.nil _ _), ?_, hover.completions, ?_, hover.broken, rfl,
    hover.reading ▸ id, id⟩
  · rw [hentry]
    exact hover.outstanding
  · show _ = w.unsent ++ []
    rw [List.append_nil]
    exact hover.unsent

/-- A call is handed over and rejected: it leaves the outstanding ones again, and is answered. -/
theorem Intake.reject {frame : RequestFrame} (limits : EndpointConfig)
    (hfree : w.outstanding? frame.sequence = none) {e : Failure}
    (hverdict : (w.dispatchOf service shutdown frame).verdict = .error e) :
    Intake service limits
      [(w.dispatchOf service shutdown frame).effect,
        .finished (w.dispatchOf service shutdown frame).call (.error e),
        .queued (.failure frame.sequence e)] w
      ({ w.handOver service shutdown frame with
          outstanding := (w.handOver service shutdown frame).outstanding.filter
            (·.1 != frame.sequence) }.queue limits (.failure frame.sequence e)).1 := by
  have hover := handedOver service shutdown frame w
  have hentry : [w.dispatchOf service shutdown frame].filterMap (·.admitted?) = [] := by
    simp [Dispatch.admitted?, hverdict]
  refine ⟨.cons _ rfl (.nil _ _), ?_, hover.completions, ?_, hover.broken, rfl,
    hover.reading ▸ id, id⟩
  · show (w.handOver service shutdown frame).outstanding.filter (·.1 != frame.sequence)
      = w.outstanding ++ [w.dispatchOf service shutdown frame].filterMap (·.admitted?)
    rw [hentry, List.append_nil, hover.outstanding, hover.entry]
    exact filter_outstanding_of_free hfree w.nextTicket
  · show (w.handOver service shutdown frame).unsent ++ written limits (.failure frame.sequence e)
      = w.unsent ++ [ResponseFrame.failure frame.sequence e].flatMap (written limits)
    rw [hover.unsent, List.flatMap_singleton]

/-- **A call is handed to the service**, or its number is taken and nothing is done. -/
theorem Intake.dispatch (service : Service σ) (limits : EndpointConfig) (shutdown : Bool)
    (frame : RequestFrame) (w : Worker σ) :
    Intake service limits (w.dispatch service limits shutdown frame).effects w
        (w.dispatch service limits shutdown frame).worker
      ∧ ((w.dispatch service limits shutdown frame).fault = none →
          (dispatchesIn (w.dispatch service limits shutdown frame).effects).map (·.asks)
            = [frame.asks]
          ∧ queuedIn (w.dispatch service limits shutdown frame).effects
            = rejectionsIn (w.dispatch service limits shutdown frame).effects)
      ∧ ((w.dispatch service limits shutdown frame).fault ≠ none →
          (w.dispatch service limits shutdown frame).effects = []) := by
  cases hfree : w.outstanding? frame.sequence with
  | some ticket =>
    unfold Worker.dispatch
    dsimp only
    rw [hfree]
    refine ⟨.refl service limits w, fun hnone => ?_, fun _ => rfl⟩
    cases hnone
  | none =>
    have hover := handedOver service shutdown frame w
    have hasks : [(w.dispatchOf service shutdown frame).asks] = [frame.asks] := by
      rw [hover.asks]
    rw [dispatch_eq hfree]
    dsimp only
    cases hverdict : (w.dispatchOf service shutdown frame).verdict with
    | ok _ =>
      have hnone : [w.dispatchOf service shutdown frame].filterMap (·.rejection?) = [] := by
        simp [Dispatch.rejection?, hverdict]
      exact ⟨.accept limits hverdict, fun _ => ⟨hasks, hnone.symm⟩, fun hne => absurd rfl hne⟩
    | error e =>
      have hsequence : (w.dispatchOf service shutdown frame).call.sequence = frame.sequence :=
        congrArg Prod.fst hover.entry
      have hone : [w.dispatchOf service shutdown frame].filterMap (·.rejection?)
          = [.failure frame.sequence e] := by
        simp [Dispatch.rejection?, hverdict, hsequence]
      exact ⟨.reject limits hfree hverdict, fun _ => ⟨hasks, hone.symm⟩, fun hne => absurd rfl hne⟩

/-- The version of a frame is checked.  No call is handed over; unless the version is at fault,
nothing is queued, and the service speaks it. -/
theorem Intake.checkVersion (service : Service σ) (limits : EndpointConfig)
    (frame : RequestFrame) (w : Worker σ) :
    Intake service limits (w.checkVersion service limits frame).effects w
        (w.checkVersion service limits frame).worker
      ∧ dispatchesIn (w.checkVersion service limits frame).effects = []
      ∧ ((w.checkVersion service limits frame).fault = none →
          queuedIn (w.checkVersion service limits frame).effects = []
          ∧ (Speaks service w → service.supports frame.version = true)) := by
  unfold Worker.checkVersion
  cases hversion : w.version with
  | some expected =>
    dsimp only
    by_cases hsame : expected = frame.version
    · rw [if_pos hsame]
      exact ⟨.refl service limits w, rfl, fun _ => ⟨rfl, fun hspeaks =>
        hspeaks frame.version (hsame ▸ hversion)⟩⟩
    · rw [if_neg hsame]
      refine ⟨.refl service limits w, rfl, fun hnone => ?_⟩
      cases hnone
  | none =>
    dsimp only
    by_cases hsupports : service.supports frame.version = true
    · rw [if_pos hsupports]
      have hspoken : Speaks service { w with version := some frame.version } := by
        intro version hsome
        rw [← Option.some.inj hsome]
        exact hsupports
      have hfixed : Intake service limits [] w { w with version := some frame.version } :=
        { Intake.refl service limits w with speaks := fun _ => hspoken }
      exact ⟨hfixed.consulted _ _, rfl, fun _ => ⟨rfl, fun _ => hsupports⟩⟩
    · rw [if_neg hsupports]
      refine ⟨(Intake.queue service limits _ w).consulted _ _, rfl, fun hnone => ?_⟩
      cases hnone

/-- **A frame is taken in.**  A call is handed over, unless the frame is at fault, in a version that
the service speaks; what is queued answers a rejection. -/
theorem Intake.takeIn (service : Service σ) (limits : EndpointConfig) (shutdown : Bool)
    (frame : RequestFrame) (w : Worker σ) :
    Intake service limits (w.takeIn service limits shutdown frame).effects w
        (w.takeIn service limits shutdown frame).worker
      ∧ ((w.takeIn service limits shutdown frame).fault = none →
          (dispatchesIn (w.takeIn service limits shutdown frame).effects).map (·.asks)
            = (callsIn [frame]).map (·.asks)
          ∧ queuedIn (w.takeIn service limits shutdown frame).effects
            = rejectionsIn (w.takeIn service limits shutdown frame).effects)
      ∧ ((w.takeIn service limits shutdown frame).fault ≠ none →
          dispatchesIn (w.takeIn service limits shutdown frame).effects = [])
      ∧ (Speaks service w →
          ∀ d ∈ dispatchesIn (w.takeIn service limits shutdown frame).effects,
            service.supports d.call.interface = true) := by
  obtain ⟨hchecked, hnone, hquiet⟩ := Intake.checkVersion service limits frame w
  unfold Worker.takeIn
  generalize w.checkVersion service limits frame = checked at *
  obtain ⟨w', fault, effects⟩ := checked
  dsimp only at hchecked hnone hquiet
  have hrejected : rejectionsIn effects = [] := by
    unfold rejectionsIn
    rw [hnone]
    rfl
  cases fault with
  | some e =>
    refine ⟨hchecked, fun hfault => ?_, fun _ => hnone, fun _ d hd => ?_⟩
    · cases hfault
    · rw [hnone] at hd
      cases hd
  | none =>
    cases hkind : frame.kind with
    | cancel =>
      have hcalls : callsIn [frame] = [] := List.filter_cons_of_neg (by simp [hkind])
      refine ⟨hchecked.revoke frame.sequence, fun _ => ⟨?_, ?_⟩, fun hne => absurd rfl hne,
        fun _ d hd => ?_⟩
      · show (dispatchesIn effects).map (·.asks) = (callsIn [frame]).map (·.asks)
        rw [hnone, hcalls]
        rfl
      · show queuedIn effects = rejectionsIn effects
        rw [(hquiet rfl).1, hrejected]
      · replace hd : d ∈ dispatchesIn effects := hd
        rw [hnone] at hd
        cases hd
    | call =>
      have hcalls : callsIn [frame] = [frame] := List.filter_cons_of_pos (by simp [hkind])
      obtain ⟨hdispatched, hgoes, hstops⟩ := Intake.dispatch service limits shutdown frame w'
      refine ⟨hchecked.trans hdispatched, fun hfault => ?_, fun hfault => ?_,
        fun hspeaks d hd => ?_⟩
      · obtain ⟨hasks, hqueued⟩ := hgoes hfault
        dsimp only
        rw [dispatchesIn_append, hnone, List.nil_append, queuedIn_append, (hquiet rfl).1,
          rejectionsIn_append, hrejected, hcalls]
        exact ⟨hasks, hqueued⟩
      · dsimp only
        rw [dispatchesIn_append, hnone, hstops hfault]
        rfl
      · -- what was handed over speaks the version of the frame
        dsimp only at hd
        rw [dispatchesIn_append, hnone, List.nil_append] at hd
        cases hfault : (w'.dispatch service limits shutdown frame).fault with
        | some e =>
          rw [hstops (by rw [hfault]; exact Option.some_ne_none e)] at hd
          cases hd
        | none =>
          have hasks : d.asks ∈ [frame.asks] := (hgoes hfault).1 ▸ List.mem_map_of_mem hd
          have hversion : d.call.interface = frame.version :=
            congrArg (·.2.1) (List.mem_singleton.mp hasks)
          rw [hversion]
          exact (hquiet rfl).2 hspeaks

/-! ## §4. The frames of a buffer. -/

/-- What becomes of a worker that takes frames off a buffer and leaves the rest of it.  It goes on
(`goes`), or has met a fault. -/
structure Pumping (service : Service σ) (limits : EndpointConfig) (goes : Prop)
    (buffer left : Bytes) (effects : List WorkerEffect) (w w' : Worker σ) : Prop
    extends Intake service limits effects w w' where
  /-- No more calls are outstanding than may be. -/
  room : w.outstanding.length ≤ limits.maxOutstandingCalls →
    w'.outstanding.length ≤ limits.maxOutstandingCalls
  /-- A worker that goes on has answered rejections only. -/
  rejections : goes → queuedIn effects = rejectionsIn effects
  /-- No call is handed over in a version that the service does not speak. -/
  interfaces : Speaks service w →
    ∀ d ∈ dispatchesIn effects, service.supports d.call.interface = true
  /-- The calls that are handed over are those of the frames that are taken. -/
  order : ∃ taken, taken <+: (RequestFrame.drain limits.maxMessageSize buffer).1
    ∧ (dispatchesIn effects).map (·.asks) = (callsIn taken).map (·.asks)
    ∧ (goes → ∀ more, RequestFrame.Taken limits.maxMessageSize (buffer ++ more) taken
        (left ++ more))

namespace Pumping

variable {goes : Prop} {buffer left : Bytes} {effects : List WorkerEffect} {w' w'' : Worker σ}

/-- A worker that takes no frame, and leaves the buffer alone if it goes on. -/
theorem stay (h : Intake service limits [] w w') (hleft : goes → left = buffer) :
    Pumping service limits goes buffer left [] w w' := by
  refine ⟨h, fun hroom => ?_, fun _ => rfl, fun _ d hd => absurd hd List.not_mem_nil, [],
    List.nil_prefix, rfl, fun hgoes more => ?_⟩
  · rw [h.outstanding]
    show (w.outstanding ++ []).length ≤ _
    rw [List.append_nil]
    exact hroom
  · rw [hleft hgoes]
    exact Frame.taken_nil _

/-- A worker that takes frames and hands no call over, and goes on no more. -/
theorem stop (h : Intake service limits effects w w') (hnone : dispatchesIn effects = [])
    (hstops : ¬ goes) : Pumping service limits goes buffer left effects w w' := by
  refine ⟨h, fun hroom => ?_, fun hgoes => absurd hgoes hstops, fun _ => ?_, [], List.nil_prefix, ?_,
    fun hgoes => absurd hgoes hstops⟩
  · rw [h.outstanding, acceptedIn, hnone]
    show (w.outstanding ++ []).length ≤ _
    rw [List.append_nil]
    exact hroom
  · rw [hnone]
    exact fun d hd => absurd hd List.not_mem_nil
  · rw [hnone]
    rfl

/-- **A worker takes in one frame, and room is left**: a call is decoded only if another may be
outstanding. -/
theorem room_takeIn {buffer rest : Bytes} {frame : RequestFrame}
    (hroom : w.outstanding.length ≤ limits.maxOutstandingCalls)
    (hlets : ¬ (w.isFull limits && !RequestFrame.nextIsCancel buffer) = true)
    (hframe : RequestFrame.decode limits.maxMessageSize buffer = .frame frame rest)
    (service : Service σ) (shutdown : Bool) :
    (w.takeIn service limits shutdown frame).worker.outstanding.length
      ≤ limits.maxOutstandingCalls := by
  obtain ⟨hintake, hgoes, hstops, -⟩ := Intake.takeIn service limits shutdown frame w
  generalize w.takeIn service limits shutdown frame = admitted at *
  -- one call is handed over at most, and none if the frame is a cancel
  have hone : (acceptedIn admitted.effects).length ≤ (callsIn [frame]).length := by
    calc (acceptedIn admitted.effects).length
        ≤ (dispatchesIn admitted.effects).length := List.length_filterMap_le _ _
      _ ≤ (callsIn [frame]).length := by
        cases hfault : admitted.fault with
        | none =>
          have hsame := congrArg List.length (hgoes hfault).1
          rw [List.length_map, List.length_map] at hsame
          exact Nat.le_of_eq hsame
        | some e =>
          rw [hstops (by rw [hfault]; exact Option.some_ne_none e)]
          exact Nat.zero_le _
  rw [hintake.outstanding, List.length_append]
  by_cases hfull : w.isFull limits = true
  · have hcancel : RequestFrame.nextIsCancel buffer = true := by
      rw [hfull] at hlets
      simpa using hlets
    have hnone : callsIn [frame] = [] :=
      List.filter_cons_of_neg (by simp [RequestFrame.kind_of_nextIsCancel hcancel hframe])
    rw [hnone] at hone
    simp only [List.length_nil] at hone
    omega
  · have hfree : w.outstanding.length < limits.maxOutstandingCalls := by
      unfold isFull at hfull
      simpa using hfull
    have hmost : (callsIn [frame]).length ≤ 1 := List.length_filter_le _ _
    omega

/-- **Frames are taken off a buffer**, whatever is in it. -/
theorem pumpFrom (service : Service σ) (limits : EndpointConfig) (shutdown : Bool) (buffer : Bytes)
    (w : Worker σ) :
    Pumping service limits ((w.pumpFrom service limits shutdown buffer).fault = none) buffer
      (w.pumpFrom service limits shutdown buffer).buffer
      (w.pumpFrom service limits shutdown buffer).effects w
      (w.pumpFrom service limits shutdown buffer).worker := by
  -- each frame shortens the buffer
  induction hlength : buffer.length using Nat.strongRecOn generalizing buffer w with
  | ind n ih =>
    have hnothing := Intake.refl service limits w
    rw [Worker.pumpFrom]
    split
    · -- the worker is full: it looks ahead and takes nothing
      exact .stay (hnothing.revokeAll _) fun _ => rfl
    · next hlets =>
      split
      · exact .stay hnothing fun _ => rfl
      · next e rest _ =>
        refine .stay hnothing fun hnone => ?_
        cases hnone
      · next frame rest hframe =>
        obtain ⟨hintake, hgoes, hstops, hspeaks⟩ := Intake.takeIn service limits shutdown frame w
        have hroom : w.outstanding.length ≤ limits.maxOutstandingCalls →
            (w.takeIn service limits shutdown frame).worker.outstanding.length
              ≤ limits.maxOutstandingCalls :=
          fun hbefore => room_takeIn hbefore hlets hframe service shutdown
        generalize w.takeIn service limits shutdown frame = admitted at *
        obtain ⟨w', fault, effects⟩ := admitted
        dsimp only at *
        cases fault with
        | some e =>
          refine .stop hintake (hstops (Option.some_ne_none e)) fun hnone => ?_
          cases hnone
        | none =>
          obtain ⟨hasks, hqueued⟩ := hgoes rfl
          have hshorter : rest.length < n := hlength ▸ Frame.length_of_decodeWith hframe
          have hmore := ih rest.length hshorter rest w' rfl
          obtain ⟨taken, hinitial, hcalls, htaken⟩ := hmore.order
          refine ⟨hintake.trans hmore.toIntake, fun hbefore => hmore.room (hroom hbefore),
            fun hnone => ?_, fun hspoken d hd => ?_, frame :: taken, ?_, ?_,
            fun hnone more => ?_⟩
          · rw [queuedIn_append, rejectionsIn_append, hqueued, hmore.rejections hnone]
          · rw [dispatchesIn_append, List.mem_append] at hd
            exact hd.elim (hspeaks hspoken d) (hmore.interfaces (hintake.speaks hspoken) d)
          · rw [RequestFrame.drain, Frame.drainWith_frame hframe]
            exact List.cons_prefix_cons.mpr ⟨rfl, hinitial⟩
          · rw [dispatchesIn_append, List.map_append, hasks, hcalls, ← List.map_append,
              ← callsIn_append]
            rfl
          · exact ((Frame.taken_nil _).frame (Frame.decodeWith_append hframe more)).trans
              (htaken hnone more)

/-- **The frames of the receive buffer are taken.**  After a fault nothing more is read. -/
theorem pump (service : Service σ) (limits : EndpointConfig) (shutdown : Bool) (w : Worker σ) :
    Pumping service limits ((w.pump service limits shutdown).1.reading = true) w.received
      (w.pump service limits shutdown).1.received (w.pump service limits shutdown).2 w
      (w.pump service limits shutdown).1 := by
  have h := pumpFrom service limits shutdown w.received w
  unfold Worker.pump
  generalize w.pumpFrom service limits shutdown w.received = pumped at *
  obtain ⟨w', buffer, fault, effects⟩ := pumped
  obtain ⟨taken, hinitial, hcalls, htaken⟩ := h.order
  cases fault with
  | none =>
    exact ⟨h.toIntake.of_eq rfl rfl rfl rfl rfl rfl rfl rfl id, h.room, fun _ => h.rejections rfl,
      h.interfaces, taken, hinitial, hcalls, fun _ => htaken rfl⟩
  | some e =>
    refine ⟨h.toIntake.of_eq rfl rfl rfl rfl rfl rfl rfl rfl fun hreading => ?_, h.room,
      fun hreading => ?_, h.interfaces, taken, hinitial, hcalls, fun hreading => ?_⟩
    · cases hreading
    · cases hreading
    · cases hreading

end Pumping

/-- **The calls that are left at the end are refused**: nothing is handed over. -/
theorem Intake.refuseFrom (service : Service σ) (limits : EndpointConfig) (buffer : Bytes)
    (w : Worker σ) :
    Intake service limits (w.refuseFrom limits buffer).effects w
        (w.refuseFrom limits buffer).worker
      ∧ dispatchesIn (w.refuseFrom limits buffer).effects = [] := by
  induction hlength : buffer.length using Nat.strongRecOn generalizing buffer w with
  | ind n ih =>
    have hnothing := Intake.refl service limits w
    rw [Worker.refuseFrom]
    split
    · exact ⟨hnothing, rfl⟩
    · exact ⟨hnothing, rfl⟩
    · next frame rest hframe =>
      have hshorter : rest.length < n := hlength ▸ Frame.length_of_decodeWith hframe
      split
      · obtain ⟨hintake, hnone⟩ := ih rest.length hshorter rest (w.revoke frame.sequence) rfl
        exact ⟨(hnothing.revoke frame.sequence).trans hintake, hnone⟩
      · obtain ⟨hintake, hnone⟩ := ih rest.length hshorter rest
          (w.queue limits (.failure frame.sequence .shuttingDown)).1 rfl
        exact ⟨(Intake.queue service limits _ w).trans hintake, hnone⟩

/-! ## §5. Steps. -/

/-- What happens at a moment before frames are taken. -/
def Moment.opening (limits : EndpointConfig) (m : Moment σ) : Worked σ :=
  let w := m.before.worker
  match m.occurrence with
  | .signalled => (w, [])
  | .resolved call outcome => (w.resolve call outcome, [])
  | .worked .shutdown => ({ w with reading := false }, [])
  | .worked (.received chunk) => ({ w with received := w.received ++ chunk }, [])
  | .worked .lost | .worked .writeFailed => (w.disconnect, [])
  | .worked (.wrote count) => ({ w with unsent := w.unsent.drop count }, [])
  | .worked .drained =>
    match w.completions with
    | [] => (w, [])
    | done :: rest => { w with completions := rest }.complete limits done

/-- What becomes of a worker at a moment before frames are taken. -/
structure Opened (m : Moment σ) (effects : List WorkerEffect) (w' : Worker σ) : Prop where
  dispatched : dispatchesIn effects = []
  session : w'.session = m.before.worker.session
  nextTicket : w'.nextTicket = m.before.worker.nextTicket
  peer : w'.peer = m.before.worker.peer
  version : w'.version = m.before.worker.version
  received : w'.received = m.before.worker.received ++ m.arrived
  reading : w'.reading = true → m.before.worker.reading = true
  listens : w'.reading = true → w'.broken = m.before.worker.broken
  /-- What is outstanding no more is under the number of a resolution that is taken up. -/
  outstanding : w'.outstanding = m.before.worker.outstanding.filter fun entry =>
    m.takenUp?.all fun done => entry.1 != done.call.sequence

/-- Where no resolution is taken up, all that is outstanding stays so. -/
theorem filter_takenUp_none (xs : List (SequenceNumber × Ticket)) :
    xs.filter (fun entry => (none : Option Completed).all fun done =>
      entry.1 != done.call.sequence) = xs :=
  List.filter_eq_self.mpr fun _ _ => rfl

/-- **To take up a resolution is to take out what is under its number**, if anything is. -/
theorem outstanding_complete (limits : EndpointConfig) (done : Completed) (w : Worker σ) :
    (w.complete limits done).1.outstanding
      = w.outstanding.filter (·.1 != done.call.sequence) := by
  cases hfind : w.outstanding? done.call.sequence with
  | some ticket => rw [complete_eq hfind]
  | none =>
    rw [complete_eq_self hfind]
    symm
    apply List.filter_eq_self.mpr
    intro entry hentry
    simpa using ne_of_outstanding?_eq_none hfind hentry

/-- What a worker keeps besides stays when it takes up a resolution, and no call is handed over. -/
theorem complete_quiet (limits : EndpointConfig) (done : Completed) (w : Worker σ) :
    dispatchesIn (w.complete limits done).2 = []
      ∧ (w.complete limits done).1.session = w.session
      ∧ (w.complete limits done).1.nextTicket = w.nextTicket
      ∧ (w.complete limits done).1.peer = w.peer := by
  cases hfind : w.outstanding? done.call.sequence with
  | none =>
    rw [complete_eq_self hfind]
    exact ⟨rfl, rfl, rfl, rfl⟩
  | some ticket =>
    rw [complete_eq hfind]
    exact ⟨dispatchesIn_map_queued _, rfl, rfl, rfl⟩

theorem Moment.opened (limits : EndpointConfig) (m : Moment σ) :
    Opened m (m.opening limits).2 (m.opening limits).1 := by
  obtain ⟨⟨w, shutdown, held⟩, occurrence⟩ := m
  have hall := (filter_takenUp_none w.outstanding).symm
  have hnothing := (List.append_nil w.received).symm
  cases occurrence with
  | signalled => exact ⟨rfl, rfl, rfl, rfl, rfl, hnothing, id, fun _ => rfl, hall⟩
  | resolved call outcome => exact ⟨rfl, rfl, rfl, rfl, rfl, hnothing, id, fun _ => rfl, hall⟩
  | worked event =>
    cases event with
    | received chunk => exact ⟨rfl, rfl, rfl, rfl, rfl, rfl, id, fun _ => rfl, hall⟩
    | wrote count => exact ⟨rfl, rfl, rfl, rfl, rfl, hnothing, id, fun _ => rfl, hall⟩
    | shutdown => exact ⟨rfl, rfl, rfl, rfl, rfl, hnothing, nofun, nofun, hall⟩
    | lost => exact ⟨rfl, rfl, rfl, rfl, rfl, hnothing, nofun, nofun, hall⟩
    | writeFailed => exact ⟨rfl, rfl, rfl, rfl, rfl, hnothing, nofun, nofun, hall⟩
    | drained =>
      unfold Moment.opening
      dsimp only
      cases hcompletions : w.completions with
      | nil =>
        have hnone : (⟨⟨w, shutdown, held⟩, .worked .drained⟩ : Moment σ).takenUp? = none := by
          show w.completions.head? = none
          rw [hcompletions]
          rfl
        refine ⟨rfl, rfl, rfl, rfl, rfl, hnothing, id, fun _ => rfl, ?_⟩
        rw [hnone]
        exact hall
      | cons done later =>
        have hsome : (⟨⟨w, shutdown, held⟩, .worked .drained⟩ : Moment σ).takenUp? = some done := by
          show w.completions.head? = some done
          rw [hcompletions]
          rfl
        obtain ⟨hreading, hbroken, hreceived, hversion⟩ :=
          complete_same limits done { w with completions := later }
        obtain ⟨hquiet, hsession, hticket, hpeer⟩ :=
          complete_quiet limits done { w with completions := later }
        refine ⟨hquiet, hsession, hticket, hpeer, hversion, hreceived.trans hnothing,
          fun hreads => hreading.symm.trans hreads, fun _ => hbroken, ?_⟩
        rw [hsome]
        exact outstanding_complete limits done { w with completions := later }

/-- The worker after a moment. -/
def Moment.worker (service : Service σ) (limits : EndpointConfig) (m : Moment σ) : Worker σ :=
  (m.before.after service limits m.occurrence).1.worker

/-- **At any moment frames are taken, if any, after everything else.** -/
theorem Moment.pumping (service : Service σ) (limits : EndpointConfig) (m : Moment σ) :
    ∃ effects, m.effects service limits = (m.opening limits).2 ++ effects
      ∧ Pumping service limits ((m.worker service limits).reading = true)
        (m.opening limits).1.received (m.worker service limits).received effects
        (m.opening limits).1 (m.worker service limits) := by
  obtain ⟨⟨w, shutdown, held⟩, occurrence⟩ := m
  have hstays : ∀ w' : Worker σ, Pumping service limits (w'.reading = true) w'.received w'.received
      [] w' w' := fun w' => .stay (.refl service limits w') fun _ => rfl
  cases occurrence with
  | signalled => exact ⟨[], rfl, hstays w⟩
  | resolved call outcome => exact ⟨[], rfl, hstays (w.resolve call outcome)⟩
  | worked event =>
    cases event with
    | lost => exact ⟨[], rfl, hstays w.disconnect⟩
    | writeFailed => exact ⟨[], rfl, hstays w.disconnect⟩
    | wrote count => exact ⟨[], rfl, hstays { w with unsent := w.unsent.drop count }⟩
    | received chunk => exact ⟨_, rfl, .pump service limits shutdown _⟩
    | shutdown =>
      obtain ⟨hintake, hnone⟩ :=
        Intake.refuseFrom service limits w.received { w with reading := false }
      refine ⟨_, rfl, .stop (hintake.of_eq rfl rfl rfl rfl rfl rfl rfl rfl id) hnone fun hreading => ?_⟩
      -- a worker that has stopped reading does not read again
      cases hintake.reading hreading
    | drained =>
      unfold Moment.effects Moment.worker Moment.opening Scene.after step
      dsimp only
      cases w.completions with
      | nil => exact ⟨[], rfl, hstays w⟩
      | cons done later =>
        dsimp only
        generalize ({ w with completions := later } : Worker σ).complete limits done = result
        obtain ⟨w', effects⟩ := result
        dsimp only
        by_cases hreads : w'.reading = true
        · rw [if_pos hreads]
          exact ⟨_, rfl, .pump service limits shutdown w'⟩
        · rw [if_neg hreads]
          exact ⟨[], (List.append_nil _).symm, hstays w'⟩

end Worker

end RemoteCall
