/-
  RemoteCall.Proofs.Server.Handshake
  ──────────────────────────────────
  **EVERY CONNECTION SPEAKS ONE VERSION.**

  The first frame of a connection, be it a call or a cancel, names the version
  that the connection is to speak, and the service is asked about that one only:

      it speaks the version     every call is handed over in that version
      it does not               the peer is told so, and nothing is handed over

  A later frame that names another version is turned away without an answer.
  Either way nothing behind the frame is handed over, no answer is wanted any
  more, and the calls before it are answered as before (`TurnsAway`).

  Main statements:
    • `Keeps.pumpFrom`        — frames are taken when a version is spoken,
    • `pumpFrom_first`        — frames are taken when none is,
    • `Run.agreement`         — what a worker and its peer have agreed upon,
    • `Run.turns_away`, `Run.refuses` — a frame in another version,
    • `Run.answered`          — the calls before it,
    • `one_version_is_spoken` — the statement about runs.
-/
import RemoteCall.Proofs.Server.Attention
import RemoteCall.Proofs.Server.Replies

namespace RemoteCall.Worker

open RemoteCall.RequestFrame

/-! ## §1. What the service is asked. -/

/-- The version that the service was asked about, and whether it speaks it, if an effect tells of
that. -/
def consulted? : WorkerEffect → Option (UInt32 × Bool)
  | .consulted version supported => some (version, supported)
  | _ => none

/-- What the service was asked and what it said, in order. -/
def consultedIn (effects : List WorkerEffect) : List (UInt32 × Bool) :=
  effects.filterMap consulted?

@[simp] theorem consultedIn_append (xs ys : List WorkerEffect) :
    consultedIn (xs ++ ys) = consultedIn xs ++ consultedIn ys :=
  List.filterMap_append

@[simp] theorem consultedIn_map_queued (frames : List ResponseFrame) :
    consultedIn (frames.map .queued) = [] := by
  unfold consultedIn
  rw [List.filterMap_map, List.filterMap_eq_nil_iff]
  exact fun _ _ => rfl

/-- The answer to a frame in a version that the service does not speak. -/
def unsupported (frame : RequestFrame) : ResponseFrame :=
  .failure frame.sequence (.unsupportedVersion frame.version)

variable {σ : Type} {service : Service σ} {limits : EndpointConfig} {shutdown : Bool}
  {version : UInt32} {w w' : Worker σ} {frame : RequestFrame} {received : Bytes}
  {effects more : List WorkerEffect}

/-! ## §2. A version is spoken. -/

/-- A worker that speaks a version has done this: it has asked about none, and has handed calls over
in that one. -/
structure Keeps (version : UInt32) (effects : List WorkerEffect) (w : Worker σ) : Prop where
  speaks : w.version = some version
  asks : consultedIn effects = []
  interfaces : ∀ d ∈ dispatchesIn effects, d.call.interface = version

/-- A frame in another version is at fault, and nothing is done about it. -/
theorem takeIn_mismatch (hversion : w.version = some version) (hother : version ≠ frame.version)
    (service : Service σ) (limits : EndpointConfig) (shutdown : Bool) :
    w.takeIn service limits shutdown frame
      = { worker := w, fault := some (.versionMismatch version frame.version) } := by
  unfold takeIn checkVersion
  rw [hversion]
  dsimp only
  rw [if_neg hother]

namespace Keeps

theorem rest (hversion : w.version = some version) : Keeps version [] w :=
  ⟨hversion, rfl, fun _ hd => absurd hd List.not_mem_nil⟩

theorem trans (h : Keeps version effects w) (h' : Keeps version more w') :
    Keeps version (effects ++ more) w' := by
  refine ⟨h'.speaks, ?_, ?_⟩
  · rw [consultedIn_append, h.asks, h'.asks, List.append_nil]
  · intro d hd
    rw [dispatchesIn_append, List.mem_append] at hd
    exact hd.elim (h.interfaces d) (h'.interfaces d)

/-- **A call is handed over in the version of its frame.** -/
theorem dispatch (hversion : w.version = some frame.version) (service : Service σ)
    (limits : EndpointConfig) (shutdown : Bool) :
    Keeps frame.version (w.dispatch service limits shutdown frame).effects
      (w.dispatch service limits shutdown frame).worker := by
  cases hfree : w.outstanding? frame.sequence with
  | some ticket =>
    unfold Worker.dispatch
    dsimp only
    rw [hfree]
    exact .rest hversion
  | none =>
    have hcall : ∀ d ∈ [w.dispatchOf service shutdown frame], d.call.interface = frame.version := by
      intro d hd
      rw [List.mem_singleton.mp hd]
      rfl
    rw [dispatch_eq hfree]
    dsimp only
    cases (w.dispatchOf service shutdown frame).verdict with
    | ok _ => exact ⟨hversion, rfl, hcall⟩
    | error e => exact ⟨hversion, rfl, hcall⟩

theorem takeIn (hversion : w.version = some version) (service : Service σ)
    (limits : EndpointConfig) (shutdown : Bool) (frame : RequestFrame) :
    Keeps version (w.takeIn service limits shutdown frame).effects
      (w.takeIn service limits shutdown frame).worker := by
  by_cases hother : version = frame.version
  · subst hother
    have hchecked : w.checkVersion service limits frame = { worker := w } := by
      unfold checkVersion
      rw [hversion]
      exact if_pos rfl
    unfold Worker.takeIn
    rw [hchecked]
    cases frame.kind with
    | cancel =>
      refine ⟨?_, rfl, fun _ hd => absurd hd List.not_mem_nil⟩
      show (w.revoke frame.sequence).version = some frame.version
      rw [revoke_eq]
      exact hversion
    | call => exact dispatch hversion service limits shutdown
  · rw [takeIn_mismatch hversion hother]
    exact .rest hversion

theorem revokeAll (hversion : w.version = some version) (ns : List SequenceNumber) :
    Keeps version [] (w.revokeAll ns) := by
  unfold Worker.revokeAll
  induction ns generalizing w with
  | nil => exact .rest hversion
  | cons n ns ih =>
    apply ih
    rw [revoke_eq]
    exact hversion

/-- **Frames are taken off a buffer.** -/
theorem pumpFrom (hversion : w.version = some version) (service : Service σ)
    (limits : EndpointConfig) (shutdown : Bool) (buffer : Bytes) :
    Keeps version (w.pumpFrom service limits shutdown buffer).effects
      (w.pumpFrom service limits shutdown buffer).worker := by
  induction hlength : buffer.length using Nat.strongRecOn generalizing buffer w with
  | ind n ih =>
    rw [Worker.pumpFrom]
    split
    · exact revokeAll hversion _
    · split
      · exact .rest hversion
      · exact .rest hversion
      · next frame rest hframe =>
        have hfirst := takeIn hversion service limits shutdown frame
        generalize w.takeIn service limits shutdown frame = admitted at *
        obtain ⟨w', fault, effects⟩ := admitted
        cases fault with
        | some e => exact hfirst
        | none =>
          have hshorter : rest.length < n := hlength ▸ Frame.length_of_decodeWith hframe
          exact hfirst.trans (ih rest.length hshorter hfirst.speaks rest rfl)

theorem pump (hversion : w.version = some version) (service : Service σ)
    (limits : EndpointConfig) (shutdown : Bool) :
    Keeps version (w.pump service limits shutdown).2 (w.pump service limits shutdown).1 := by
  obtain ⟨hstill, hasks, hinterfaces⟩ := pumpFrom hversion service limits shutdown w.received
  unfold Worker.pump
  dsimp only
  split <;> exact ⟨hstill, hasks, hinterfaces⟩

/-- The worker that is met on the way through a buffer speaks the version as before. -/
theorem meets {buffer : Bytes} (h : Meets service limits shutdown buffer w effects frame w')
    (hversion : w.version = some version) : w'.version = some version := by
  induction h with
  | here => exact hversion
  | later _ _ _ _ ih => exact ih (takeIn hversion service limits shutdown _).speaks

end Keeps

/-! ## §3. No version is spoken. -/

/-- The first frame is taken in as by a worker that speaks its version, if the service does. -/
theorem takeIn_first (hnone : w.version = none) (hspoken : service.supports frame.version = true) :
    w.takeIn service limits shutdown frame
      = { ({ w with version := some frame.version } : Worker σ).takeIn service limits shutdown
            frame with
          effects := .consulted frame.version true
            :: (({ w with version := some frame.version } : Worker σ).takeIn service limits shutdown
              frame).effects } := by
  unfold takeIn checkVersion
  rw [hnone]
  dsimp only
  rw [hspoken, if_pos rfl, if_pos rfl]
  cases frame.kind <;> rfl

/-- Otherwise it is at fault, and the peer is told so. -/
theorem takeIn_refuses (hnone : w.version = none)
    (hunspoken : service.supports frame.version = false) (limits : EndpointConfig)
    (shutdown : Bool) :
    w.takeIn service limits shutdown frame
      = { worker := (w.queue limits (unsupported frame)).1
          fault := some (.unsupportedVersion frame.version)
          effects := [.consulted frame.version false, .queued (unsupported frame)] } := by
  unfold takeIn checkVersion
  rw [hnone]
  dsimp only
  rw [hunspoken, if_neg Bool.false_ne_true]
  rfl

/-- **A frame that is taken in settles the version.** -/
theorem version_takeIn (hgoes : (w.takeIn service limits shutdown frame).fault = none) :
    (w.takeIn service limits shutdown frame).worker.version = some frame.version := by
  cases hversion : w.version with
  | some version =>
    by_cases hother : version = frame.version
    · subst hother
      exact (Keeps.takeIn hversion service limits shutdown frame).speaks
    · rw [takeIn_mismatch hversion hother] at hgoes
      cases hgoes
  | none =>
    cases hspoken : service.supports frame.version with
    | true =>
      rw [takeIn_first hversion hspoken]
      exact (Keeps.takeIn rfl service limits shutdown frame).speaks
    | false =>
      rw [takeIn_refuses hversion hspoken] at hgoes
      cases hgoes

/-- Where nothing is outstanding there is nothing to revoke. -/
theorem revokeAll_eq_self (hidle : w.outstanding = []) (ns : List SequenceNumber) :
    w.revokeAll ns = w := by
  unfold revokeAll
  induction ns with
  | nil => rfl
  | cons n ns ih =>
    have hnobody : w.revoke n = w := by
      unfold revoke outstanding?
      rw [hidle]
      rfl
    rw [List.foldl_cons, hnobody]
    exact ih

/-- **Frames are taken off a buffer, and the first of them settles what is spoken**, unless there is
none. -/
theorem pumpFrom_first (hnone : w.version = none) (hidle : w.outstanding = [])
    (service : Service σ) (limits : EndpointConfig) (shutdown : Bool) (buffer : Bytes) :
    let pumped := w.pumpFrom service limits shutdown buffer
    (pumped.worker = w ∧ pumped.effects = [] ∧ (pumped.fault = none → pumped.buffer = buffer))
      ∨ ∃ first, (RequestFrame.drain limits.maxMessageSize buffer).1.head? = some first
        ∧ (service.supports first.version = true
            ∧ (∃ effects, pumped.effects = .consulted first.version true :: effects
              ∧ Keeps first.version effects pumped.worker)
          ∨ service.supports first.version = false
            ∧ pumped.fault = some (.unsupportedVersion first.version)
            ∧ pumped.worker = (w.queue limits (unsupported first)).1
            ∧ pumped.effects
              = [.consulted first.version false, .queued (unsupported first)]) := by
  dsimp only
  rw [Worker.pumpFrom]
  split
  · exact .inl ⟨revokeAll_eq_self hidle _, rfl, fun _ => rfl⟩
  · split
    · exact .inl ⟨rfl, rfl, fun _ => rfl⟩
    · exact .inl ⟨rfl, rfl, nofun⟩
    · next first rest hframe =>
      refine .inr ⟨first, ?_, ?_⟩
      · rw [RequestFrame.drain, Frame.drainWith_frame hframe]
        rfl
      · cases hspoken : service.supports first.version with
        | true =>
          refine .inl ⟨rfl, ?_⟩
          have hsettled : ({ w with version := some first.version } : Worker σ).version
              = some first.version := rfl
          have htaken := Keeps.takeIn hsettled service limits shutdown first
          rw [takeIn_first hnone hspoken]
          generalize ({ w with version := some first.version } : Worker σ).takeIn service limits
            shutdown first = admitted at *
          obtain ⟨w', fault, effects⟩ := admitted
          cases fault with
          | some e => exact ⟨effects, rfl, htaken⟩
          | none =>
            exact ⟨_, rfl, htaken.trans (.pumpFrom htaken.speaks service limits shutdown rest)⟩
        | false =>
          rw [takeIn_refuses hnone hspoken]
          exact .inr ⟨rfl, rfl, rfl, rfl⟩

/-- A worker that has not settled on a version comes to a frame: it is the first of the buffer. -/
theorem Meets.first {buffer : Bytes}
    (h : Meets service limits shutdown buffer w effects frame w') (hnone : w'.version = none) :
    effects = [] ∧ w' = w
      ∧ (RequestFrame.drain limits.maxMessageSize buffer).1.head? = some frame := by
  cases h with
  | here _ hframe =>
    refine ⟨rfl, rfl, ?_⟩
    rw [RequestFrame.drain, Frame.drainWith_frame hframe]
    rfl
  | later _ _ hgoes hmeets =>
    rw [Keeps.meets hmeets (version_takeIn hgoes)] at hnone
    cases hnone

/-! ## §4. What is agreed upon. -/

/-- What a worker and its peer have agreed upon, when this has arrived and the worker has done
this. -/
inductive Agreement (service : Service σ) (limits : EndpointConfig) (received : Bytes)
    (effects : List WorkerEffect) (w : Worker σ) : Prop where
  /-- Nothing: no frame has been taken, and what has arrived is ahead of a worker that reads. -/
  | unheard : w.version = none → w.outstanding = [] → consultedIn effects = [] →
    dispatchesIn effects = [] → (w.reading = true → w.received = received ∧ queuedIn effects = []) →
    Agreement service limits received effects w
  /-- The version of the first frame. -/
  | agreed {first : RequestFrame} :
    (RequestFrame.drain limits.maxMessageSize received).1.head? = some first →
    service.supports first.version = true → w.version = some first.version →
    consultedIn effects = [(first.version, true)] →
    (∀ d ∈ dispatchesIn effects, d.call.interface = first.version) →
    Agreement service limits received effects w
  /-- Nothing, since the service does not speak the version of the first frame. -/
  | refused {first : RequestFrame} :
    (RequestFrame.drain limits.maxMessageSize received).1.head? = some first →
    service.supports first.version = false → w.version = none → w.outstanding = [] →
    w.reading = false → consultedIn effects = [(first.version, false)] →
    dispatchesIn effects = [] → queuedIn effects = [unsupported first] →
    Agreement service limits received effects w

/-- More bytes do not change the first frame. -/
theorem head?_drain_append {max : Nat} {first : RequestFrame}
    (h : (RequestFrame.drain max received).1.head? = some first) (tail : Bytes) :
    (RequestFrame.drain max (received ++ tail)).1.head? = some first := by
  have hprefix : (RequestFrame.drain max received).1
      <+: (RequestFrame.drain max (received ++ tail)).1 := Frame.drainWith_isPrefix received tail
  obtain ⟨later, hmore⟩ := hprefix
  obtain ⟨frames, hframes⟩ := List.head?_eq_some_iff.mp h
  rw [← hmore, hframes]
  rfl

/-- **Frames are taken where nothing is agreed upon.** -/
theorem agreement_pump (hnone : w.version = none) (hidle : w.outstanding = [])
    (service : Service σ) (limits : EndpointConfig) (shutdown : Bool) :
    Agreement service limits w.received (w.pump service limits shutdown).2
      (w.pump service limits shutdown).1 := by
  have hfirst := pumpFrom_first hnone hidle service limits shutdown w.received
  unfold Worker.pump
  generalize w.pumpFrom service limits shutdown w.received = pumped at *
  obtain ⟨w', buffer, fault, effects⟩ := pumped
  dsimp only at hfirst ⊢
  rcases hfirst with ⟨rfl, rfl, hleft⟩ | ⟨first, hhead, hfirst⟩
  · cases fault with
    | none => exact .unheard hnone hidle rfl rfl fun _ => ⟨hleft rfl, rfl⟩
    | some e => exact .unheard hnone hidle rfl rfl nofun
  · rcases hfirst with ⟨hspoken, effects, rfl, hkeeps⟩ | ⟨hunspoken, rfl, rfl, rfl⟩
    · have hasked : consultedIn (.consulted first.version true :: effects)
          = [(first.version, true)] := congrArg ((first.version, true) :: ·) hkeeps.asks
      cases fault <;> exact .agreed hhead hspoken hkeeps.speaks hasked hkeeps.interfaces
    · exact .refused hhead hunspoken hnone hidle rfl rfl rfl rfl

/-- Nothing of this was done before that matters. -/
theorem Agreement.behind (h : Agreement service limits received more w)
    (hasks : consultedIn effects = []) (hcalls : dispatchesIn effects = [])
    (hqueued : queuedIn effects = []) : Agreement service limits received (effects ++ more) w := by
  have hasks' : consultedIn (effects ++ more) = consultedIn more := by
    rw [consultedIn_append, hasks, List.nil_append]
  have hcalls' : dispatchesIn (effects ++ more) = dispatchesIn more := by
    rw [dispatchesIn_append, hcalls, List.nil_append]
  have hqueued' : queuedIn (effects ++ more) = queuedIn more := by
    rw [queuedIn_append, hqueued, List.nil_append]
  cases h with
  | unheard hnone hidle hasked hhanded hreads =>
    rw [← hasks'] at hasked
    rw [← hcalls'] at hhanded
    rw [← hqueued'] at hreads
    exact .unheard hnone hidle hasked hhanded hreads
  | agreed hhead hspoken hversion hasked hinterfaces =>
    rw [← hasks'] at hasked
    rw [← hcalls'] at hinterfaces
    exact .agreed hhead hspoken hversion hasked hinterfaces
  | refused hhead hunspoken hnone hidle hstopped hasked hhanded hanswers =>
    rw [← hasks'] at hasked
    rw [← hcalls'] at hhanded
    rw [← hqueued'] at hanswers
    exact .refused hhead hunspoken hnone hidle hstopped hasked hhanded hanswers

/-! ## §5. Moments and runs. -/

/-- Where nothing is outstanding nothing is done before frames are taken. -/
theorem Moment.opening_of_idle {m : Moment σ} (hidle : m.before.worker.outstanding = []) :
    (m.opening limits).2 = [] := by
  rcases m.opening_cases limits with hnothing | ⟨done, later, -, htaken⟩
  · exact hnothing
  · have hfind : ({ m.before.worker with completions := later } : Worker σ).outstanding?
        done.call.sequence = none := by
      unfold outstanding?
      dsimp only
      rw [hidle]
      rfl
    rw [htaken, complete_eq_self hfind]

/-- The service is not asked when a resolution is taken up. -/
theorem consulted_complete (limits : EndpointConfig) (done : Completed) (w : Worker σ) :
    consultedIn (w.complete limits done).2 = [] := by
  cases hfind : w.outstanding? done.call.sequence with
  | none =>
    rw [complete_eq_self hfind]
    rfl
  | some ticket =>
    rw [complete_eq hfind]
    exact consultedIn_map_queued _

theorem Moment.consulted_opening (limits : EndpointConfig) (m : Moment σ) :
    consultedIn (m.opening limits).2 = [] := by
  rcases m.opening_cases limits with hnothing | ⟨done, later, -, htaken⟩
  · rw [hnothing]
    rfl
  · rw [htaken]
    exact consulted_complete limits done _

/-- What is refused at the end is refused in whatever version. -/
theorem version_refuseFrom (limits : EndpointConfig) (buffer : Bytes) (w : Worker σ) :
    (w.refuseFrom limits buffer).worker.version = w.version
      ∧ consultedIn (w.refuseFrom limits buffer).effects = [] := by
  induction hlength : buffer.length using Nat.strongRecOn generalizing buffer w with
  | ind n ih =>
    rw [Worker.refuseFrom]
    split
    · exact ⟨rfl, rfl⟩
    · exact ⟨rfl, rfl⟩
    · next frame rest hframe =>
      have hshorter : rest.length < n := hlength ▸ Frame.length_of_decodeWith hframe
      split
      · obtain ⟨hversion, hasks⟩ := ih rest.length hshorter rest (w.revoke frame.sequence) rfl
        refine ⟨hversion.trans ?_, hasks⟩
        rw [revoke_eq]
      · obtain ⟨hversion, hasks⟩ := ih rest.length hshorter rest
          (w.queue limits (.failure frame.sequence .shuttingDown)).1 rfl
        exact ⟨hversion, hasks⟩

/-- **At a moment at which no frames are taken** versions do not matter, and no call is handed
over. -/
theorem Moment.keeps_of_not_pumps {m : Moment σ} (hpumps : m.pumps = false)
    (service : Service σ) (limits : EndpointConfig) :
    (m.worker service limits).version = m.before.worker.version
      ∧ consultedIn (m.effects service limits) = []
      ∧ dispatchesIn (m.effects service limits) = [] := by
  by_cases hgoes : m.occurrence = .worked .shutdown
  · obtain ⟨⟨w, shutdown, held⟩, occurrence⟩ := m
    obtain rfl : occurrence = .worked .shutdown := hgoes
    obtain ⟨hversion, hasks⟩ := version_refuseFrom limits w.received { w with reading := false }
    exact ⟨hversion, hasks,
      (Intake.refuseFrom service limits w.received { w with reading := false }).2⟩
  · have hopened := m.opened limits
    rw [Moment.worker_of_not_pumps hpumps hgoes, Moment.effects_of_not_pumps hpumps hgoes]
    exact ⟨hopened.version, m.consulted_opening limits, hopened.dispatched⟩

/-- **A moment at which a version is spoken.** -/
theorem Keeps.moment {m : Moment σ} (hversion : m.before.worker.version = some version)
    (service : Service σ) (limits : EndpointConfig) :
    Keeps version (m.effects service limits) (m.worker service limits) := by
  have hopened := m.opened limits
  cases hpumps : m.pumps with
  | true =>
    have hopening : Keeps version (m.opening limits).2 (m.opening limits).1 := by
      refine ⟨hopened.version.trans hversion, m.consulted_opening limits, ?_⟩
      rw [hopened.dispatched]
      exact fun _ hd => absurd hd List.not_mem_nil
    rw [Moment.worker_of_pumps hpumps, Moment.effects_of_pumps hpumps]
    exact hopening.trans (.pump hopening.speaks service limits m.before.shutdown)
  | false =>
    obtain ⟨hsame, hasks, hcalls⟩ := Moment.keeps_of_not_pumps hpumps service limits
    refine ⟨hsame.trans hversion, hasks, ?_⟩
    rw [hcalls]
    exact fun _ hd => absurd hd List.not_mem_nil

/-- Where nothing was outstanding and no call is handed over, nothing is outstanding. -/
theorem Moment.stays_idle {m : Moment σ} (hidle : m.before.worker.outstanding = [])
    (hcalls : dispatchesIn (m.effects service limits) = []) :
    (m.worker service limits).outstanding = [] := by
  rw [m.outstanding service limits, hidle]
  unfold acceptedIn
  rw [hcalls]
  rfl

/-- **One moment keeps what is agreed upon.** -/
theorem Agreement.next {m : Moment σ}
    (h : Agreement service limits received effects m.before.worker)
    (hadmits : m.before.Admits limits m.occurrence) :
    Agreement service limits (received ++ m.arrived) (effects ++ m.effects service limits)
      (m.worker service limits) := by
  have hopened := m.opened limits
  cases h with
  | unheard hnone hidle hasks hcalls hreads =>
    have hnothing : (m.opening limits).2 = [] := Moment.opening_of_idle hidle
    cases hpumps : m.pumps with
    | true =>
      -- frames are taken for the first time
      obtain ⟨hreceived, hqueued⟩ := hreads (Moment.reading_of_pumps hadmits hpumps)
      have hidle' : (m.opening limits).1.outstanding = [] := by
        rw [hopened.outstanding, hidle]
        rfl
      have hpumped := agreement_pump (hopened.version.trans hnone) hidle' service limits
        m.before.shutdown
      rw [hopened.received, hreceived] at hpumped
      rw [Moment.worker_of_pumps hpumps, Moment.effects_of_pumps hpumps, hnothing, List.nil_append]
      exact hpumped.behind hasks hcalls hqueued
    | false =>
      obtain ⟨hversion, hasks', hcalls'⟩ := Moment.keeps_of_not_pumps hpumps service limits
      refine .unheard (hversion.trans hnone) (Moment.stays_idle hidle hcalls') ?_ ?_ ?_
      · rw [consultedIn_append, hasks, hasks', List.nil_append]
      · rw [dispatchesIn_append, hcalls, hcalls', List.nil_append]
      · intro hstill
        obtain ⟨more, -, hpumping⟩ := m.pumping service limits
        have hopen := hpumping.reading hstill
        have hreading := hopened.reading hopen
        obtain ⟨hreceived, hqueued⟩ := hreads hreading
        have hgoes := ((Moment.reading_opening hreading).mp hopen).1
        obtain ⟨-, hsame, hquiet⟩ := Moment.opening_of_not_pumps hpumps hopen
        rw [Moment.worker_of_not_pumps hpumps hgoes, Moment.effects_of_not_pumps hpumps hgoes,
          hnothing, List.append_nil, hsame, hquiet, List.append_nil]
        exact ⟨hreceived, hqueued⟩
  | agreed hhead hspoken hversion hasks hinterfaces =>
    have hkeeps := Keeps.moment hversion service limits
    refine .agreed (head?_drain_append hhead _) hspoken hkeeps.speaks ?_ ?_
    · rw [consultedIn_append, hasks, hkeeps.asks, List.append_nil]
    · intro d hd
      rw [dispatchesIn_append, List.mem_append] at hd
      exact hd.elim (hinterfaces d) (hkeeps.interfaces d)
  | refused hhead hunspoken hnone hidle hstopped hasks hcalls hqueued =>
    have hnothing : m.effects service limits = [] := by
      rw [(Moment.stopped hadmits hstopped).2]
      exact Moment.opening_of_idle hidle
    have hidle' : (m.worker service limits).outstanding = [] :=
      Moment.stays_idle hidle (by rw [hnothing]; rfl)
    have hversion : (m.worker service limits).version = none := by
      rw [(Moment.stopped hadmits hstopped).1, hopened.version]
      exact hnone
    rw [hnothing, List.append_nil]
    exact .refused (head?_drain_append hhead _) hunspoken hversion hidle'
      (Moment.stays_stopped hstopped) hasks hcalls hqueued

variable {history past later : List (Moment σ)} {s : Scene σ} {m : Moment σ}

/-- **What a worker and its peer have agreed upon after a run.** -/
theorem Run.agreement (run : Run service limits history s) :
    Agreement service limits (receivedOf history) (effectsOf service limits history) s.worker := by
  induction run with
  | start peer => exact .unheard rfl rfl rfl rfl fun _ => ⟨rfl, rfl⟩
  | @next history s run occurrence hadmits ih =>
    rw [receivedOf_concat, effectsOf_concat]
    exact Agreement.next (m := ⟨s, occurrence⟩) ih hadmits

/-- The service is asked once at most. -/
theorem Agreement.asks_once (h : Agreement service limits received effects w) :
    (consultedIn effects).length ≤ 1 := by
  cases h with
  | unheard _ _ hasks =>
    rewrite [hasks]
    exact Nat.zero_le 1
  | agreed _ _ _ hasks | refused _ _ _ _ _ hasks =>
    rewrite [hasks]
    exact Nat.le_refl 1

/-- **Whatever is handed over is in the version of the first frame.** -/
theorem Agreement.first (h : Agreement service limits received effects w) {d : Dispatch}
    (hd : d ∈ dispatchesIn effects) :
    ∃ first, (RequestFrame.drain limits.maxMessageSize received).1.head? = some first
      ∧ d.call.interface = first.version ∧ service.supports first.version = true := by
  cases h with
  | agreed hhead hspoken _ _ hinterfaces => exact ⟨_, hhead, hinterfaces d hd, hspoken⟩
  | unheard _ _ _ hcalls | refused _ _ _ _ _ _ hcalls =>
    rw [hcalls] at hd
    cases hd

theorem Agreement.interface_eq (h : Agreement service limits received effects w) {d d' : Dispatch}
    (hd : d ∈ dispatchesIn effects) (hd' : d' ∈ dispatchesIn effects) :
    d.call.interface = d'.call.interface := by
  obtain ⟨first, hhead, hversion, -⟩ := h.first hd
  obtain ⟨first', hhead', hversion', -⟩ := h.first hd'
  obtain rfl : first = first' := Option.some.inj (hhead.symm.trans hhead')
  exact hversion.trans hversion'.symm

/-! ## §6. A frame that is turned away. -/

/-- A worker has given up its connection: it reads no more, and wants no answer any more. -/
structure GivenUp (w : Worker σ) : Prop where
  stopped : w.reading = false
  unwanted : w.abandoned = true

theorem GivenUp.isAbandoned (h : GivenUp w) (shutdown : Bool) (ticket : Ticket) :
    w.isAbandoned shutdown ticket = true := by
  unfold Worker.isAbandoned
  rw [h.unwanted, Bool.or_true, Bool.true_or]

/-- To take up a resolution does not make an answer wanted again. -/
theorem abandoned_complete (limits : EndpointConfig) (done : Completed) (w : Worker σ) :
    (w.complete limits done).1.abandoned = w.abandoned := by
  cases hfind : w.outstanding? done.call.sequence with
  | none => rw [complete_eq_self hfind]
  | some ticket => rw [complete_eq hfind]

/-- **A worker that has given up has given up for good.** -/
theorem GivenUp.next (h : GivenUp m.before.worker)
    (hadmits : m.before.Admits limits m.occurrence) : GivenUp (m.worker service limits) := by
  refine ⟨Moment.stays_stopped h.stopped, ?_⟩
  rw [(Moment.stopped hadmits h.stopped).1]
  have hunwanted := h.unwanted
  obtain ⟨⟨w, shutdown, held⟩, occurrence⟩ := m
  cases occurrence with
  | signalled => exact hunwanted
  | resolved call outcome => exact hunwanted
  | worked event =>
    cases event with
    | received _ | shutdown | wrote _ => exact hunwanted
    | lost | writeFailed => rfl
    | drained =>
      cases hcompletions : w.completions with
      | nil =>
        unfold Moment.opening
        dsimp only
        rw [hcompletions]
        exact hunwanted
      | cons done later =>
        rw [Moment.opening_drained hcompletions, abandoned_complete]
        exact hunwanted

theorem Goes.given_up {s' : Scene σ} (onward : Goes service limits s later s')
    (h : GivenUp s.worker) : GivenUp s'.worker := by
  induction onward with
  | here => exact h
  | @next later s' onward occurrence hadmits ih =>
    exact GivenUp.next (m := ⟨s', occurrence⟩) ih hadmits

/-- The moments of a run behind one of them are what has happened since. -/
theorem Run.onward (run : Run service limits history s) (hsplit : history = past ++ m :: later) :
    Goes service limits (m.scene service limits) later s := by
  induction run generalizing later with
  | start peer => exact absurd hsplit (by simp)
  | @next history s run occurrence hadmits ih =>
    rcases List.eq_nil_or_concat later with rfl | ⟨earlier, last, rfl⟩
    · obtain ⟨-, hlast⟩ := List.append_inj' hsplit rfl
      cases hlast
      exact .here
    · rw [List.concat_eq_append, ← List.cons_append, ← List.append_assoc] at hsplit
      obtain ⟨hbefore, hlast⟩ := List.append_inj' hsplit rfl
      cases hlast
      rw [List.concat_eq_append]
      exact (ih hbefore).next occurrence hadmits

/-- A frame at fault that starts a buffer is all that is taken off it. -/
theorem pumpFrom_of_fault {buffer rest : Bytes}
    (hlets : (w.isFull limits && !nextIsCancel buffer) = false)
    (hframe : RequestFrame.decode limits.maxMessageSize buffer = .frame frame rest) {e : Failure}
    (hfault : (w.takeIn service limits shutdown frame).fault = some e) :
    w.pumpFrom service limits shutdown buffer
      = { worker := (w.takeIn service limits shutdown frame).worker
          buffer := rest
          fault := some e
          effects := (w.takeIn service limits shutdown frame).effects } := by
  rw [Worker.pumpFrom, if_neg (by rw [hlets]; exact Bool.false_ne_true)]
  split
  · next hmore =>
    rw [hframe] at hmore
    cases hmore
  · next hmore =>
    rw [hframe] at hmore
    cases hmore
  · next hframe' =>
    rw [hframe] at hframe'
    cases hframe'
    dsimp only
    rw [hfault]

/-- **A frame at fault on the way through the receive buffer** makes a worker give up, with what it
has done before. -/
theorem Meets.at_fault (hpumps : m.pumps = true)
    (h : Meets service limits m.before.shutdown (m.opening limits).1.received (m.opening limits).1
      effects frame w) {e : Failure}
    (hfault : (w.takeIn service limits m.before.shutdown frame).fault = some e) :
    m.fault? service limits = some e
      ∧ m.effects service limits = (m.opening limits).2
        ++ (effects ++ (w.takeIn service limits m.before.shutdown frame).effects)
      ∧ (m.worker service limits).outstanding
        = (w.takeIn service limits m.before.shutdown frame).worker.outstanding
      ∧ GivenUp (m.worker service limits) := by
  obtain ⟨ahead, rest, hroom, hframe, hsame⟩ := h.pumpFrom
  rw [pumpFrom_of_fault hroom hframe hfault] at hsame
  rw [Moment.worker_of_pumps hpumps, Moment.effects_of_pumps hpumps]
  unfold Moment.fault? Worker.pump
  dsimp only
  rw [if_pos hpumps, hsame]
  exact ⟨rfl, rfl, rfl, ⟨rfl, rfl⟩⟩

/-- At a moment of a run a worker came to a frame that was at fault, and turned it away.  Before
that it had done this at that moment, and was this worker. -/
structure TurnsAway (service : Service σ) (limits : EndpointConfig) (past : List (Moment σ))
    (m : Moment σ) (later : List (Moment σ)) (s : Scene σ) (effects : List WorkerEffect)
    (w : Worker σ) (e : Failure) : Prop where
  /-- It has met the fault. -/
  fault : m.fault? service limits = some e
  /-- It reads no more, then or later. -/
  stopped : (m.worker service limits).reading = false ∧ s.worker.reading = false
  /-- The calls that were outstanding are still to be answered. -/
  outstanding : (m.worker service limits).outstanding = w.outstanding
  /-- No answer is wanted any more, then or later. -/
  abandoned : ∀ ticket, (m.worker service limits).isAbandoned m.before.shutdown ticket = true
    ∧ s.worker.isAbandoned s.shutdown ticket = true
  /-- No call is handed over but those before the frame. -/
  dispatched : dispatchesIn (effectsOf service limits (past ++ m :: later))
    = dispatchesIn (effectsOf service limits past ++ effects)

theorem effectsOf_split (service : Service σ) (limits : EndpointConfig)
    (past later : List (Moment σ)) (m : Moment σ) :
    effectsOf service limits (past ++ m :: later)
      = effectsOf service limits past ++ (m.effects service limits
        ++ effectsOf service limits later) := by
  simp [effectsOf]

/-- **A frame at fault is turned away.** -/
theorem Run.turns_away (run : Run service limits (past ++ m :: later) s) (hpumps : m.pumps = true)
    (hmeets : Meets service limits m.before.shutdown (m.opening limits).1.received
      (m.opening limits).1 effects frame w) {e : Failure}
    (hfault : (w.takeIn service limits m.before.shutdown frame).fault = some e) :
    TurnsAway service limits past m later s effects w e := by
  obtain ⟨hmet, heffects, houtstanding, hgiven⟩ := hmeets.at_fault hpumps hfault
  obtain ⟨-, -, hstops, -⟩ := Intake.takeIn service limits m.before.shutdown frame w
  have hnone := hstops (by rw [hfault]; exact Option.some_ne_none e)
  have hsame : (w.takeIn service limits m.before.shutdown frame).worker.outstanding
      = w.outstanding := by
    cases (took service limits m.before.shutdown frame w).2 with
    | turned _ hsame => exact hsame
    | cancelled hgoes | accepted hgoes | rejected hgoes =>
      rw [hfault] at hgoes
      cases hgoes
  have onward := run.onward rfl
  have hgiven' := onward.given_up hgiven
  refine ⟨hmet, ⟨hgiven.stopped, hgiven'.stopped⟩, houtstanding.trans hsame,
    fun ticket => ⟨hgiven.isAbandoned _ ticket, hgiven'.isAbandoned _ ticket⟩, ?_⟩
  rw [effectsOf_split, heffects]
  simp only [dispatchesIn_append]
  rw [(m.opened limits).dispatched, hnone, (onward.stays_stopped hgiven.stopped).2]
  simp only [List.nil_append, List.append_nil]

/-- **The first frame is in a version that the service does not speak**: the peer is told so, and
that is all that is ever done. -/
theorem Run.refuses (run : Run service limits (past ++ m :: later) s) (hpumps : m.pumps = true)
    (hmeets : Meets service limits m.before.shutdown (m.opening limits).1.received
      (m.opening limits).1 effects frame w) (hnone : w.version = none)
    (hunspoken : service.supports frame.version = false) :
    (RequestFrame.drain limits.maxMessageSize (receivedOf (past ++ m :: later))).1.head?
        = some frame
      ∧ dispatchesIn (effectsOf service limits (past ++ m :: later)) = []
      ∧ queuedIn (effectsOf service limits (past ++ m :: later)) = [unsupported frame] := by
  obtain ⟨hbefore, hadmits⟩ := run.at_split rfl
  have hopened := m.opened limits
  obtain ⟨-, rfl, hhead⟩ := hmeets.first hnone
  -- the frame is the first of all that has arrived
  have hstart : (RequestFrame.drain limits.maxMessageSize
      (receivedOf (past ++ m :: later))).1.head? = some frame := by
    rw [receivedOf_split, receivedOf_concat]
    apply head?_drain_append
    have hreading := Moment.reading_of_pumps hadmits hpumps
    rw [hopened.received] at hhead
    rw [hopened.version] at hnone
    cases hbefore.agreement with
    | unheard _ _ _ _ hreads =>
      rw [(hreads hreading).1] at hhead
      exact hhead
    | agreed _ _ hversion =>
      rw [hnone] at hversion
      cases hversion
    | refused _ _ _ _ hstopped =>
      rw [hreading] at hstopped
      cases hstopped
  -- and the service was asked about it
  have hasked : (frame.version, false)
      ∈ consultedIn (effectsOf service limits (past ++ m :: later)) := by
    obtain ⟨-, heffects, -⟩ := hmeets.at_fault hpumps
      (by rw [takeIn_refuses hnone hunspoken])
    rw [effectsOf_split, heffects, takeIn_refuses hnone hunspoken]
    simp [consultedIn, consulted?]
  cases run.agreement with
  | unheard _ _ hasks =>
    rw [hasks] at hasked
    cases hasked
  | agreed _ _ _ hasks =>
    rw [hasks] at hasked
    cases congrArg Prod.snd (List.mem_singleton.mp hasked)
  | refused hhead' _ _ _ _ _ hcalls hqueued =>
    cases hstart.symm.trans hhead'
    exact ⟨hstart, hcalls, hqueued⟩

/-! ## §7. The calls before it. -/

/-- A call is told by its number and its ticket, where one version is spoken. -/
theorem call_eq_of_entryOf {call call' : IncompleteCall} (hentry : entryOf call = entryOf call')
    (hversion : call.interface = call'.interface) : call = call' := by
  obtain ⟨ticket, number, version⟩ := call
  obtain ⟨ticket', number', version'⟩ := call'
  obtain ⟨rfl, rfl⟩ := Prod.mk.inj hentry
  obtain rfl : version = version' := hversion
  rfl

/-- **Whatever was handed over is outstanding, or has been answered with its own outcome**, while
the peer is there and calls wait for those that were rejected. -/
theorem Run.answered (run : Run service limits history s) (hlistens : s.worker.broken = false)
    (hwaits : Waits (deedsOf service limits history)) {d : Dispatch}
    (hd : d ∈ dispatchesIn (effectsOf service limits history)) :
    entryOf d.call ∈ s.worker.outstanding
      ∨ ∃ outcome, ComesTo (resolutionsOf service limits history) d outcome
        ∧ .ofOutcome d.call.sequence outcome ∈ queuedIn (effectsOf service limits history) := by
  have h := run.attributed hwaits
  have hhanded := handed_trailOf service limits history s
  have hresolutions := resolutions_trailOf service limits history s
  rw [← hhanded] at hd
  rcases List.mem_append.mp (h.entries.subset (List.mem_map_of_mem hd)) with hwaiting | hended
  · exact .inl hwaiting
  · obtain ⟨done, hdone, hentry⟩ := List.mem_map.mp hended
    obtain ⟨d', hd', hcall, hcomes⟩ := h.outcomes done hdone
    have hsame : d'.call = d.call := by
      have hversion := run.agreement.interface_eq (hhanded ▸ hd') (hhanded ▸ hd)
      rw [← hcall] at hentry
      exact call_eq_of_entryOf hentry hversion
    obtain rfl : d' = d := List.inj_on_of_nodup_map h.distinct hd' hd hsame
    refine .inr ⟨done.outcome, hresolutions ▸ hcomes, ?_⟩
    have hanswer := (run.replied hlistens).sublist.subset (List.mem_map_of_mem hdone)
    unfold answerTo at hanswer
    rw [hcall]
    exact hanswer

/-! ## §8. The statement about runs. -/

/-- **Every connection speaks one version.**  The service, the limits and the peer are any, and so
are the chunks in which bytes arrive and the order in which things happen.

The service is asked about one version at most.  All calls that it is handed are in the version of
the first frame that is decoded, and it speaks that one.

A worker that comes to a first frame in a version that the service does not speak turns it away;
what it queues, then and ever, is one failure under the number of that frame.  If it comes to a frame
in another version than the first it turns that away, and queues nothing for it.

While the peer is there, every call that was handed over has been answered with its own outcome, or
is outstanding, is still to be resolved, and keeps the worker from being done.  That is so if no
call is handed over under the number of a rejected one whose resolution has not been taken up. -/
theorem one_version_is_spoken (run : Run service limits history s) :
    let frames := (RequestFrame.drain limits.maxMessageSize (receivedOf history)).1
    let effects := effectsOf service limits history
    (consultedIn effects).length ≤ 1
      ∧ (∀ d ∈ dispatchesIn effects, ∃ first, frames.head? = some first
          ∧ d.call.interface = first.version ∧ service.supports first.version = true)
      ∧ (∀ past m later, history = past ++ m :: later → m.pumps = true →
          ∀ before frame w, Meets service limits m.before.shutdown
            (m.opening limits).1.received (m.opening limits).1 before frame w →
          (w.version = none → service.supports frame.version = false →
            TurnsAway service limits past m later s before w (.unsupportedVersion frame.version)
            ∧ frames.head? = some frame
            ∧ dispatchesIn effects = [] ∧ queuedIn effects = [unsupported frame]
            ∧ (s.worker.broken = false →
              writtenOf history ++ s.worker.unsent = written limits (unsupported frame)))
          ∧ (∀ version, w.version = some version → version ≠ frame.version →
            TurnsAway service limits past m later s before w
              (.versionMismatch version frame.version)
            ∧ m.effects service limits = (m.opening limits).2 ++ before))
      ∧ (s.worker.broken = false → Waits (deedsOf service limits history) →
          ∀ d ∈ dispatchesIn effects,
          (∃ outcome, ComesTo (resolutionsOf service limits history) d outcome
            ∧ .ofOutcome d.call.sequence outcome ∈ queuedIn effects)
          ∨ entryOf d.call ∈ s.worker.outstanding ∧ s.worker.isDone = false
            ∧ ∃ call ∈ s.pending, entryOf call = entryOf d.call) := by
  have hagreed := run.agreement
  refine ⟨hagreed.asks_once, fun d hd => hagreed.first hd, ?_, ?_⟩
  · intro past m later hsplit hpumps before frame w hmeets
    subst hsplit
    constructor
    · intro hnone hunspoken
      have hfault := takeIn_refuses hnone hunspoken limits m.before.shutdown
      obtain ⟨hhead, hcalls, hqueued⟩ := run.refuses hpumps hmeets hnone hunspoken
      refine ⟨run.turns_away hpumps hmeets (congrArg Admitted.fault hfault), hhead, hcalls, hqueued,
        fun hlistens => ?_⟩
      rw [run.accounted hlistens, hqueued, List.flatMap_singleton]
    · intro version hversion hother
      have hfault := takeIn_mismatch hversion hother service limits m.before.shutdown
      have haway := run.turns_away hpumps hmeets (congrArg Admitted.fault hfault)
      refine ⟨haway, ?_⟩
      rw [(hmeets.at_fault hpumps (congrArg Admitted.fault hfault)).2.1, hfault, List.append_nil]
  · intro hlistens hwaits d hd
    rcases run.answered hlistens hwaits hd with hwaiting | hended
    · refine .inr ⟨hwaiting, ?_, run.awaited hwaiting⟩
      -- a worker that is done has nothing outstanding
      have hbusy : s.worker.outstanding.isEmpty = false :=
        List.isEmpty_eq_false_iff.mpr (List.ne_nil_of_mem hwaiting)
      unfold isDone
      rw [hbusy, Bool.and_false, Bool.false_and]
    · exact .inl hended

/-- A call, and then a call in another version. -/
def twoVersions : Bytes :=
  (RequestFrame.call defaultVersion 0 [7]).bytes ++ ((RequestFrame.call 2 1 [8]).bytes ++ [])

/-- A call is kept, and a call in another version comes behind it: that is turned away, and the call
that is kept is answered when it is resolved. -/
theorem one_version_is_spoken_when_another_is_asked_for :
    ∃ (past later : List (Moment Unit)) (m : Moment Unit) (s : Scene Unit)
      (before : List WorkerEffect) (w : Worker Unit),
      Run keeper {} (past ++ m :: later) s ∧ s.worker.broken = false
      ∧ (consultedIn (effectsOf keeper {} (past ++ m :: later))).length ≤ 1
      ∧ TurnsAway keeper {} past m later s before w (.versionMismatch defaultVersion 2)
      ∧ m.effects keeper {} = before
      ∧ (dispatchesIn (effectsOf keeper {} (past ++ m :: later))).map (·.call)
        = [⟨0, 0, defaultVersion⟩]
      ∧ ∀ d ∈ dispatchesIn (effectsOf keeper {} (past ++ m :: later)),
        ∃ outcome, ComesTo (resolutionsOf keeper {} (past ++ m :: later)) d outcome
          ∧ .ofOutcome d.call.sequence outcome
            ∈ queuedIn (effectsOf keeper {} (past ++ m :: later)) := by
  have start : Run keeper {} [] _ := .start (.unix ⟨"/agent"⟩)
  have arrived := start.next (.worked (.received twoVersions)) (by decide +kernel)
  have resolved := arrived.next (.resolved ⟨0, 0, defaultVersion⟩ (.ok [9])) (by decide +kernel)
  have drained := resolved.next (.worked .drained) (by decide +kernel)
  obtain ⟨hasks, -, hmet, hanswered⟩ := one_version_is_spoken drained
  obtain ⟨-, hturns⟩ := hmet [] _ [_, _] rfl (by decide +kernel) _ _ _
    (meets_second rfl ⟨rfl, by decide⟩ ⟨rfl, by decide⟩ (by decide) (by decide) (by decide +kernel)
      (by decide +kernel) (by decide +kernel))
  obtain ⟨haway, heffects⟩ := hturns defaultVersion (by decide +kernel) (by decide)
  refine ⟨[], [_, _], _, _, _, _, drained, by decide +kernel, hasks, haway, heffects,
    by decide +kernel, fun d hd => ?_⟩
  rcases hanswered (by decide +kernel) (by decide +kernel) d hd with hended | ⟨hwaiting, -⟩
  · exact hended
  · refine absurd hwaiting (List.eq_nil_iff_forall_not_mem.mp ?_ _)
    decide +kernel

/-- A call that the picky service rejects, another under its number that it keeps, and a call in
another version. -/
def spoiltCall : Bytes := emptyCall ++ fullCall ++ (RequestFrame.call 2 1 [8]).bytes

/-- **An outcome is not queued** though the peer is there.  A call is rejected and dropped, another
under its number is kept, and a frame in another version is turned away.  The call that is kept is
completed; what is left of the first is taken up before that and answers it, and its own outcome
finds no call. -/
theorem a_leftover_takes_the_place_of_an_outcome :
    ∃ (history : List (Moment Unit)) (s : Scene Unit) (m m' : Moment Unit) (call : IncompleteCall),
      Run picky {} history s ∧ s.worker.broken = false
      ∧ m ∈ history ∧ m.fault? picky {} = some (.versionMismatch defaultVersion 2)
      ∧ call ∈ (dispatchesIn (effectsOf picky {} history)).map (·.call)
      ∧ m' ∈ history ∧ m'.occurrence = .resolved call (.ok [9])
      ∧ s.pending = [] ∧ s.worker.outstanding = []
      ∧ .ofOutcome call.sequence (.ok [9]) ∉ queuedIn (effectsOf picky {} history) := by
  have start : Run picky {} [] _ := .start (.unix ⟨"/agent"⟩)
  have arrived := start.next (.worked (.received spoiltCall)) (by decide +kernel)
  have resolved := arrived.next (.resolved ⟨1, 0, defaultVersion⟩ (.ok [9])) (by decide +kernel)
  have drained := resolved.next (.worked .drained) (by decide +kernel)
  have ignored := drained.next (.worked .drained) (by decide +kernel)
  exact ⟨_, _, _, _, ⟨1, 0, defaultVersion⟩, ignored, by decide +kernel,
    List.mem_cons_self, by decide +kernel, by decide +kernel,
    List.mem_cons_of_mem _ List.mem_cons_self, rfl,
    by decide +kernel, by decide +kernel, by decide +kernel⟩

end RemoteCall.Worker
