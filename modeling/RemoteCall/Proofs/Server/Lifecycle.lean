/-
  RemoteCall.Proofs.Server.Lifecycle
  ──────────────────────────────────
  **THE LIFE OF AN ENDPOINT AND ITS BOOKS.**

  An endpoint goes through its stages while connections are accepted, workers
  make steps, calls are resolved from wherever, and it is told to shut down; all
  this in any order (`Run`).

      initialised ──→ first connection ──→ calls … ──→ last worker ──→ destroyed

  The service may keep something for all of its connections together, so it
  may be another service at each moment.  What happens at a moment is entered in
  the books (`Entered`), so the counters are right for all workers together
  (`Counted`):

      dispatched  =  completed + failed + outstanding
      active      =  accepted − retired

  A worker retires when nothing is outstanding, and an endpoint is destroyed
  when all workers have retired (`Staged`).  No connection is accepted and no
  worker runs after that.

  Main statements:
    • `Counted.entered`, `Run.counted` — the counters, after a step and a run,
    • `Staged.next`, `Run.staged`      — the stages, after a step and a run,
    • `endpoints_keep_their_books`     — the statement about runs.
-/
import Mathlib.Algebra.GroupWithZero.Nat
import RemoteCall.Proofs.Server.Answers
import RemoteCall.Proofs.Server.Balance

namespace RemoteCall

/-- Whether the service has initialised. -/
def Stage.isStarted : Stage → Bool
  | .initialising | .failed _ => false
  | _ => true

namespace Endpoint

open Worker (dispatchesIn finishedIn)

variable {σ : Type} {e : Endpoint σ}

/-! ## §1. Runs. -/

/-- One moment of a run: what there was, and what happened. -/
structure Moment (σ : Type) where
  /-- The endpoint. -/
  before : Endpoint σ
  /-- What happened. -/
  event : Event

/-- What the workers did. -/
def Moment.effects (m : Moment σ) : List WorkerEffect := (m.before.step m.event).2

/-- Whether a connection is accepted. -/
def Event.isAcceptance : Event → Bool
  | .accepted _ _ => true
  | _ => false

/-- Whether a worker has finished. -/
def Event.isRetirement : Event → Bool
  | .retired _ => true
  | _ => false

section History

variable (history : List (Moment σ))

/-- What all workers have done, in order. -/
def effectsOf : List WorkerEffect := history.flatMap (·.effects)

/-- How many connections have been accepted. -/
def acceptancesIn : Nat := history.countP (·.event.isAcceptance)

/-- How many workers have finished. -/
def retirementsIn : Nat := history.countP (·.event.isRetirement)

theorem effectsOf_concat (m : Moment σ) :
    effectsOf (history ++ [m]) = effectsOf history ++ m.effects := by
  simp [effectsOf]

theorem acceptancesIn_concat (m : Moment σ) :
    acceptancesIn (history ++ [m])
      = acceptancesIn history + m.event.isAcceptance.toNat := by
  unfold acceptancesIn
  rw [List.countP_append, List.countP_singleton]
  cases m.event.isAcceptance <;> rfl

theorem retirementsIn_concat (m : Moment σ) :
    retirementsIn (history ++ [m])
      = retirementsIn history + m.event.isRetirement.toNat := by
  unfold retirementsIn
  rw [List.countP_append, List.countP_singleton]
  cases m.event.isRetirement <;> rfl

end History

/-- An endpoint has come this far. -/
inductive Run : List (Moment σ) → Endpoint σ → Prop where
  /-- The address is bound, and the service initialises. -/
  | start (service : Service σ) (limits : EndpointConfig) (localName : PeerName) :
    Run [] { service, limits, localName }
  /-- Something happens. -/
  | next {history : List (Moment σ)} {e : Endpoint σ} (run : Run history e) (event : Event) :
    e.enabled event = true → Run (history ++ [⟨e, event⟩]) (e.step event).1
  /-- What the service keeps for all connections changes. -/
  | changed {history : List (Moment σ)} {e : Endpoint σ} (run : Run history e)
    (service : Service σ) : Run history { e with service }

variable {history : List (Moment σ)}

/-- Any moment of a run is one that an endpoint has come to, and what happens then may happen. -/
theorem Run.at_split (run : Run history e) {past later : List (Moment σ)} {m : Moment σ}
    (hsplit : history = past ++ m :: later) :
    Run past m.before ∧ m.before.enabled m.event = true := by
  induction run generalizing later with
  | start service limits localName => exact absurd hsplit (by simp)
  | changed run service ih => exact ih hsplit
  | @next history e run event henabled ih =>
    rcases List.eq_nil_or_concat later with rfl | ⟨later, last, rfl⟩
    · obtain ⟨rfl, hlast⟩ := List.append_inj' hsplit rfl
      cases hlast
      exact ⟨run, henabled⟩
    · rw [List.concat_eq_append, ← List.cons_append, ← List.append_assoc] at hsplit
      exact ih (List.append_inj' hsplit rfl).1

/-! ## §2. The connections together. -/

/-- How many calls are outstanding, over all workers. -/
def outstanding (e : Endpoint σ) : Nat :=
  (e.hosted.map (·.worker.outstanding.length)).sum

/-- How many workers have not finished. -/
def running (e : Endpoint σ) : Nat := e.hosted.countP (·.running)

variable {i : Nat} {h : Hosted σ} {f : Hosted σ → Hosted σ}

/-- One connection is changed, and the others stay where they are. -/
theorem hosted_modify (hget : e.hosted[i]? = some h) (f : Hosted σ → Hosted σ) :
    ∃ before after, e.hosted = before ++ h :: after
      ∧ (e.modify i f).hosted = before ++ f h :: after := by
  obtain ⟨hlt, hat⟩ := List.getElem?_eq_some_iff.mp hget
  obtain ⟨before, other, after, hsplit, hlength, hmodified⟩ := List.exists_of_modify f hlt
  refine ⟨before, after, ?_, ?_⟩
  all_goals
    obtain rfl : other = h := by
      subst hlength
      simpa [hsplit] using hget
  · exact hsplit
  · exact hmodified

/-- **What one worker has outstanding counts for all.** -/
theorem outstanding_modify (hget : e.hosted[i]? = some h) (f : Hosted σ → Hosted σ) :
    (e.modify i f).outstanding + h.worker.outstanding.length
      = e.outstanding + (f h).worker.outstanding.length := by
  obtain ⟨before, after, hbefore, hafter⟩ := hosted_modify hget f
  unfold outstanding
  rw [hbefore, hafter]
  simp only [List.map_append, List.map_cons, List.sum_append, List.sum_cons]
  omega

/-- A connection that is changed runs as it did, and so do the others. -/
theorem running_modify (hget : e.hosted[i]? = some h) (hsame : (f h).running = h.running) :
    (e.modify i f).running = e.running := by
  obtain ⟨before, after, hbefore, hafter⟩ := hosted_modify hget f
  unfold running
  rw [hbefore, hafter]
  simp only [List.countP_append, List.countP_cons, hsame]

/-- A worker that finishes is one less that runs. -/
theorem running_retire (hget : e.hosted[i]? = some h) (hrunning : h.running = true) :
    (e.modify i fun h => { h with running := false }).running + 1 = e.running := by
  obtain ⟨before, after, hbefore, hafter⟩ := hosted_modify hget fun h => { h with running := false }
  unfold running
  rw [hbefore, hafter]
  simp only [List.countP_append, List.countP_cons, hrunning]
  simp
  omega

/-- The connections when one of them has been changed. -/
theorem mem_modify (hget : e.hosted[i]? = some h) {h' : Hosted σ}
    (hmem : h' ∈ (e.modify i f).hosted) : h' = f h ∨ h' ∈ e.hosted := by
  obtain ⟨before, after, hbefore, hafter⟩ := hosted_modify hget f
  rw [hafter] at hmem
  rw [hbefore]
  simp only [List.mem_append, List.mem_cons] at hmem ⊢
  tauto

/-- A worker that makes a step runs. -/
theorem hosted_of_worked {event : Worker.Event} (henabled : e.enabled (.worked i event) = true) :
    ∃ h, e.hosted[i]? = some h ∧ h.running = true := by
  unfold enabled at henabled
  dsimp only at henabled
  split at henabled
  · next h hget =>
    simp only [Bool.and_eq_true] at henabled
    exact ⟨h, hget, henabled.1.1⟩
  · cases henabled

/-- A worker that finishes has run, and has nothing more to do. -/
theorem hosted_of_retired (henabled : e.enabled (.retired i) = true) :
    ∃ h, e.hosted[i]? = some h ∧ h.running = true ∧ h.worker.isDone = true := by
  unfold enabled at henabled
  dsimp only at henabled
  split at henabled
  · next h hget =>
    simp only [Bool.and_eq_true] at henabled
    exact ⟨h, hget, henabled⟩
  · cases henabled

/-- A step of a worker is a step of the endpoint. -/
theorem step_worked (e : Endpoint σ) (hget : e.hosted[i]? = some h) (event : Worker.Event) :
    e.step (.worked i event)
      = ({ e.modify i fun h' => { h' with
              worker := (h.worker.step e.service e.limits e.shutdown event).1 } with
            counters := e.counters.countAll
              (h.worker.step e.service e.limits e.shutdown event).2 },
          (h.worker.step e.service e.limits e.shutdown event).2) := by
  unfold step
  dsimp only
  rw [hget]

/-! ## §3. The counters. -/

/-- A moment that leaves the endpoint like this is entered in its books. -/
structure Entered (m : Moment σ) (e' : Endpoint σ) : Prop where
  distinct : (∀ h ∈ m.before.hosted, h.worker.Distinct) → ∀ h ∈ e'.hosted, h.worker.Distinct
  dispatched : e'.counters.dispatched
    = m.before.counters.dispatched + (dispatchesIn m.effects).length
  ended : e'.counters.completed + e'.counters.failed
    = m.before.counters.completed + m.before.counters.failed + (finishedIn m.effects).length
  calls : m.before.outstanding + (dispatchesIn m.effects).length
    = e'.outstanding + (finishedIn m.effects).length
  accepted : e'.counters.accepted = m.before.counters.accepted + m.event.isAcceptance.toNat
  hosted : e'.hosted.length = m.before.hosted.length + m.event.isAcceptance.toNat
  running : e'.running + m.event.isRetirement.toNat
    = m.before.running + m.event.isAcceptance.toNat
  active : e'.counters.active
    = m.before.counters.active + m.event.isAcceptance.toNat - m.event.isRetirement.toNat

namespace Entered

/-- Nothing happens that is counted. -/
theorem quiet {e' : Endpoint σ} {m : Moment σ} (hhosted : e'.hosted = m.before.hosted)
    (hcounters : e'.counters = m.before.counters) (heffects : m.effects = [])
    (haccepts : m.event.isAcceptance = false) (hretires : m.event.isRetirement = false) :
    Entered m e' := by
  have houtstanding : e'.outstanding = m.before.outstanding := by
    rw [outstanding, hhosted]
    rfl
  have hrunning : e'.running = m.before.running := by
    rw [Endpoint.running, hhosted]
    rfl
  refine ⟨fun hdistinct => hhosted ▸ hdistinct, ?_, ?_, ?_, ?_, ?_, ?_, ?_⟩
  all_goals simp only [hcounters, heffects, haccepts, hretires, hhosted, houtstanding, hrunning]
  all_goals rfl

/-- **A connection is accepted.**  Its worker runs and has nothing outstanding. -/
theorem accept (e : Endpoint σ) (peer : PeerName) (link : LinkId) :
    Entered ⟨e, .accepted peer link⟩ (e.step (.accepted peer link)).1 := by
  refine ⟨fun hdistinct h hmem => ?_, rfl, rfl, ?_, rfl, ?_, ?_, rfl⟩
  · rcases List.mem_append.mp hmem with hold | hnew
    · exact hdistinct h hold
    · rw [List.mem_singleton.mp hnew]
      exact List.nodup_nil
  · show e.outstanding = (e.step (.accepted peer link)).1.outstanding
    simp [outstanding, step, Worker.new]
  · exact List.length_append
  · show (e.step (.accepted peer link)).1.running = e.running + 1
    simp [Endpoint.running, step]

/-- **A worker goes on**, and its calls stay in balance.  What it does is counted. -/
theorem goes_on {e' : Endpoint σ} {m : Moment σ} (hget : m.before.hosted[i]? = some h)
    (hhosted : e'.hosted = (m.before.modify i f).hosted) (hsame : (f h).running = h.running)
    (hbalances : Worker.Balances m.effects h.worker (f h).worker)
    (hcounters : e'.counters = m.before.counters.countAll m.effects)
    (haccepts : m.event.isAcceptance = false) (hretires : m.event.isRetirement = false) :
    Entered m e' := by
  obtain ⟨haccepted, hactive⟩ := m.before.counters.connections_countAll m.effects
  have hrunning : e'.running = m.before.running := by
    rw [← running_modify hget hsame, Endpoint.running, hhosted]
    rfl
  have houtstanding : e'.outstanding + h.worker.outstanding.length
      = m.before.outstanding + (f h).worker.outstanding.length := by
    rw [← outstanding_modify hget f, outstanding, hhosted]
    rfl
  rw [← hcounters] at haccepted hactive
  refine ⟨fun hall h' hmem => ?_, ?_, ?_, ?_, ?_, ?_, ?_, ?_⟩
  · rw [hhosted] at hmem
    rcases mem_modify hget hmem with rfl | hold
    · exact hbalances.distinct
    · exact hall h' hold
  · rw [hcounters]
    exact m.before.counters.dispatched_countAll m.effects
  · rw [hcounters]
    exact m.before.counters.ended_countAll m.effects
  · have hmore := hbalances.calls
    omega
  · rw [haccepts, haccepted]
    rfl
  · rw [hhosted, haccepts]
    exact List.length_modify _ _ _
  · rw [haccepts, hretires, hrunning]
  · rw [haccepts, hretires, hactive]
    rfl

/-- **A worker finishes.** -/
theorem retire (hget : e.hosted[i]? = some h) (hrunning : h.running = true) :
    Entered ⟨e, .retired i⟩ (e.step (.retired i)).1 := by
  have houtstanding : (e.step (.retired i)).1.outstanding = e.outstanding :=
    Nat.add_right_cancel (outstanding_modify hget fun h => { h with running := false })
  refine ⟨fun hdistinct h' hmem => ?_, rfl, rfl, houtstanding.symm, rfl, List.length_modify _ _ _,
    running_retire hget hrunning, rfl⟩
  rcases mem_modify hget hmem with rfl | hold
  · exact hdistinct h (List.mem_of_getElem? hget)
  · exact hdistinct h' hold

end Entered

/-- The counters tell what has happened, and what has happened balances. -/
structure Counted (history : List (Moment σ)) (e : Endpoint σ) : Prop where
  distinct : ∀ h ∈ e.hosted, h.worker.Distinct
  dispatched : e.counters.dispatched = (dispatchesIn (effectsOf history)).length
  ended : e.counters.completed + e.counters.failed = (finishedIn (effectsOf history)).length
  calls : (dispatchesIn (effectsOf history)).length
    = (finishedIn (effectsOf history)).length + e.outstanding
  accepted : e.counters.accepted = acceptancesIn history
  hosted : e.hosted.length = acceptancesIn history
  active : e.counters.active = e.running
  retired : e.running + retirementsIn history = e.hosted.length

/-- **Whatever happens is entered in the books.** -/
theorem Counted.entered (hc : Counted history e) (event : Event)
    (henabled : e.enabled event = true) : Entered ⟨e, event⟩ (e.step event).1 := by
  cases event with
  | initialised result => cases result <;> exact .quiet rfl rfl rfl rfl rfl
  | acceptFailed now => exact .quiet rfl rfl rfl rfl rfl
  | resumed now => exact .quiet rfl rfl rfl rfl rfl
  | signalled awaited => exact .quiet rfl rfl rfl rfl rfl
  | closed => exact .quiet rfl rfl rfl rfl rfl
  | destroyed => exact .quiet rfl rfl rfl rfl rfl
  | accepted peer link => exact .accept e peer link
  | retired i =>
    obtain ⟨h, hget, hrunning, -⟩ := hosted_of_retired henabled
    exact .retire hget hrunning
  | resolved i call outcome =>
    obtain ⟨h, hget⟩ := Option.isSome_iff_exists.mp henabled
    have hdistinct := hc.distinct h (List.mem_of_getElem? hget)
    exact .goes_on hget rfl rfl (.quiet hdistinct rfl rfl rfl) rfl rfl rfl
  | worked i event =>
    obtain ⟨h, hget, -⟩ := hosted_of_worked henabled
    have hstep := e.step_worked hget event
    have hmoment : (⟨e, .worked i event⟩ : Moment σ).effects
        = (h.worker.step e.service e.limits e.shutdown event).2 := congrArg Prod.snd hstep
    have hdistinct := hc.distinct h (List.mem_of_getElem? hget)
    refine .goes_on hget (congrArg (·.1.hosted) hstep) rfl ?_ ?_ rfl rfl
    · rw [hmoment]
      exact Worker.balances_step hdistinct e.service e.limits e.shutdown event
    · rw [hmoment]
      exact congrArg (·.1.counters) hstep

/-- What is entered is told by the counters. -/
theorem Counted.next {e' : Endpoint σ} {m : Moment σ} (hc : Counted history m.before)
    (hm : Entered m e') : Counted (history ++ [m]) e' := by
  have hcalls := hc.calls
  have hretired := hc.retired
  have hactive := hc.active
  have hmore := hm.calls
  have hrunning := hm.running
  have hcount := hm.active
  have hhosted := hm.hosted
  refine ⟨hm.distinct hc.distinct, ?_, ?_, ?_, ?_, ?_, ?_, ?_⟩
  · rw [effectsOf_concat, Worker.dispatchesIn_append, List.length_append, ← hc.dispatched,
      hm.dispatched]
  · rw [effectsOf_concat, Worker.finishedIn_append, List.length_append, ← hc.ended, hm.ended]
  · rw [effectsOf_concat, Worker.dispatchesIn_append, Worker.finishedIn_append, List.length_append,
      List.length_append]
    omega
  · rw [acceptancesIn_concat, ← hc.accepted, hm.accepted]
  · rw [acceptancesIn_concat, ← hc.hosted, hm.hosted]
  · omega
  · rw [retirementsIn_concat]
    omega

/-- **The counters tell of any run.** -/
theorem Run.counted (run : Run history e) : Counted history e := by
  induction run with
  | start service limits localName =>
    exact ⟨fun h hmem => absurd hmem List.not_mem_nil, rfl, rfl, rfl, rfl, rfl, rfl, rfl⟩
  | @next history e run event henabled ih => exact Counted.next ih (ih.entered event henabled)
  | changed run service ih => exact ⟨ih.1, ih.2, ih.3, ih.4, ih.5, ih.6, ih.7, ih.8⟩

/-! ## §4. The stages. -/

/-- What has happened when an endpoint is at its stage. -/
structure Staged (history : List (Moment σ)) (e : Endpoint σ) : Prop where
  started : e.stage.isStarted = true → ∃ m ∈ history, m.event = .initialised (.ok ())
  unstarted : e.stage.isStarted = false → e.hosted = []
  idle : ∀ i h, e.hosted[i]? = some h → h.running = false →
    h.worker.outstanding = [] ∧ ∃ m ∈ history, m.event = .retired i
  destroyed : ∀ m ∈ history, m.event = .destroyed → e.stage = .destroyed ∧ e.isQuiet = true

namespace Staged

/-- What has happened once has happened. -/
theorem later {event : Event} (hhistory : ∃ m ∈ history, m.event = event) (m : Moment σ) :
    ∃ m' ∈ history ++ [m], m'.event = event := by
  obtain ⟨m', hmem, hevent⟩ := hhistory
  exact ⟨m', List.mem_append_left _ hmem, hevent⟩

/-- The connections stay as they are, and the service neither initialises nor fails to. -/
theorem stay {e' : Endpoint σ} {m : Moment σ} (hs : Staged history e)
    (hhosted : e'.hosted = e.hosted) (hstage : e'.stage.isStarted = e.stage.isStarted)
    (hover : e.stage = .destroyed ∨ m.event = .destroyed →
      e'.stage = .destroyed ∧ (e.isQuiet = true → e'.isQuiet = true))
    (hquiet : m.event = .destroyed → e.isQuiet = true) : Staged (history ++ [m]) e' := by
  refine ⟨fun hstarted => later (hs.started (hstage ▸ hstarted)) m,
    fun hunstarted => hhosted ▸ hs.unstarted (hstage ▸ hunstarted), ?_, ?_⟩
  · intro i h hget hstopped
    obtain ⟨hidle, hretired⟩ := hs.idle i h (hhosted ▸ hget) hstopped
    exact ⟨hidle, later hretired m⟩
  · intro m' hmem hdestroyed
    rcases List.mem_append.mp hmem with hold | hnew
    · obtain ⟨hstage', hquiet'⟩ := hs.destroyed m' hold hdestroyed
      obtain ⟨hafter, hstill⟩ := hover (.inl hstage')
      exact ⟨hafter, hstill hquiet'⟩
    · rw [List.mem_singleton.mp hnew] at hdestroyed
      obtain ⟨hafter, hstill⟩ := hover (.inr hdestroyed)
      exact ⟨hafter, hstill (hquiet hdestroyed)⟩

/-- One connection is changed.  It does not run again, and if it does not run it has come to its
end. -/
theorem goes_on {e' : Endpoint σ} {m : Moment σ} (hs : Staged history e)
    (hget : e.hosted[i]? = some h) (hhosted : e'.hosted = (e.modify i f).hosted)
    (hstage : e'.stage = e.stage) (hevent : m.event ≠ .destroyed)
    (hstops : h.running = false → (f h).running = false)
    (hidle : (f h).running = false → (f h).worker.outstanding = []
      ∧ ∃ m' ∈ history ++ [m], m'.event = .retired i) : Staged (history ++ [m]) e' := by
  refine ⟨fun hstarted => later (hs.started (hstage ▸ hstarted)) m, fun hunstarted => ?_, ?_, ?_⟩
  · rw [hs.unstarted (hstage ▸ hunstarted)] at hget
    cases hget
  · intro j h' hget' hstopped
    rw [hhosted, show (e.modify i f).hosted = e.hosted.modify i f from rfl,
      List.getElem?_modify] at hget'
    obtain ⟨h'', hbefore, rfl⟩ := Option.map_eq_some_iff.mp hget'
    by_cases hij : i = j
    · subst hij
      obtain rfl : h = h'' := Option.some.inj (hget.symm.trans hbefore)
      rw [if_pos rfl] at hstopped ⊢
      exact hidle hstopped
    · rw [if_neg hij] at hstopped ⊢
      obtain ⟨hnone, hretired⟩ := hs.idle j h'' hbefore hstopped
      exact ⟨hnone, later hretired m⟩
  · intro m' hmem hdestroyed
    rcases List.mem_append.mp hmem with hold | hnew
    · obtain ⟨hdone, hquiet⟩ := hs.destroyed m' hold hdestroyed
      refine ⟨hstage.trans hdone, ?_⟩
      unfold isQuiet at hquiet ⊢
      rw [List.all_eq_true] at hquiet ⊢
      intro h' hmem'
      rw [hhosted] at hmem'
      rcases mem_modify hget hmem' with rfl | hother
      · have hstopped := hquiet h (List.mem_of_getElem? hget)
        simpa using hstops (by simpa using hstopped)
      · exact hquiet h' hother
    · rw [List.mem_singleton.mp hnew] at hdestroyed
      exact absurd hdestroyed hevent

/-- The service has initialised, or has failed to: no connection has been accepted before. -/
theorem initialise (hs : Staged history e) (hstage : e.stage = .initialising)
    (result : Outcome Unit) :
    Staged (history ++ [⟨e, .initialised result⟩]) (e.step (.initialised result)).1 := by
  have hnobody : e.hosted = [] := hs.unstarted (by rw [hstage]; rfl)
  have hhosted : (e.step (.initialised result)).1.hosted = [] := by
    cases result <;> exact hnobody
  refine ⟨fun hstarted => ?_, fun _ => hhosted, ?_, ?_⟩
  · cases result with
    | ok _ => exact ⟨_, List.mem_append_right _ List.mem_cons_self, rfl⟩
    | error failure => cases hstarted
  · intro i h hget
    rw [hhosted] at hget
    cases hget
  · intro m hmem hdestroyed
    rcases List.mem_append.mp hmem with hold | hnew
    · have hend := (hs.destroyed m hold hdestroyed).1
      rw [hstage] at hend
      cases hend
    · rw [List.mem_singleton.mp hnew] at hdestroyed
      cases hdestroyed

/-- A connection is accepted, and its worker runs. -/
theorem accept (hs : Staged history e) (hstage : e.stage = .accepting) (peer : PeerName)
    (link : LinkId) :
    Staged (history ++ [⟨e, .accepted peer link⟩]) (e.step (.accepted peer link)).1 := by
  refine ⟨fun hstarted => later (hs.started hstarted) _, fun hunstarted => ?_, ?_, ?_⟩
  · replace hunstarted : e.stage.isStarted = false := hunstarted
    rw [hstage] at hunstarted
    cases hunstarted
  · intro i h hget hstopped
    rw [show (e.step (.accepted peer link)).1.hosted = e.hosted ++ [_] from rfl,
      List.getElem?_append] at hget
    split at hget
    · obtain ⟨hnone, hretired⟩ := hs.idle i h hget hstopped
      exact ⟨hnone, later hretired _⟩
    · rw [List.mem_singleton.mp (List.mem_of_getElem? hget)] at hstopped
      cases hstopped
  · intro m hmem hdestroyed
    rcases List.mem_append.mp hmem with hold | hnew
    · have hend := (hs.destroyed m hold hdestroyed).1
      rw [hstage] at hend
      cases hend
    · rw [List.mem_singleton.mp hnew] at hdestroyed
      cases hdestroyed

/-- **Whatever happens, the stages are gone through in order.** -/
theorem next (hs : Staged history e) (event : Event) (henabled : e.enabled event = true) :
    Staged (history ++ [⟨e, event⟩]) (e.step event).1 := by
  cases event with
  | initialised result => exact hs.initialise (by simpa [enabled] using henabled) result
  | accepted peer link => exact hs.accept (by simpa [enabled] using henabled) peer link
  | acceptFailed now =>
    have hstage : e.stage = .accepting := by simpa [enabled] using henabled
    refine hs.stay rfl (by rw [hstage]; rfl) ?_ nofun
    rw [hstage]
    rintro (hdestroyed | hdestroyed) <;> cases hdestroyed
  | resumed now =>
    unfold enabled at henabled
    cases hstage : e.stage with
    | backingOff resumeAt =>
      refine hs.stay rfl (by rw [hstage]; rfl) ?_ nofun
      rw [hstage]
      rintro (hdestroyed | hdestroyed) <;> cases hdestroyed
    | _ => simp [hstage] at henabled
  | signalled awaited =>
    refine hs.stay rfl rfl ?_ nofun
    rintro (hdestroyed | hdestroyed)
    · exact ⟨hdestroyed, id⟩
    · cases hdestroyed
  | closed =>
    have hstage : e.stage = .accepting := by
      simp only [enabled, Bool.and_eq_true, beq_iff_eq] at henabled
      exact henabled.1
    refine hs.stay rfl (by rw [hstage]; rfl) ?_ nofun
    rw [hstage]
    rintro (hdestroyed | hdestroyed) <;> cases hdestroyed
  | destroyed =>
    simp only [enabled, Bool.and_eq_true, beq_iff_eq] at henabled
    obtain ⟨⟨hstage, hquiet⟩, -⟩ := henabled
    exact hs.stay rfl (by rw [hstage]; rfl) (fun _ => ⟨rfl, id⟩) fun _ => hquiet
  | worked i event =>
    obtain ⟨h, hget, hrunning⟩ := hosted_of_worked henabled
    have hstep := e.step_worked hget event
    refine hs.goes_on hget (congrArg (·.1.hosted) hstep) (congrArg (·.1.stage) hstep) nofun id ?_
    intro hstopped
    rw [hrunning] at hstopped
    cases hstopped
  | resolved i call outcome =>
    obtain ⟨h, hget⟩ := Option.isSome_iff_exists.mp henabled
    refine hs.goes_on hget rfl rfl nofun id ?_
    intro hstopped
    obtain ⟨hnone, hretired⟩ := hs.idle i h hget hstopped
    exact ⟨hnone, later hretired _⟩
  | retired i =>
    obtain ⟨h, hget, -, hdone⟩ := hosted_of_retired henabled
    refine hs.goes_on hget rfl rfl nofun (fun _ => rfl) fun _ => ⟨?_, _,
      List.mem_append_right _ List.mem_cons_self, rfl⟩
    simp only [Worker.isDone, Bool.and_eq_true] at hdone
    exact List.isEmpty_iff.mp hdone.1.2

end Staged

/-- **The stages of any run.** -/
theorem Run.staged (run : Run history e) : Staged history e := by
  induction run with
  | start service limits localName =>
    refine ⟨nofun, fun _ => rfl, fun i h hget => ?_, fun m hmem => absurd hmem List.not_mem_nil⟩
    cases hget
  | next run event henabled ih => exact ih.next event henabled
  | changed run service ih => exact ⟨ih.1, ih.2, ih.3, ih.4⟩

/-! ## §5. Runs of endpoints. -/

/-- Calls are handed over by workers that run. -/
theorem Moment.running_of_dispatched {m : Moment σ} (henabled : m.before.enabled m.event = true)
    (hdispatched : dispatchesIn m.effects ≠ []) : ∃ h ∈ m.before.hosted, h.running = true := by
  obtain ⟨e, event⟩ := m
  cases event with
  | worked i event =>
    obtain ⟨h, hget, hrunning⟩ := hosted_of_worked henabled
    exact ⟨h, List.mem_of_getElem? hget, hrunning⟩
  | initialised result => cases result <;> exact absurd rfl hdispatched
  | _ => exact absurd rfl hdispatched

/-- When all workers have finished, nothing is outstanding. -/
theorem Staged.outstanding_of_quiet (hs : Staged history e) (hquiet : e.isQuiet = true) :
    e.outstanding = 0 ∧ e.running = 0 := by
  unfold isQuiet at hquiet
  rw [List.all_eq_true] at hquiet
  refine ⟨?_, ?_⟩
  · unfold outstanding
    rw [List.sum_eq_zero_iff_forall_eq_nat]
    intro n hn
    obtain ⟨h, hmem, rfl⟩ := List.mem_map.mp hn
    obtain ⟨i, hget⟩ := List.mem_iff_getElem?.mp hmem
    have hstopped : h.running = false := by simpa using hquiet h hmem
    rw [(hs.idle i h hget hstopped).1]
    rfl
  · unfold running
    rw [List.countP_eq_zero]
    intro h hmem
    simpa using hquiet h hmem

/-- **An endpoint goes through its life in order and keeps its books.**  The limits are any, and so
are the service, what it keeps for all connections, the peers, and the order in which connections
are accepted, workers make steps, calls are resolved and the endpoint is told to shut down.

The counters tell what has happened, and every call that was dispatched is completed, failed or
outstanding at one of the workers.  The connections that are active are those that were accepted
without those whose worker has finished; none finishes while none is active.  No call is handed to
the service before it has initialised, or after it has been told that it is over.  It is told so
when the workers of all connections that were accepted have finished; then none is active, and
every call that was dispatched is completed or failed. -/
theorem endpoints_keep_their_books (run : Run history e) :
    (e.counters.dispatched = (dispatchesIn (effectsOf history)).length
      ∧ e.counters.dispatched = e.counters.completed + e.counters.failed + e.outstanding)
    ∧ (e.counters.accepted = acceptancesIn history
      ∧ e.counters.active + retirementsIn history = acceptancesIn history)
    ∧ ∀ past m later, history = past ++ m :: later →
      (dispatchesIn m.effects ≠ [] →
        (∃ m' ∈ past, m'.event = .initialised (.ok ())) ∧ ∀ m' ∈ past, m'.event ≠ .destroyed)
      ∧ (m.event.isRetirement = true → 0 < m.before.counters.active)
      ∧ (m.event = .destroyed →
        (∀ i < acceptancesIn past, ∃ m' ∈ past, m'.event = .retired i)
        ∧ m.before.counters.active = 0
        ∧ m.before.counters.dispatched
          = m.before.counters.completed + m.before.counters.failed) := by
  have hcounted := run.counted
  refine ⟨⟨hcounted.dispatched, ?_⟩, ⟨hcounted.accepted, ?_⟩, fun past m later hsplit => ?_⟩
  · rw [hcounted.dispatched, hcounted.ended, hcounted.calls]
  · rw [hcounted.active, hcounted.retired, hcounted.hosted]
  obtain ⟨hpast, henabled⟩ := run.at_split hsplit
  have hbooks := hpast.counted
  have hstages := hpast.staged
  refine ⟨fun hdispatched => ?_, fun hretires => ?_, fun hdestroyed => ?_⟩
  · obtain ⟨h, hmem, hrunning⟩ := Moment.running_of_dispatched henabled hdispatched
    refine ⟨?_, fun m' hmem' hdestroyed => ?_⟩
    · cases hstarted : m.before.stage.isStarted with
      | true => exact hstages.started hstarted
      | false =>
        rw [hstages.unstarted hstarted] at hmem
        cases hmem
    · -- a worker that runs is in the way of the end
      have hquiet := (hstages.destroyed m' hmem' hdestroyed).2
      unfold isQuiet at hquiet
      rw [List.all_eq_true] at hquiet
      have hstopped := hquiet h hmem
      rw [hrunning] at hstopped
      cases hstopped
  · obtain ⟨e', event⟩ := m
    cases event with
    | retired i =>
      obtain ⟨h, hget, hrunning, -⟩ := hosted_of_retired henabled
      rw [hbooks.active]
      exact List.countP_pos_iff.mpr ⟨h, List.mem_of_getElem? hget, hrunning⟩
    | _ => cases hretires
  · rw [hdestroyed] at henabled
    simp only [enabled, Bool.and_eq_true] at henabled
    obtain ⟨⟨-, hquiet⟩, -⟩ := henabled
    obtain ⟨hnone, hstopped⟩ := hstages.outstanding_of_quiet hquiet
    refine ⟨fun i hi => ?_, hbooks.active.trans hstopped, ?_⟩
    · rw [← hbooks.hosted] at hi
      have hget := List.getElem?_eq_getElem hi
      have hend := List.all_eq_true.mp hquiet _ (List.getElem_mem hi)
      exact (hstages.idle i _ hget (by simpa using hend)).2
    · rw [hbooks.dispatched, hbooks.calls, hnone, hbooks.ended]
      rfl

/-- Two calls arrive where one may be outstanding, and the endpoint is shut down: the first is
completed, the second is refused, and the worker finishes before the service is told. -/
theorem endpoints_keep_their_books_when_one_is_shut_down :
    ∃ (history : List (Moment Unit)) (e : Endpoint Unit),
      Run history e ∧ e.stage = .destroyed
      ∧ (dispatchesIn (effectsOf history)).length = 1 ∧ acceptancesIn history = 1
      ∧ e.counters.dispatched = e.counters.completed + e.counters.failed + e.outstanding
      ∧ e.counters.active + retirementsIn history = acceptancesIn history
      ∧ ∃ m ∈ history, m.event = .destroyed ∧ m.before.counters.active = 0
        ∧ m.before.counters.dispatched
          = m.before.counters.completed + m.before.counters.failed := by
  have start : Run [] _ := .start Worker.keeper Worker.narrow (.unix ⟨"/agent"⟩)
  have initialised := start.next (.initialised (.ok ())) (by decide +kernel)
  have accepted := initialised.next (.accepted (.unix ⟨"/peer"⟩) 0) (by decide +kernel)
  have arrived := accepted.next (.worked 0 (.received Worker.twoCalls)) (by decide +kernel)
  have signalled := arrived.next (.signalled true) (by decide +kernel)
  have closed := signalled.next .closed (by decide +kernel)
  have refused := closed.next (.worked 0 .shutdown) (by decide +kernel)
  have resolved := refused.next (.resolved 0 ⟨0, 0, 1⟩ (.ok [9])) (by decide +kernel)
  have drained := resolved.next (.worked 0 .drained) (by decide +kernel)
  have wrote := drained.next (.worked 0 (.wrote 42)) (by decide +kernel)
  have retired := wrote.next (.retired 0) (by decide +kernel)
  have destroyed := retired.next .destroyed (by decide +kernel)
  obtain ⟨⟨-, hcalls⟩, ⟨-, hactive⟩, hmoments⟩ := endpoints_keep_their_books destroyed
  obtain ⟨-, -, hend⟩ := hmoments _ _ [] rfl
  obtain ⟨-, hnone, hall⟩ := hend rfl
  exact ⟨_, _, destroyed, by decide +kernel, by decide +kernel, by decide +kernel, hcalls, hactive, _,
    List.mem_append_right _ List.mem_cons_self, rfl, hnone, hall⟩

end Endpoint

end RemoteCall
