/-
  RemoteCall.Proofs.Pool.Run
  ──────────────────────────
  **RUNS OF A POOL.**

  A run is a list of moments: what the pool was like, and what happened then.
  Callers and observers, attempts and links, and the pool itself act in any
  order.  The pool may look at any of the things that are before it, not only
  at the one that it prefers, and it may do what is due at any time, so a run
  of `Pool.turn?` is a run in this sense (`Run.turn`), and so is whatever
  callers do (`Run.call`, `Run.cancel`).

  What is asked of callers and observers (`Pool.Admits`):
    • a call is asked for at most once, under the number of its slot,
    • a call is let go of only when it has an outcome,
    • a call that was asked for is given up only with the word that it timed
      out, was aborted, or that the pool is gone.
-/
import RemoteCall.Pool.Turn
import RemoteCall.Proofs.Call.Growth

namespace RemoteCall.Pool

/-! ## §1. Moments. -/

/-- What may happen to a pool. -/
inductive Event where
  /-- The slot of a new call is opened. -/
  | issue (shape : Payload.Shape)
  /-- A caller or an observer records a failure of a call, unless it has an outcome. -/
  | settle (id : CallId) (e : Failure)
  /-- A caller asks for something. -/
  | send (command : Command)
  /-- An attempt or a link reports something. -/
  | report (notice : Notice)
  /-- The pool is asked to stop. -/
  | stop
  /-- The pool looks at a subject. -/
  | look (env : Surroundings) (now : Time) (subject : Subject)
  /-- The pool does what is due. -/
  | advance (env : Surroundings) (now : Time)

/-- The pool after an event, and the effects on the outside. -/
def after (p : Pool) : Event → Stepped
  | .issue shape =>
    ({ p with nextCall := p.nextCall + 1, ledger := p.ledger.issue p.nextCall shape }, [])
  | .settle id e => (p.fail id e, [])
  | .send command => ((p.send command).1, [])
  | .report notice => ({ p with notices := p.notices ++ [notice] }, [])
  | .stop => (p.stop, [])
  | .look env now subject => p.look env now subject
  | .advance env now => p.advance env now

/-- One moment of a run: what the pool was like, and what happened. -/
structure Moment where
  /-- The pool before the event. -/
  before : Pool
  /-- The event. -/
  event : Event

namespace Moment

/-- The pool after the event. -/
def after (m : Moment) : Pool := (m.before.after m.event).1

/-- The effects of the event. -/
def effects (m : Moment) : List Effect := (m.before.after m.event).2

/-- The call that a caller asks for. -/
def askedFor? (m : Moment) : Option (ConnectionKey × PendingCall) :=
  match m.event with
  | .send (.call key call) => some (key, call)
  | _ => none

/-- The call that the pool takes up. -/
def takenUp? (m : Moment) : Option (ConnectionKey × PendingCall) :=
  match m.event with
  | .look _ _ (.command (.call key call)) => some (key, call)
  | _ => none

end Moment

/-- The calls that were asked for, in order. -/
def askedFor (history : List Moment) : List (ConnectionKey × PendingCall) :=
  history.filterMap (·.askedFor?)

/-- The calls whose command the pool has looked at, in order. -/
def takenUp (history : List Moment) : List (ConnectionKey × PendingCall) :=
  history.filterMap (·.takenUp?)

/-- All effects on the outside, in order. -/
def effectsOf (history : List Moment) : List Effect :=
  history.flatMap (·.effects)

/-! ## §2. Runs. -/

/-- Whether a subject is before the pool. -/
def Subject.isBefore (p : Pool) : Subject → Prop
  | .stop => p.stopping = true
  | .command first => p.commands.head? = some first
  | .notice first => p.notices.head? = some first
  | .directory _ | .timer => True

/-- Whether an event may follow a history. -/
def Admits (history : List Moment) (p : Pool) : Event → Prop
  | .settle id e =>
    id ∈ (askedFor history).map (·.2.id) → e = .timeout ∨ e = .aborted ∨ e = .disconnected
  | .send (.call _ call) =>
    (0 < call.id ∧ call.id < p.nextCall) ∧ call.id ∉ (askedFor history).map (·.2.id)
      ∧ call.retries = 0
  | .send (.abort id) => p.ledger.isFinished id = true
  | .look _ _ subject => p.stopped = false ∧ subject.isBefore p
  | _ => True

/-- A pool with these settings has come this far. -/
inductive Run (config : PoolConfig) : List Moment → Pool → Prop where
  /-- The pool is new. -/
  | start {directory : Directory} {p : Pool} :
    Pool.new config directory = .ok p → Run config [] p
  /-- Something happens. -/
  | next {history : List Moment} {p : Pool} (run : Run config history p) (event : Event) :
    p.Admits history event → Run config (history ++ [⟨p, event⟩]) (p.after event).1

@[simp] theorem askedFor_nil : askedFor [] = [] := rfl

@[simp] theorem takenUp_nil : takenUp [] = [] := rfl

@[simp] theorem effectsOf_nil : effectsOf [] = [] := rfl

@[simp] theorem askedFor_concat (history : List Moment) (m : Moment) :
    askedFor (history ++ [m]) = askedFor history ++ m.askedFor?.toList := by
  unfold askedFor
  rw [List.filterMap_append]
  cases h : m.askedFor? <;> simp [h]

@[simp] theorem takenUp_concat (history : List Moment) (m : Moment) :
    takenUp (history ++ [m]) = takenUp history ++ m.takenUp?.toList := by
  unfold takenUp
  rw [List.filterMap_append]
  cases h : m.takenUp? <;> simp [h]

@[simp] theorem effectsOf_concat (history : List Moment) (m : Moment) :
    effectsOf (history ++ [m]) = effectsOf history ++ m.effects := by
  simp [effectsOf]

/-! ## §3. What the pool leaves alone. -/

/-- `q` differs from `p` at most in its connections, its ledger and what it has seen of the
directory. -/
structure Steady (p q : Pool) : Prop where
  config : q.config = p.config
  nextCall : q.nextCall = p.nextCall
  commands : q.commands = p.commands
  accepting : q.accepting = p.accepting
  notices : q.notices = p.notices
  stopping : q.stopping = p.stopping
  stopped : q.stopped = p.stopped

theorem Steady.refl (p : Pool) : Steady p p :=
  ⟨rfl, rfl, rfl, rfl, rfl, rfl, rfl⟩

theorem steady_withConnection (p : Pool) (now : Time) (key : ConnectionKey) :
    Steady p (p.withConnection now key) := by
  unfold withConnection
  cases p.connection? key with
  | some _ => exact Steady.refl p
  | none => exact ⟨rfl, rfl, rfl, rfl, rfl, rfl, rfl⟩

theorem steady_command (env : Surroundings) (now : Time) (p : Pool) (first : Command) :
    Steady p (p.command env now first).1 := by
  cases first with
  | call key call =>
    unfold command
    dsimp only
    split
    · exact Steady.refl p
    · obtain ⟨h₁, h₂, h₃, h₄, h₅, h₆, h₇⟩ := steady_withConnection p now key
      exact ⟨h₁, h₂, h₃, h₄, h₅, h₆, h₇⟩
  | abort id => exact ⟨rfl, rfl, rfl, rfl, rfl, rfl, rfl⟩
  | acquire key =>
    obtain ⟨h₁, h₂, h₃, h₄, h₅, h₆, h₇⟩ := steady_withConnection p now key
    exact ⟨h₁, h₂, h₃, h₄, h₅, h₆, h₇⟩
  | release key => exact ⟨rfl, rfl, rfl, rfl, rfl, rfl, rfl⟩

theorem steady_attend (p : Pool) (c : Connection) (first : Notice) :
    Steady p (p.attend c first).1 := by
  unfold attend
  split <;> exact ⟨rfl, rfl, rfl, rfl, rfl, rfl, rfl⟩

theorem steady_notice (p : Pool) (first : Notice) : Steady p (p.notice first).1 := by
  unfold notice
  split
  · split
    · exact steady_attend p _ first
    · exact Steady.refl p
  · exact Steady.refl p

theorem config_look (env : Surroundings) (now : Time) (p : Pool) (subject : Subject) :
    (p.look env now subject).1.config = p.config
      ∧ (p.look env now subject).1.nextCall = p.nextCall := by
  cases subject with
  | stop => exact ⟨rfl, rfl⟩
  | command first =>
    exact ⟨(steady_command env now _ first).config, (steady_command env now _ first).nextCall⟩
  | notice first => exact ⟨(steady_notice _ first).config, (steady_notice _ first).nextCall⟩
  | directory directory => exact ⟨rfl, rfl⟩
  | timer => exact ⟨rfl, rfl⟩

theorem config_after (p : Pool) (event : Event) : (p.after event).1.config = p.config := by
  cases event with
  | send command =>
    show ((p.send command).1).config = p.config
    unfold send
    split <;> rfl
  | look env now subject => exact (config_look env now p subject).1
  | _ => rfl

theorem nextCall_le_after (p : Pool) (event : Event) :
    p.nextCall ≤ (p.after event).1.nextCall := by
  cases event with
  | issue shape => exact Nat.le_succ _
  | send command =>
    show p.nextCall ≤ ((p.send command).1).nextCall
    unfold send
    split <;> exact Nat.le_refl _
  | look env now subject => exact Nat.le_of_eq (config_look env now p subject).2.symm
  | _ => exact Nat.le_refl _

theorem eq_of_new {config : PoolConfig} {directory : Directory} {p : Pool}
    (h : Pool.new config directory = .ok p) :
    p = { config, subscription := .start directory } := by
  unfold Pool.new at h
  cases hv : config.validate with
  | error e => rw [hv] at h; exact absurd h (by simp [Except.map])
  | ok _ => rw [hv] at h; exact (Except.ok.inj h).symm

/-- The settings never change. -/
theorem Run.config_eq {config : PoolConfig} {history : List Moment} {p : Pool}
    (run : Run config history p) : p.config = config := by
  induction run with
  | start h => rw [eq_of_new h]
  | next _ event _ ih => rw [config_after, ih]

/-- Up to any of its moments, a run is a run. -/
theorem Run.at_split {config : PoolConfig} {history : List Moment} {p : Pool}
    (run : Run config history p) {earlier later : List Moment} {m : Moment}
    (h : history = earlier ++ m :: later) :
    Run config earlier m.before ∧ m.before.Admits earlier m.event := by
  induction run generalizing later with
  | start _ => exact absurd h (by simp)
  | @next history p run event hadmits ih =>
    -- either the moment is the last one, or it lies in the run so far
    rcases List.eq_nil_or_concat later with rfl | ⟨rest, last, rfl⟩
    · obtain ⟨rfl, hlast⟩ := List.append_inj' h rfl
      cases hlast
      exact ⟨run, hadmits⟩
    · rw [List.concat_eq_append, ← List.cons_append, ← List.append_assoc] at h
      exact ih (List.append_inj' h rfl).1

/-! ## §4. Callers and turns. -/

theorem Run.nextCall_pos {config : PoolConfig} {history : List Moment} {p : Pool}
    (run : Run config history p) : 0 < p.nextCall := by
  induction run with
  | start h => rw [eq_of_new h]; exact Nat.one_pos
  | next _ event _ ih => exact Nat.lt_of_lt_of_le ih (nextCall_le_after _ event)

/-- The numbers of the calls that were asked for have been given out. -/
theorem Run.askedFor_lt {config : PoolConfig} {history : List Moment} {p : Pool}
    (run : Run config history p) : ∀ x ∈ askedFor history, x.2.id < p.nextCall := by
  induction run with
  | start _ => simp
  | @next history p _ event hadmits ih =>
    intro x hx
    have hmono : p.nextCall ≤ (p.after event).1.nextCall := nextCall_le_after p event
    rw [askedFor_concat, List.mem_append] at hx
    rcases hx with hold | hnew
    · exact Nat.lt_of_lt_of_le (ih x hold) hmono
    · -- only asking for a call makes the list longer
      cases event with
      | send command =>
        cases command with
        | call key call =>
          have hx' : x = (key, call) := by simpa [Moment.askedFor?] using hnew
          subst hx'
          exact Nat.lt_of_lt_of_le hadmits.1.2 hmono
        | _ => exact absurd hnew (by simp [Moment.askedFor?])
      | _ => exact absurd hnew (by simp [Moment.askedFor?])

variable {config : PoolConfig} {history : List Moment} {p : Pool}

/-- What a caller does with `Pool.call` belongs to a run. -/
theorem Run.call (run : Run config history p) (key : ConnectionKey) (options : CallOptions)
    (request : Payload.Outgoing) (response : Payload.Shape) :
    ∃ more, Run config (history ++ more) (p.call key options request response).1 := by
  -- the number of the new slot has not been given out, so no call was asked for under it
  have hfresh : p.nextCall ∉ (askedFor history).map (·.2.id) := by
    intro hmem
    obtain ⟨x, hx, heq⟩ := List.mem_map.mp hmem
    exact absurd (heq ▸ run.askedFor_lt x hx) (Nat.lt_irrefl _)
  have hissue := run.next (.issue response) trivial
  have hasked : askedFor (history ++ [⟨p, .issue response⟩]) = askedFor history := by
    simp [Moment.askedFor?]
  -- a call that fails before it is asked for needs only its slot
  have hfail : ∀ e, ∃ more, Run config (history ++ more)
      ((p.after (.issue response)).1.fail p.nextCall e) := by
    intro e
    have h := hissue.next (.settle p.nextCall e) (by
      intro hmem
      rw [hasked] at hmem
      exact absurd hmem hfresh)
    exact ⟨_, by rw [List.append_assoc] at h; exact h⟩
  unfold Pool.call
  dsimp only
  split
  · exact hfail _
  · rename_i bytes _
    split
    · exact hfail _
    · split
      · rename_i _ queued hsend
        have h := hissue.next
          (.send (.call key ⟨p.nextCall, bytes, options.deadline, options.idempotent, 0⟩))
          ⟨⟨run.nextCall_pos, Nat.lt_succ_self _⟩, by rw [hasked]; exact hfresh, rfl⟩
        rw [List.append_assoc] at h
        have hq : queued = _ := (congrArg Prod.fst hsend).symm
        subst hq
        exact ⟨_, h⟩
      · rename_i _ refused hsend
        have hq : refused = (p.after (.issue response)).1 := by
          unfold send at hsend
          split at hsend
          · exact absurd (congrArg Prod.snd hsend) (by simp)
          · exact (congrArg Prod.fst hsend).symm
        rw [hq]
        exact hfail .disconnected

/-- What an observer does with `Pool.cancel` belongs to a run. -/
theorem Run.cancel (run : Run config history p) (id : CallId) {e : Failure}
    (he : e = .timeout ∨ e = .aborted ∨ e = .disconnected) :
    ∃ more, Run config (history ++ more) (p.cancel id e) := by
  have hfail := run.next (.settle id e) (fun _ => he)
  have hledger : ((p.after (.settle id e)).1).ledger = (p.ledger.cancel id e).1 :=
    (Ledger.cancel_fst p.ledger id e).symm
  have hpool : (p.after (.settle id e)).1 = { p with ledger := (p.ledger.cancel id e).1 } := by
    rw [← hledger]
    rfl
  unfold Pool.cancel
  split
  · rename_i ledger htold
    have hl : (p.ledger.cancel id e).1 = ledger := congrArg Prod.fst htold
    -- the abort is admitted, since the failure has just been recorded
    have hfin : ((p.after (.settle id e)).1).ledger.isFinished id = true :=
      Ledger.isFinished_fail_of_knows (Ledger.knows_of_cancel (congrArg Prod.snd htold)) e
    have hsend := hfail.next (.send (.abort id)) hfin
    rw [List.append_assoc, hpool, hl] at hsend
    exact ⟨_, hsend⟩
  · rename_i ledger htold
    rw [hpool, congrArg Prod.fst htold] at hfail
    exact ⟨_, hfail⟩

theorem isBefore_of_subject? {now : Time} {directory : Directory} {subject : Subject}
    (h : p.subject? now directory = some subject) :
    p.stopped = false ∧ subject.isBefore p := by
  unfold subject? at h
  split at h
  · cases h
  · next hrunning =>
    refine ⟨by simpa using hrunning, ?_⟩
    split at h
    · next hstop =>
      cases h
      exact hstop
    · split at h
      · next hcommands =>
        cases h
        simp [Subject.isBefore, hcommands]
      · next hnotices =>
        cases h
        simp [Subject.isBefore, hnotices]
      · split at h
        · cases h
          trivial
        · split at h
          · cases h
            trivial
          · cases h

/-- What the pool does in a turn belongs to a run. -/
theorem Run.turn (run : Run config history p) {env : Surroundings} {now : Time}
    {directory : Directory} {stepped : Stepped} (h : p.turn? env now directory = some stepped) :
    ∃ more, Run config (history ++ more) stepped.1 := by
  obtain ⟨subject, hsubject, rfl⟩ := Option.map_eq_some_iff.mp h
  have hlook := run.next (.look env now subject) (isBefore_of_subject? hsubject)
  have hadvance := hlook.next (.advance env now) trivial
  rw [List.append_assoc] at hadvance
  exact ⟨_, hadvance⟩

end RemoteCall.Pool
