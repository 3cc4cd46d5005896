/-
  RemoteCall.Proofs.Pool.Finding
  ──────────────────────────────
  **NO AGENT THAT IS LISTED IS MISSED.**

  A mark does not outlive its reason.  As long as there is a change that the
  pool has not seen, it does not rest, and what is before it gets less with each
  of its accesses, whatever others do, except that they ask or report more.  So
  it comes to the directory and takes all marks away.  An agent that is listed
  is not marked again.

  Main statements:
    • `Lookout.Sound.rests`        — a pool that has nothing before it,
    • `Lookout.Sound.work_own`     — one access leaves less to do,
    • `Lookout.Sound.served_after` — how long it takes,
    • `nobody_who_is_listed_is_missed` — the whole.
-/
import Mathlib.Data.List.Infix
import RemoteCall.Proofs.Pool.Marking

namespace RemoteCall.Pool

variable {p : Pool} {x y : Lookout} {now : Time}

namespace Lookout

/-! ## §1. A pool at rest. -/

/-- A pool that rests has nothing before it. -/
theorem of_subject?_eq_none (hrunning : x.pool.stopped = false)
    (hnone : x.pool.subject? now x.directory = none) :
    x.pool.subscription.isStale x.directory = false ∧ x.pool.isDue now = false := by
  unfold subject? at hnone
  rw [hrunning, if_neg Bool.false_ne_true] at hnone
  split at hnone
  · cases hnone
  · split at hnone
    · cases hnone
    · cases hnone
    · split at hnone
      · cases hnone
      · next hfresh =>
        split at hnone
        · cases hnone
        · next hdue => exact ⟨by simpa using hfresh, by simpa using hdue⟩

/-- An agent that is listed is sought, has been found, or is sought when it is time again. -/
inductive Pursued (p : Pool) (now : Time) (c : Connection) : Prop where
  | sought {candidates : List PeerName} : c.phase = .connecting candidates → Pursued p now c
  | found {live : Live} : c.phase = .connected live → Pursued p now c
  /-- The pool wakes up in time. -/
  | later {t wakeup : Time} :
    c.phase = .disconnected t → now < t → p.wakeup? = some wakeup → wakeup ≤ t → Pursued p now c

/-- **A pool at rest** is looking for no agent that is listed. -/
theorem Sound.rests (h : x.Sound) (hstage : x.stage = .resting) (hrunning : x.pool.stopped = false)
    (hnone : x.pool.subject? now x.directory = none) {c : Connection} (hc : c ∈ x.pool.connections)
    (hdemand : c.hasDemand = true) (hlisted : x.directory.peers c.key.agent ≠ [])
    (hsettled : ∀ change ∈ x.changes, change.agent ≠ c.key.agent) :
    c.looking = false ∧ Pursued x.pool now c := by
  obtain ⟨hfresh, hdue⟩ := of_subject?_eq_none hrunning hnone
  have hunmarked : c.looking = false := by
    by_contra hlooking
    cases h.covers (hstage ▸ rfl) hc (by simpa using hlooking) with
    | unlisted hgone => exact hlisted hgone
    | changing hmem hagent => exact hsettled _ hmem hagent
    | pending hstale =>
      rw [hfresh] at hstale
      cases hstale
  refine ⟨hunmarked, ?_⟩
  cases hphase : c.phase with
  | connecting candidates => exact .sought hphase
  | connected live => exact .found hphase
  | errored e =>
    obtain ⟨i, hi⟩ := List.mem_iff_getElem?.mp hc
    refine absurd hphase (h.awake hi ?_ e)
    rw [hstage]
    trivial
  | disconnected t =>
    have hmem : t ∈ x.pool.connections.flatMap (·.wakeups x.pool.config) := by
      refine List.mem_flatMap.mpr ⟨c, hc, ?_⟩
      unfold Connection.wakeups
      rw [hphase, hunmarked, hdemand]
      simp
    cases hwakeup : x.pool.wakeup? with
    | none =>
      rw [List.min?_eq_none_iff.mp hwakeup] at hmem
      exact absurd hmem List.not_mem_nil
    | some wakeup =>
      have hle : wakeup ≤ t := (List.min?_eq_some_iff.mp hwakeup).2 t hmem
      refine .later hphase ?_ hwakeup hle
      unfold isDue at hdue
      rw [hwakeup] at hdue
      simp only [decide_eq_false_iff_not, Nat.not_le] at hdue
      exact Nat.lt_of_lt_of_le hdue hle

/-! ## §2. It comes to an end. -/

/-- No connection for the agent is looking. -/
def Served (x : Lookout) (agent : AgentName) : Prop :=
  ∀ c ∈ x.pool.connections, c.key.agent = agent → c.looking = false

/-- There is a change that the pool has not seen, or it is about to reconsider its connections. -/
def Alert (x : Lookout) : Prop :=
  x.pool.subscription.isStale x.directory = true ∨ x.stage.reconsiders = true

/-- How much is before the pool, if so much more arrives. -/
def backlog (arriving : Nat) (x : Lookout) : Nat :=
  x.pool.commands.length + x.pool.notices.length + arriving

/-- How many connections there are at most, if so much more arrives. -/
def crowd (arriving : Nat) (x : Lookout) : Nat :=
  x.pool.connections.length + x.pool.commands.length + arriving

/-- How many accesses it takes the pool at most, until it has reconsidered its connections. -/
def work (arriving : Nat) (x : Lookout) : Nat :=
  match x.stage with
  | .resting => (x.backlog arriving + 1) * (x.crowd arriving + 2)
  | .told => x.pool.connections.length + 1
  | .reconsidering n => x.pool.connections.length - n
  | .advancing n =>
    x.pool.connections.length - n + 1 + (x.backlog arriving + 1) * (x.crowd arriving + 2)

/-- Less is before the pool. -/
theorem work_mono {a b : Nat} (hstage : y.stage = x.stage)
    (hlength : y.pool.connections.length = x.pool.connections.length)
    (hcommands : y.pool.commands.length + b ≤ x.pool.commands.length + a)
    (hbacklog : y.backlog b ≤ x.backlog a) : y.work b ≤ x.work a := by
  have hcrowd : y.crowd b ≤ x.crowd a := by
    unfold crowd
    omega
  have hproduct := Nat.mul_le_mul (Nat.add_le_add_right hbacklog 1) (Nat.add_le_add_right hcrowd 2)
  unfold work
  rw [hstage]
  cases x.stage with
  | resting => exact hproduct
  | told | reconsidering n => exact Nat.le_of_eq (by dsimp only; omega)
  | advancing n =>
    dsimp only
    omega

/-- One thing less is before the pool, and all connections are to do what is due. -/
theorem work_of_look {a : Nat} {q : Pool} (hstage : x.stage = .resting)
    (hbacklog : q.commands.length + q.notices.length + 1
      = x.pool.commands.length + x.pool.notices.length)
    (hcrowd : q.connections.length + q.commands.length
      ≤ x.pool.connections.length + x.pool.commands.length) :
    work a { x with pool := q, stage := .advancing 0 } + 1 ≤ x.work a := by
  have hrest : backlog a { x with pool := q, stage := .advancing 0 } + 1 = x.backlog a := by
    unfold backlog
    dsimp only
    omega
  have hmore : crowd a { x with pool := q, stage := .advancing 0 } ≤ x.crowd a := by
    unfold crowd
    dsimp only
    omega
  have hmember : q.connections.length
      ≤ crowd a { x with pool := q, stage := .advancing 0 } := by
    unfold crowd
    dsimp only
    omega
  have hproduct := Nat.mul_le_mul_left (x.backlog a) (Nat.add_le_add_right hmore 2)
  show q.connections.length - 0 + 1
    + (backlog a { x with pool := q, stage := .advancing 0 } + 1)
      * (crowd a { x with pool := q, stage := .advancing 0 } + 2) + 1 ≤ _
  unfold work
  rw [hstage, hrest]
  dsimp only
  rw [Nat.succ_mul]
  omega

/-- Looking at a command adds at most one connection. -/
theorem length_command (env : Surroundings) (now : Time) (p : Pool) (first : Command) :
    (p.command env now first).1.connections.length ≤ p.connections.length + 1 := by
  have hwith : ∀ key, (p.withConnection now key).connections.length ≤ p.connections.length + 1 := by
    intro key
    unfold withConnection
    split
    · exact Nat.le_succ _
    · exact Nat.le_of_eq List.length_append
  have hmodify : ∀ (q : Pool) key f, (q.modify key f).connections.length = q.connections.length :=
    fun _ _ _ => List.length_map _
  cases first with
  | call key call =>
    unfold command
    dsimp only
    split
    · exact Nat.le_succ _
    · exact (hmodify _ key _).symm ▸ hwith key
  | abort id =>
    have hkeys := congrArg List.length (keys_cancelIn env id p.connections)
    rw [List.length_map, List.length_map] at hkeys
    exact Nat.le_succ_of_le (Nat.le_of_eq hkeys)
  | acquire key => exact (hmodify _ key _).symm ▸ hwith key
  | release key => exact (hmodify _ key _).symm ▸ Nat.le_succ _

theorem length_notice (p : Pool) (first : Notice) :
    (p.notice first).1.connections.length = p.connections.length := by
  unfold Pool.notice
  split
  · split
    · unfold attend
      split <;> first | exact List.length_map _ | rfl
    · rfl
  · rfl

theorem length_place (p : Pool) (n : Nat) (moved : Moved) :
    (p.place n moved).connections.length = p.connections.length :=
  List.length_set

/-- The pool looks at something before it looks at the directory. -/
theorem work_look (a : Nat) {subject : Subject} (hstage : x.stage = .resting)
    (hsubject : x.pool.subject? now x.directory = some subject)
    (hother : ∀ directory, subject ≠ .directory directory)
    (hstale : x.pool.subscription.isStale x.directory = true) (env : Surroundings) :
    (x.pool.look env now subject).1.connections = []
      ∨ work a { x with pool := (x.pool.look env now subject).1, stage := .advancing 0 } + 1
        ≤ x.work a := by
  have hbefore := (isBefore_of_subject? hsubject).2
  cases subject with
  | stop => exact .inl rfl
  | command first =>
    obtain ⟨rest, hcommands⟩ := List.head?_eq_some_iff.mp hbefore
    have hsteady := steady_command env now { x.pool with commands := x.pool.commands.tail } first
    have hrest : (x.pool.look env now (.command first)).1.commands = rest :=
      hsteady.commands.trans (congrArg List.tail hcommands)
    have hsame : (x.pool.look env now (.command first)).1.notices = x.pool.notices :=
      hsteady.notices
    have hlength : (x.pool.look env now (.command first)).1.connections.length
        ≤ x.pool.connections.length + 1 := length_command env now _ first
    refine .inr (work_of_look hstage ?_ ?_)
    · rw [hrest, hsame, hcommands, List.length_cons]
      omega
    · rw [hrest, hcommands, List.length_cons]
      omega
  | notice first =>
    obtain ⟨rest, hnotices⟩ := List.head?_eq_some_iff.mp hbefore
    have hsteady := steady_notice { x.pool with notices := x.pool.notices.tail } first
    have hsame : (x.pool.look env now (.notice first)).1.commands = x.pool.commands :=
      hsteady.commands
    have hrest : (x.pool.look env now (.notice first)).1.notices = rest :=
      hsteady.notices.trans (congrArg List.tail hnotices)
    have hlength : (x.pool.look env now (.notice first)).1.connections.length
        = x.pool.connections.length := length_notice _ first
    refine .inr (work_of_look hstage ?_ ?_)
    · rw [hsame, hrest, hnotices, List.length_cons, Nat.add_assoc]
    · exact Nat.le_of_eq (by rw [hsame, hlength])
  | directory other => exact absurd rfl (hother other)
  | timer =>
    -- a change of the directory comes before a timer
    unfold subject? at hsubject
    rw [hstale, if_pos rfl] at hsubject
    split at hsubject
    · cases hsubject
    · split at hsubject
      · cases hsubject
      · split at hsubject <;> cases hsubject

/-- **Each access of the pool** leaves less to do until no connection is looking. -/
theorem Sound.work_own (h : x.Sound) (halert : x.Alert) (arriving : Nat) (env : Surroundings)
    (now : Time) :
    (∀ agent, x.Served agent) ∨ (∀ agent, (x.own env now).1.Served agent)
      ∨ (x.own env now).1.Alert ∧ (x.own env now).1.work arriving + 1 ≤ x.work arriving := by
  have howns := x.owns env now
  generalize (x.own env now).1 = y at *
  generalize (x.own env now).2 = sent at *
  have hstale : x.stage.reconsiders = false → x.pool.subscription.isStale x.directory = true := by
    intro hidle
    refine halert.resolve_right fun hreconsiders => ?_
    rw [hidle] at hreconsiders
    cases hreconsiders
  cases howns with
  | rests hstage hnone =>
    refine .inl fun agent c hc => ?_
    cases hstopped : x.pool.stopped with
    | true =>
      rw [h.gone hstopped] at hc
      exact absurd hc List.not_mem_nil
    | false =>
      have hfresh := (of_subject?_eq_none hstopped hnone).1
      rw [hstale (hstage ▸ rfl)] at hfresh
      cases hfresh
  | learns hstage _ =>
    refine .inr (.inr ⟨.inr rfl, ?_⟩)
    have hmember : x.pool.connections.length ≤ x.crowd arriving := by
      unfold crowd
      omega
    have hone : 1 * (x.crowd arriving + 2) ≤ (x.backlog arriving + 1) * (x.crowd arriving + 2) :=
      Nat.mul_le_mul_right _ (Nat.le_add_left 1 _)
    show x.pool.connections.length + 1 + 1 ≤ x.work arriving
    unfold work
    rw [hstage]
    dsimp only
    omega
  | @looks subject hstage hsubject hother =>
    have hstill := hstale (hstage ▸ rfl)
    refine .inr ((work_look arriving hstage hsubject hother hstill (x.around env)).imp
      (fun hnone agent c hc => ?_) fun hless => ⟨.inl ?_, hless⟩)
    · dsimp only at hc
      rw [hnone] at hc
      exact absurd hc List.not_mem_nil
    · dsimp only
      rw [subscription_look _ now x.pool hother]
      exact hstill
  | notes hstage =>
    refine .inr (.inr ⟨.inr rfl, Nat.le_of_eq ?_⟩)
    unfold work
    rw [hstage]
    rfl
  | @reconsiders n c hstage hc =>
    refine .inr (.inr ⟨.inr rfl, ?_⟩)
    obtain ⟨hlt, -⟩ := List.getElem?_eq_some_iff.mp hc
    unfold work
    rw [hstage]
    dsimp only
    rw [length_place]
    omega
  | turns hstage hnone =>
    refine .inl fun agent c hc _ => ?_
    obtain ⟨i, hi⟩ := List.mem_iff_getElem?.mp hc
    obtain ⟨hlt, -⟩ := List.getElem?_eq_some_iff.mp hi
    exact h.passed hstage (Nat.lt_of_lt_of_le hlt (List.getElem?_eq_none_iff.mp hnone)) hi
  | @advances n c hstage hc =>
    refine .inr (.inr ⟨.inl (hstale (hstage ▸ rfl)), ?_⟩)
    obtain ⟨hlt, -⟩ := List.getElem?_eq_some_iff.mp hc
    have hlength := length_place x.pool n
      (c.advance (x.around env) x.pool.config now x.pool.ledger)
    generalize hq :
      x.pool.place n (c.advance (x.around env) x.pool.config now x.pool.ledger) = q at *
    have hcommands : q.commands = x.pool.commands := hq ▸ rfl
    have hnotices : q.notices = x.pool.notices := hq ▸ rfl
    unfold work
    rw [hstage]
    unfold backlog crowd
    dsimp only
    rw [hlength, hcommands, hnotices]
    omega
  | @sheds n hstage hnone =>
    refine .inr (.inr ⟨.inl (hstale (hstage ▸ rfl)), ?_⟩)
    have hfewer : (x.pool.shed now).1.connections.length ≤ x.pool.connections.length :=
      List.length_filter_le _ _
    have hproduct := Nat.mul_le_mul_left (x.backlog arriving + 1) (Nat.add_le_add_right
      (Nat.add_le_add_right (Nat.add_le_add_right hfewer x.pool.commands.length) arriving) 2)
    have hwork : x.work arriving = x.pool.connections.length - n + 1
        + (x.backlog arriving + 1) * (x.crowd arriving + 2) := by
      unfold work
      rw [hstage]
    rw [hwork]
    show (x.backlog arriving + 1) * ((x.pool.shed now).1.connections.length
      + x.pool.commands.length + arriving + 2) + 1 ≤ _
    unfold crowd
    omega

/-- Whether the pool itself has an access. -/
def Act.isOwn : Act → Bool
  | .own _ _ => true
  | _ => false

/-- Whether there is more before the pool afterwards. -/
def Act.arrives : Act → Bool
  | .send _ | .report _ => true
  | _ => false

/-- **No other access makes it more**, apart from what arrives. -/
theorem Sound.work_other (h : x.Sound) (halert : x.Alert) {act : Act} (hact : act.isOwn = false)
    (arriving : Nat) :
    (x.act act).1.Alert
      ∧ (x.act act).1.work arriving ≤ x.work (arriving + if act.arrives then 1 else 0) := by
  have hbeside : ∀ q : Pool, q.subscription = x.pool.subscription →
      Alert { x with pool := q } := by
    intro q hseen
    refine halert.imp_left fun hstale => ?_
    dsimp only
    rw [hseen]
    exact hstale
  cases act with
  | own env now => cases hact
  | change change =>
    refine ⟨halert.imp_left fun hstale => ?_, Nat.le_refl _⟩
    show (x.pool.subscription.seen != (x.directory.alter change).1.generation) = true
    rw [Directory.generation_alter]
    exact hstale
  | announce i =>
    unfold Lookout.act
    dsimp only
    split
    · exact ⟨.inl h.isStale_announce, Nat.le_refl _⟩
    · exact ⟨halert, Nat.le_refl _⟩
  | issue shape => exact ⟨hbeside _ rfl, Nat.le_refl _⟩
  | settle id e => exact ⟨hbeside _ rfl, Nat.le_refl _⟩
  | stop => exact ⟨hbeside _ rfl, Nat.le_refl _⟩
  | report notice =>
    refine ⟨hbeside _ rfl, work_mono rfl rfl (Nat.add_le_add_left (Nat.le_succ _) _) ?_⟩
    show x.pool.commands.length + (x.pool.notices ++ [notice]).length + arriving
      ≤ x.pool.commands.length + x.pool.notices.length + (arriving + 1)
    rw [List.length_append, List.length_singleton]
    omega
  | send command =>
    have hqueued : (x.pool.send command).1.commands.length ≤ x.pool.commands.length + 1
        ∧ (x.pool.send command).1.notices = x.pool.notices
        ∧ (x.pool.send command).1.connections = x.pool.connections
        ∧ (x.pool.send command).1.subscription = x.pool.subscription := by
      unfold Pool.send
      split
      · exact ⟨Nat.le_of_eq List.length_append, rfl, rfl, rfl⟩
      · exact ⟨Nat.le_succ _, rfl, rfl, rfl⟩
    obtain ⟨hcommands, hnotices, hconnections, hseen⟩ := hqueued
    refine ⟨hbeside _ hseen, work_mono rfl (congrArg List.length hconnections) ?_ ?_⟩
    · show (x.pool.send command).1.commands.length + arriving ≤ _ + (arriving + 1)
      omega
    · show (x.pool.send command).1.commands.length + (x.pool.send command).1.notices.length
        + arriving ≤ x.pool.commands.length + x.pool.notices.length + (arriving + 1)
      rw [hnotices]
      omega

/-- When nothing is left to do, all connections have been reconsidered. -/
theorem Sound.served_of_work (h : x.Sound) {arriving : Nat} (hwork : x.work arriving = 0)
    (agent : AgentName) : x.Served agent := by
  intro c hc _
  obtain ⟨i, hi⟩ := List.mem_iff_getElem?.mp hc
  obtain ⟨hlt, -⟩ := List.getElem?_eq_some_iff.mp hi
  have hpos : 0 < (x.backlog arriving + 1) * (x.crowd arriving + 2) :=
    Nat.mul_pos (Nat.succ_pos _) (Nat.succ_pos _)
  unfold work at hwork
  split at hwork
  · omega
  · cases hwork
  · next n hstage => exact h.passed hstage (by omega) hi
  · omega

/-- **As long as the agent is listed**, no connection begins to look for it. -/
theorem Served.act {agent : AgentName} (h : x.Served agent)
    (hlisted : x.directory.peers agent ≠ []) (act : Act) : (x.act act).1.Served agent := by
  have hmoved : ∀ {n : Nat} {moved : Moved},
      (moved.connection.key.agent = agent → moved.connection.looking = false) →
        ∀ c ∈ (x.pool.place n moved).connections, c.key.agent = agent → c.looking = false := by
    intro n moved hown c hc hagent
    obtain ⟨i, hi⟩ := List.mem_iff_getElem?.mp hc
    rcases getElem?_place hi with ⟨-, rfl⟩ | ⟨-, hold⟩
    · exact hown hagent
    · exact h c (List.mem_of_getElem? hold) hagent
  cases act with
  | own env now =>
    show (x.own env now).1.Served agent
    have howns := x.owns env now
    generalize (x.own env now).1 = y at *
    generalize (x.own env now).2 = sent at *
    cases howns with
    | rests | learns | notes | turns => exact h
    | looks _ _ hother =>
      intro d hd hagent
      by_contra hlooking
      obtain ⟨c, hc, hkeeps⟩ := keepsMarks_look _ now x.pool hother d hd (by simpa using hlooking)
      rw [hkeeps.looking] at hlooking
      exact hlooking (h c hc (hkeeps.key ▸ hagent))
    | reconsiders => exact hmoved fun _ => (Connection.looking_reconsider _ _ _ _ _).1
    | @advances n c _ hc =>
      refine hmoved fun hagent => ?_
      rw [(Connection.moves_advance (x.around env) x.pool.config now c x.pool.ledger).key] at hagent
      cases Connection.sought_advance (x.around env) x.pool.config now c x.pool.ledger with
      | looks hnobody _ _ => exact absurd (hagent ▸ hnobody) hlisted
      | tries hunmarked _ => exact hunmarked
      | keeps hsame _ _ => exact hsame.trans (h c (List.mem_of_getElem? hc) hagent)
    | sheds => exact fun c hc => h c (List.mem_filter.mp hc).1
  | announce i =>
    unfold Lookout.act
    dsimp only
    split <;> exact h
  | send command =>
    have hsame : (x.pool.send command).1.connections = x.pool.connections := by
      unfold Pool.send
      split <;> rfl
    exact fun c hc => h c (hsame ▸ hc)
  | _ => exact h

/-- **No connection goes on looking for an agent that is listed**, once the pool has had accesses
enough. -/
theorem Sound.served_after (h : x.Sound) {agent : AgentName} (acts : List Act)
    (hstart : x.Served agent
      ∨ x.Alert ∧ x.work (acts.countP (·.arrives)) ≤ acts.countP (·.isOwn))
    (hlisted : ∀ before rest, acts = before ++ rest →
      (x.after before).1.directory.peers agent ≠ []) : (x.after acts).1.Served agent := by
  induction acts generalizing x with
  | nil =>
    rcases hstart with hserved | ⟨halert, hwork⟩
    · exact hserved
    · exact h.served_of_work (Nat.le_zero.mp hwork) agent
  | cons act rest ih =>
    have hnow := hlisted [] (act :: rest) rfl
    refine ih (h.act act) ?_ fun before more hsplit => hlisted (act :: before) more
      (congrArg (act :: ·) hsplit)
    rcases hstart with hserved | ⟨halert, hwork⟩
    · exact .inl (hserved.act hnow act)
    · rw [List.countP_cons, List.countP_cons] at hwork
      cases hact : act.isOwn with
      | false =>
        obtain ⟨hstill, hless⟩ := h.work_other halert hact (rest.countP (·.arrives))
        rw [hact, if_neg Bool.false_ne_true] at hwork
        exact .inr ⟨hstill, Nat.le_trans hless hwork⟩
      | true =>
        cases act with
        | own env now =>
          rcases h.work_own halert (rest.countP (·.arrives)) env now with
            hserved | hserved | ⟨hstill, hless⟩
          · exact .inl ((hserved agent).act hnow (.own env now))
          · exact .inl (hserved agent)
          · exact .inr ⟨hstill, Nat.le_of_succ_le_succ (Nat.le_trans hless hwork)⟩
        | _ => cases hact

/-! ## §3. No agent is missed. -/

/-- A connection that looks for its agent has a reason, and learns of it when the agent comes. -/
structure Attentive (x : Lookout) : Prop where
  /-- A connection that is looking has neither a link nor an attempt. -/
  rightly : ∀ c ∈ x.pool.connections, c.looking = true → ∃ t, c.phase = .disconnected t
  /-- Except while connections are reconsidered, it has a reason to look. -/
  covered : x.stage.reconsiders = false →
    ∀ c ∈ x.pool.connections, c.looking = true → x.Covers c.key.agent
  /-- A connection that has been reconsidered is not looking. -/
  passed : ∀ n, x.stage = .reconsidering n →
    ∀ i c, i < n → x.pool.connections[i]? = some c → c.looking = false
  /-- When the pool has nothing before it, and wants an agent that is listed, it is not looking for
  it. -/
  rests : ∀ now, x.stage = .resting → x.pool.stopped = false →
    x.pool.subject? now x.directory = none →
      ∀ c ∈ x.pool.connections, c.hasDemand = true → x.directory.peers c.key.agent ≠ [] →
        (∀ change ∈ x.changes, change.agent ≠ c.key.agent) →
          c.looking = false ∧ Pursued x.pool now c
  /-- Whatever else happens, no connection goes on looking for an agent that is listed, as soon as
  the pool has had accesses enough. -/
  finds : ∀ agent acts, (∀ change ∈ x.changes, change.agent ≠ agent) →
    (∀ before rest, acts = before ++ rest → (x.after before).1.directory.peers agent ≠ []) →
      x.work (acts.countP (·.arrives)) ≤ acts.countP (·.isOwn) →
        ∀ c ∈ (x.after acts).1.pool.connections, c.key.agent = agent → c.looking = false

theorem Sound.attentive (h : x.Sound) : x.Attentive where
  rightly := h.rightly
  covered hstage _ hc hlooking := h.covers hstage hc hlooking
  passed _ hstage _ _ hlt hc := h.passed hstage hlt hc
  rests _ hstage hrunning hnone _ hc hdemand hlisted hsettled :=
    h.rests hstage hrunning hnone hc hdemand hlisted hsettled
  finds := by
    intro agent acts hsettled hlisted hwork
    refine h.served_after acts ?_ hlisted
    by_cases hserved : x.Served agent
    · exact .inl hserved
    · -- a connection is looking for the agent, and so the pool has not seen a change
      refine .inr ⟨?_, hwork⟩
      by_contra halert
      refine hserved fun c hc hagent => ?_
      by_contra hlooking
      cases hstage : x.stage.reconsiders with
      | true => exact halert (.inr hstage)
      | false =>
        cases h.covers hstage hc (by simpa using hlooking) with
        | unlisted hnone => exact hlisted [] acts rfl (hagent ▸ hnone)
        | changing hmem hother => exact hsettled _ hmem (hother.trans hagent)
        | pending hstale => exact halert (.inl hstale)

end Lookout

/-- **No agent that is listed is missed**, however the accesses of the pool and those of changes of
the directory follow each other. -/
theorem nobody_who_is_listed_is_missed {config : PoolConfig} {directory : Directory}
    (h : Pool.new config directory = .ok p) (changes : List Directory.Change)
    (acts : List Lookout.Act) :
    (Lookout.after { pool := p, directory, changes } acts).1.Attentive :=
  ((Lookout.sound_of_new h changes).after acts).attentive

section LateAgent

/-- The pool looks for an agent and finds no peer.  Before it has come to rest, the agent is
entered, and when it rests, that is announced. -/
def lateAgent : List Lookout.Act :=
  [.send (.acquire oneAgent), .own oneAddress 0, .own oneAddress 0,
    .change (.register oneAgent.agent (.unix ⟨"/a"⟩)), .own oneAddress 0, .announce 0]

/-- The mark was set before the agent was entered, and is there when that is announced; then the
pool learns of the change, and connects. -/
theorem nobody_who_is_listed_is_missed_when_he_comes_late :
    ∃ (x y : Lookout) (c d : Connection),
      (Lookout.after { pool := { config := {}, subscription := ⟨0⟩ }, directory := {} }
        lateAgent).1 = x
      ∧ x.Attentive ∧ x.pool.connections = [c] ∧ c.looking = true ∧ x.Covers c.key.agent
      ∧ (x.after (List.replicate 6 (.own oneAddress 0))).1 = y
      ∧ y.pool.connections = [d] ∧ d.looking = false ∧ d.phase = .connecting [.unix ⟨"/a"⟩] := by
  have hnew : Pool.new {} {} = .ok { config := {}, subscription := ⟨0⟩ } := rfl
  have hattentive := nobody_who_is_listed_is_missed hnew [] lateAgent
  refine ⟨_, _, _, _, rfl, hattentive, rfl, rfl, hattentive.covered rfl _ List.mem_cons_self rfl,
    rfl, rfl, ?_, rfl⟩
  refine hattentive.finds oneAgent.agent (List.replicate 6 (.own oneAddress 0)) ?_ ?_ ?_ _
    List.mem_cons_self rfl
  · exact fun _ hmem => absurd hmem List.not_mem_nil
  · intro before rest hsplit
    have hlisted : ∀ before ∈ (List.replicate 6 (Lookout.Act.own oneAddress 0)).inits,
        ((Lookout.after { pool := { config := {}, subscription := ⟨0⟩ }, directory := {} }
          lateAgent).1.after before).1.directory.peers oneAgent.agent ≠ [] := by
      decide +kernel
    exact hlisted before ((List.mem_inits _ _).mpr ⟨rest, hsplit.symm⟩)
  · decide +kernel

end LateAgent

end RemoteCall.Pool
