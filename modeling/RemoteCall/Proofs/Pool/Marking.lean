/-
  RemoteCall.Proofs.Pool.Marking
  ──────────────────────────────
  **NO CONNECTION LOOKS IN VAIN.**

  A connection whose agent cannot be found is marked, and is not sought again
  until the directory changes.  However the accesses of the pool and of others
  follow each other, there is a reason for the mark (`Lookout.Covers`):

      unlisted — the directory names no peer of the agent
      changing — its entry has been changed, and that is still to be announced
      pending  — a change has been announced that the pool has not seen

  or the pool is reconsidering its connections, and still comes to this one.

  Main statements:
    • `Connection.sought_advance`     — when a mark is set,
    • `Connection.looking_reconsider` — when it is removed,
    • `keepsMarks_look`               — nothing else touches it,
    • `Lookout.Sound.act`             — one access.
-/
import RemoteCall.Proofs.Pool.Handing
import RemoteCall.Proofs.Pool.Lookout
import RemoteCall.Proofs.Pool.Reaping

namespace RemoteCall

/-! ## §1. The mark of a connection. -/

namespace Connection

variable {env : Surroundings} {config : PoolConfig} {now : Time} {c d : Connection} {l : Ledger}

/-- A connection that is looking for its agent has neither a link nor an attempt. -/
def MarkedRightly (c : Connection) : Prop :=
  c.looking = true → ∃ t, c.phase = .disconnected t

/-- From `c` to `d`, the mark stays, and so does having neither a link nor an attempt. -/
structure KeepsMark (c d : Connection) : Prop where
  key : d.key = c.key
  looking : d.looking = c.looking
  phase : ∀ t, c.phase = .disconnected t → d.phase = .disconnected t

theorem KeepsMark.refl (c : Connection) : c.KeepsMark c :=
  ⟨rfl, rfl, fun _ h => h⟩

theorem KeepsMark.rightly (h : c.KeepsMark d) (hc : c.MarkedRightly) : d.MarkedRightly := by
  intro hlooking
  obtain ⟨t, ht⟩ := hc (h.looking ▸ hlooking)
  exact ⟨t, h.phase t ht⟩

/-- The mark of a link or an attempt stays, whatever becomes of it. -/
theorem keepsMark_of_busy (hkey : d.key = c.key) (hlooking : d.looking = c.looking)
    (hbusy : ∀ t, c.phase ≠ .disconnected t) : c.KeepsMark d :=
  ⟨hkey, hlooking, fun t ht => absurd ht (hbusy t)⟩

theorem keepsMark_lose (config : PoolConfig) (e : Failure) (l : Ledger)
    (hbusy : ∀ t, c.phase ≠ .disconnected t) : c.KeepsMark (c.lose config e l).connection := by
  obtain ⟨waiting, retries, hlost⟩ := lose_eq config e c l
  rw [hlost]
  exact keepsMark_of_busy rfl rfl hbusy

theorem busy_of_connected {live : Live} (h : c.phase = .connected live) (t : Time) :
    c.phase ≠ .disconnected t := by
  rw [h]
  exact nofun

theorem busy_of_connecting {candidates : List PeerName} (h : c.phase = .connecting candidates)
    (t : Time) : c.phase ≠ .disconnected t := by
  rw [h]
  exact nofun

theorem keepsMark_respond (config : PoolConfig) (frame : ResponseFrame) (c : Connection)
    (l : Ledger) : c.KeepsMark (c.respond config frame l).connection := by
  have hresponded := responded config frame c l
  generalize c.respond config frame l = moved at *
  cases hresponded with
  | ignored => exact KeepsMark.refl c
  | dropped hphase _ => exact keepsMark_of_busy rfl rfl (busy_of_connected hphase)
  | delivered hfinds | retried hfinds | unreadable hfinds | refused hfinds | failed hfinds =>
    exact keepsMark_of_busy rfl rfl (busy_of_connected hfinds.phase)
  | @rejected live call e hfinds _ _ _ =>
    obtain ⟨waiting, retries, hlost⟩ :=
      lose_eq config e { c with phase := .connected (live.takeOut frame.sequence) }
        (l.fail call.id e)
    rw [hlost]
    exact keepsMark_of_busy rfl rfl (busy_of_connected hfinds.phase)

theorem keepsMark_cancel {id : CallId} {sent : List Effect}
    (h : c.cancel? env id = some (d, sent)) : c.KeepsMark d := by
  cases letGo h with
  | waiting => exact ⟨rfl, rfl, fun _ h => h⟩
  | inFlight hphase _ _ => exact keepsMark_of_busy rfl rfl (busy_of_connected hphase)

/-- **A connection that reconsiders is no longer looking.** -/
theorem looking_reconsider (env : Surroundings) (config : PoolConfig) (now : Time) (c : Connection)
    (l : Ledger) :
    (c.reconsider env config now l).connection.looking = false
      ∧ (c.reconsider env config now l).connection.key = c.key := by
  have hreconsidered := reconsidered env config now c l
  generalize c.reconsider env config now l = moved at *
  cases hreconsidered with
  | kept => exact ⟨rfl, rfl⟩
  | @withdrawn live _ _ =>
    obtain ⟨waiting, retries, hlost⟩ := lose_eq config
      (.connectionFailed s!"{c.key.agent.text} no longer advertised at {live.peer.text}")
      { c with looking := false } l
    rw [hlost]
    exact ⟨rfl, rfl⟩
  | restarted => exact ⟨rfl, rfl⟩

/-- What an attempt to connect does to the mark. -/
inductive Sought (env : Surroundings) (c d : Connection) : Prop where
  /-- No peer is to be found, and the mark is set. -/
  | looks {t : Time} :
    env.lookup c.key.agent = [] → d.looking = true → d.phase = .disconnected t → Sought env c d
  /-- A peer is to be found, and the mark was not there. -/
  | tries {peers : List PeerName} :
    d.looking = false → d.phase = .connecting peers → Sought env c d
  /-- It is not time, or there is a link or an attempt already. -/
  | keeps :
    d.looking = c.looking → (∀ t, c.phase = .disconnected t → d.phase = .disconnected t) →
      (∀ e, d.phase ≠ .errored e) → Sought env c d

/-- **What is due** sets a mark if no peer is to be found. -/
theorem sought_advance (env : Surroundings) (config : PoolConfig) (now : Time) (c : Connection)
    (l : Ledger) : Sought env c (c.advance env config now l).connection := by
  obtain ⟨idleSince, hnoted⟩ :=
    noteDemand_eq ((c.sought env config now l).1.flush env config (c.expire env now l).ledger).1 now
  rw [advance_eq, hnoted]
  cases hlive? : c.live? with
  | some live =>
    have hphase := phase_of_live? hlive?
    rw [sought_of_connected hphase]
    refine .keeps ?_ (fun t ht => absurd ht (busy_of_connected hphase t)) fun e => ?_
    · unfold flush
      dsimp only
      split <;> rfl
    · unfold flush
      dsimp only
      split <;> exact nofun
  | none =>
    obtain ⟨-, hnone⟩ := moves_sought hlive? env config now l
    rw [flush_of_live?_eq_none hnone]
    dsimp only
    obtain ⟨waiting, phase, hrested, hphase⟩ := rested_eq hlive? env config now l
    have hslept : phase = c.phase.rested config now := by
      rw [← phase_expire hlive? env now l, ← phase_backOff, hrested]
    unfold sought
    rw [hrested]
    dsimp only
    split
    · next hdue =>
      obtain ⟨t, ht, hunmarked⟩ : ∃ t, phase = .disconnected t ∧ c.looking = false := by
        unfold isDue at hdue
        split at hdue
        · next t hdisconnected =>
          simp only [Bool.and_eq_true, Bool.not_eq_true'] at hdue
          exact ⟨t, hdisconnected, hdue.1.2⟩
        · cases hdue
      unfold seek
      split
      · next hnobody => exact .looks hnobody rfl ht
      · exact .tries hunmarked rfl
    · refine .keeps rfl (fun t ht => ?_) fun e he => ?_
      · rw [hslept, ht]
        rfl
      · rw [hslept] at he
        unfold Phase.rested at he
        split at he
        · cases he
        · next hno => exact hno e he

end Connection

/-! ## §2. The marks of a pool. -/

namespace Pool

variable {p q : Pool} {x y : Lookout} {env : Surroundings} {now : Time}

/-- A connection that is looking in `q` was looking in `p`. -/
def KeepsMarks (p q : Pool) : Prop :=
  ∀ d ∈ q.connections, d.looking = true → ∃ c ∈ p.connections, c.KeepsMark d

theorem KeepsMarks.of_eq (h : q.connections = p.connections) : KeepsMarks p q :=
  fun d hd _ => ⟨d, h ▸ hd, Connection.KeepsMark.refl d⟩

theorem keepsMarks_settle {c : Connection} (hc : c ∈ p.connections) {moved : Moved}
    (h : c.KeepsMark moved.connection) : KeepsMarks p (p.settle moved).1 := by
  intro d hd _
  obtain ⟨old, hold, rfl⟩ := List.mem_map.mp hd
  split
  · exact ⟨c, hc, h⟩
  · exact ⟨old, hold, Connection.KeepsMark.refl old⟩

theorem keepsMarks_notice (p : Pool) (first : Notice) : KeepsMarks p (p.notice first).1 := by
  unfold Pool.notice
  split
  · next c hfind =>
    have hc := (mem_of_connection? hfind).1
    split
    · have hattended := attended p c first
      generalize p.attend c first = stepped at *
      generalize c.paysForNotice p.config p.ledger first = paying at *
      cases hattended with
      | attached hphase =>
        exact keepsMarks_settle hc
          (Connection.keepsMark_of_busy rfl rfl (Connection.busy_of_connecting hphase))
      | attemptFailed hphase =>
        exact keepsMarks_settle hc
          (Connection.keepsMark_lose _ _ _ (Connection.busy_of_connecting hphase))
      | responded => exact keepsMarks_settle hc (Connection.keepsMark_respond _ _ _ _)
      | linkFailed hphase =>
        exact keepsMarks_settle hc
          (Connection.keepsMark_lose _ _ _ (Connection.busy_of_connected hphase))
      | dropped => exact .of_eq rfl
    · exact .of_eq rfl
  · exact .of_eq rfl

theorem keepsMarks_modify (p : Pool) (key : ConnectionKey) {f : Connection → Connection}
    (hf : ∀ c : Connection, c.KeepsMark (f c)) : KeepsMarks p (p.modify key f) := by
  intro d hd _
  obtain ⟨c, hc, rfl⟩ := List.mem_map.mp hd
  refine ⟨c, hc, ?_⟩
  split
  · exact hf c
  · exact Connection.KeepsMark.refl c

/-- A new connection is not looking. -/
theorem keepsMarks_withConnection (p : Pool) (now : Time) (key : ConnectionKey)
    {f : Connection → Connection} (hf : ∀ c : Connection, c.KeepsMark (f c)) :
    KeepsMarks p ((p.withConnection now key).modify key f) := by
  intro d hd hlooking
  obtain ⟨c, hc, hkeeps⟩ := keepsMarks_modify (p.withConnection now key) key hf d hd hlooking
  unfold withConnection at hc
  split at hc
  · exact ⟨c, hc, hkeeps⟩
  · rcases List.mem_append.mp hc with hold | hnew
    · exact ⟨c, hold, hkeeps⟩
    · rw [hkeeps.looking, List.mem_singleton.mp hnew] at hlooking
      cases hlooking

theorem keepsMarks_command (env : Surroundings) (now : Time) (p : Pool) (first : Command) :
    KeepsMarks p (p.command env now first).1 := by
  cases first with
  | call key call =>
    unfold command
    dsimp only
    split
    · exact .of_eq rfl
    · exact keepsMarks_withConnection p now key fun c => ⟨rfl, rfl, fun _ h => h⟩
  | abort id =>
    intro d hd _
    replace hd : d ∈ (cancelIn env id p.connections).1 := hd
    rcases cancelIn_cases env id p.connections with
      hnobody | ⟨before, c, after, c', sent, hsplit, hcancel, heq⟩
    · rw [hnobody] at hd
      exact ⟨d, hd, Connection.KeepsMark.refl d⟩
    · rw [heq] at hd
      rw [hsplit]
      rcases List.mem_append.mp hd with hbefore | hrest
      · exact ⟨d, List.mem_append_left _ hbefore, Connection.KeepsMark.refl d⟩
      · rcases List.mem_cons.mp hrest with rfl | hafter
        · exact ⟨c, List.mem_append_right _ List.mem_cons_self,
            Connection.keepsMark_cancel hcancel⟩
        · exact ⟨d, List.mem_append_right _ (List.mem_cons_of_mem _ hafter),
            Connection.KeepsMark.refl d⟩
  | acquire key => exact keepsMarks_withConnection p now key fun c => ⟨rfl, rfl, fun _ h => h⟩
  | release key => exact keepsMarks_modify p key fun c => ⟨rfl, rfl, fun _ h => h⟩

/-- **Nothing else that the pool looks at** sets a mark. -/
theorem keepsMarks_look (env : Surroundings) (now : Time) (p : Pool) {subject : Subject}
    (h : ∀ directory, subject ≠ .directory directory) :
    KeepsMarks p (p.look env now subject).1 := by
  cases subject with
  | stop => exact fun d hd => absurd hd List.not_mem_nil
  | command first => exact keepsMarks_command env now { p with commands := p.commands.tail } first
  | notice first => exact keepsMarks_notice { p with notices := p.notices.tail } first
  | directory other => exact absurd rfl (h other)
  | timer => exact .of_eq rfl

/-- Only looking at the directory changes what the pool has seen of it. -/
theorem subscription_look (env : Surroundings) (now : Time) (p : Pool) {subject : Subject}
    (h : ∀ directory, subject ≠ .directory directory) :
    (p.look env now subject).1.subscription = p.subscription := by
  have hwith : ∀ (p : Pool) key, (p.withConnection now key).subscription = p.subscription := by
    intro p key
    unfold withConnection
    split <;> rfl
  cases subject with
  | stop => rfl
  | command first =>
    cases first with
    | call key call =>
      unfold look command
      dsimp only
      split
      · rfl
      · exact hwith _ key
    | acquire key => exact hwith _ key
    | abort | release => rfl
  | notice first =>
    unfold look Pool.notice
    dsimp only
    split
    · split
      · unfold attend
        split <;> rfl
      · rfl
    · rfl
  | directory other => exact absurd rfl (h other)
  | timer => rfl

/-! ## §3. No connection looks in vain. -/

namespace Lookout

/-- Why a connection may be looking for the agent. -/
inductive Covers (x : Lookout) (agent : AgentName) : Prop where
  /-- It is not listed. -/
  | unlisted : x.directory.peers agent = [] → Covers x agent
  /-- Its entry has been changed, and that has not been announced. -/
  | changing {change : Directory.Change} :
    change ∈ x.changes → change.agent = agent → Covers x agent
  /-- There has been a change that the pool has not seen. -/
  | pending : x.pool.subscription.isStale x.directory = true → Covers x agent

theorem Covers.of_eq {agent : AgentName} (h : x.Covers agent)
    (hdirectory : y.directory = x.directory) (hchanges : y.changes = x.changes)
    (hseen : y.pool.subscription = x.pool.subscription) :
    y.Covers agent := by
  cases h with
  | unlisted hnone => exact .unlisted (hdirectory ▸ hnone)
  | changing hmem hagent => exact .changing (hchanges ▸ hmem) hagent
  | pending hstale =>
    refine .pending ?_
    rw [hdirectory, hseen]
    exact hstale

/-- A connection that is looking has a reason, or is about to be told. -/
structure Sound (x : Lookout) : Prop where
  seen : x.pool.subscription.seen ≤ x.directory.generation
  rightly : ∀ c ∈ x.pool.connections, c.MarkedRightly
  covered : ∀ {i : Nat} {c : Connection}, x.pool.connections[i]? = some c → c.looking = true →
    x.stage.isAhead i ∨ x.Covers c.key.agent
  passed : ∀ {n i : Nat} {c : Connection}, x.stage = .reconsidering n → i < n →
    x.pool.connections[i]? = some c → c.looking = false
  awake : ∀ {i : Nat} {c : Connection}, x.pool.connections[i]? = some c → x.stage.isBehind i →
    ∀ e, c.phase ≠ .errored e
  gone : x.pool.stopped = true → x.pool.connections = []

/-- While nothing is reconsidered, a connection that is looking has a reason. -/
theorem Sound.covers (h : x.Sound) (hstage : x.stage.reconsiders = false) {c : Connection}
    (hc : c ∈ x.pool.connections) (hlooking : c.looking = true) : x.Covers c.key.agent := by
  obtain ⟨i, hi⟩ := List.mem_iff_getElem?.mp hc
  refine (h.covered hi hlooking).resolve_left fun hahead => ?_
  rw [Stage.reconsiders_of_isAhead hahead] at hstage
  cases hstage

/-- What does not concern the connections. -/
theorem Sound.beside (h : x.Sound) (q : Pool) (hconnections : q.connections = x.pool.connections)
    (hseen : q.subscription = x.pool.subscription) (hstopped : q.stopped = x.pool.stopped) :
    Sound { x with pool := q } where
  seen := by
    rw [hseen]
    exact h.seen
  rightly := by
    rw [hconnections]
    exact h.rightly
  covered := by
    intro i c hc hlooking
    dsimp only at hc
    rw [hconnections] at hc
    exact (h.covered hc hlooking).imp_right fun hcovers => hcovers.of_eq rfl rfl hseen
  passed := by
    intro n i c hstage hlt hc
    dsimp only at hc
    rw [hconnections] at hc
    exact h.passed hstage hlt hc
  awake := by
    intro i c hc
    dsimp only at hc
    rw [hconnections] at hc
    exact h.awake hc
  gone := by
    intro hstop
    dsimp only at hstop ⊢
    rw [hconnections]
    exact h.gone (hstopped ▸ hstop)

/-- Seeing the directory sets no mark. -/
theorem Sound.see (h : x.Sound) {stage : Stage} (hahead : ∀ i, stage.isAhead i)
    (hpassed : ∀ n, stage = .reconsidering n → n = 0) (hbehind : ∀ i, ¬ stage.isBehind i) :
    Sound { x with pool := x.pool.see x.directory, stage } where
  seen := Nat.le_refl _
  rightly := h.rightly
  covered := fun {i} _ _ _ => .inl (hahead i)
  passed := by
    intro n i c hstage hlt
    rw [hpassed n hstage] at hlt
    exact absurd hlt (Nat.not_lt_zero i)
  awake := fun {i} _ _ hat => absurd hat (hbehind i)
  gone := h.gone

theorem Sound.look (h : x.Sound) {subject : Subject} (hstage : x.stage = .resting)
    (hsubject : x.pool.subject? now x.directory = some subject)
    (hother : ∀ directory, subject ≠ .directory directory) (env : Surroundings) :
    Sound { x with pool := (x.pool.look env now subject).1, stage := .advancing 0 } := by
  have hkeeps := keepsMarks_look env now x.pool hother
  have hseen := subscription_look env now x.pool hother
  refine ⟨?_, ?_, ?_, nofun, fun _ hat => absurd hat (Nat.not_lt_zero _), ?_⟩
  · rw [hseen]
    exact h.seen
  · intro d hd hlooking
    obtain ⟨c, hc, hsame⟩ := hkeeps d hd hlooking
    exact hsame.rightly (h.rightly c hc) hlooking
  · intro i d hd hlooking
    obtain ⟨c, hc, hsame⟩ := hkeeps d (List.mem_of_getElem? hd) hlooking
    refine .inr ?_
    rw [hsame.key]
    exact (h.covers (hstage ▸ rfl) hc (hsame.looking ▸ hlooking)).of_eq rfl rfl hseen
  · intro hstopped
    -- the pool has not stopped before, so it has stopped now
    by_cases hstop : subject = .stop
    · subst hstop
      rfl
    · have hsame : (x.pool.after (.look env now subject)).1.stopped = x.pool.stopped :=
        stopped_after x.pool fun _ _ heq => hstop (by cases heq; rfl)
      replace hsame : (x.pool.look env now subject).1.stopped = x.pool.stopped := hsame
      dsimp only at hstopped
      rw [hsame] at hstopped
      unfold subject? at hsubject
      rw [if_pos hstopped] at hsubject
      cases hsubject

/-- A connection is reconsidered. -/
theorem Sound.reconsider (h : x.Sound) {n : Nat} {c : Connection}
    (hstage : x.stage = .reconsidering n) (hc : x.pool.connections[n]? = some c)
    (env : Surroundings) (now : Time) :
    Sound
      { x with
        pool := x.pool.place n (c.reconsider env x.pool.config now x.pool.ledger)
        stage := .reconsidering (n + 1) } := by
  obtain ⟨hunmarked, hkey⟩ :=
    Connection.looking_reconsider env x.pool.config now c x.pool.ledger
  generalize c.reconsider env x.pool.config now x.pool.ledger = moved at *
  refine ⟨h.seen, ?_, ?_, ?_, fun _ hat => hat.elim, ?_⟩
  · intro d hd hlooking
    obtain ⟨i, hi⟩ := List.mem_iff_getElem?.mp hd
    rcases getElem?_place hi with ⟨-, rfl⟩ | ⟨-, hold⟩
    · rw [hunmarked] at hlooking
      cases hlooking
    · exact h.rightly d (List.mem_of_getElem? hold) hlooking
  · intro i d hd hlooking
    rcases getElem?_place hd with ⟨-, rfl⟩ | ⟨hne, hold⟩
    · rw [hunmarked] at hlooking
      cases hlooking
    · have hcovered := h.covered hold hlooking
      rw [hstage] at hcovered
      refine hcovered.imp (fun hle => ?_) fun hcovers => hcovers.of_eq rfl rfl rfl
      exact Nat.lt_of_le_of_ne hle (Ne.symm hne)
  · intro k i d hk hlt hd
    cases hk
    rcases getElem?_place hd with ⟨-, rfl⟩ | ⟨hne, hold⟩
    · exact hunmarked
    · exact h.passed hstage (Nat.lt_of_le_of_ne (Nat.le_of_lt_succ hlt) hne) hold
  · intro hstopped
    rw [h.gone hstopped] at hc
    cases hc

/-- A connection does what is due. -/
theorem Sound.advance (h : x.Sound) {n : Nat} {c : Connection}
    (hstage : x.stage = .advancing n) (hc : x.pool.connections[n]? = some c)
    (env : Surroundings) (now : Time) :
    Sound
      { x with
        pool := x.pool.place n (c.advance (x.around env) x.pool.config now x.pool.ledger)
        stage := .advancing (n + 1) } := by
  have hkey := (Connection.moves_advance (x.around env) x.pool.config now c x.pool.ledger).key
  have hsought := Connection.sought_advance (x.around env) x.pool.config now c x.pool.ledger
  generalize c.advance (x.around env) x.pool.config now x.pool.ledger = moved at *
  have hmem := List.mem_of_getElem? hc
  have hidle : x.stage.reconsiders = false := hstage ▸ rfl
  refine ⟨h.seen, ?_, ?_, nofun, ?_, ?_⟩
  · intro d hd hlooking
    obtain ⟨i, hi⟩ := List.mem_iff_getElem?.mp hd
    rcases getElem?_place hi with ⟨-, rfl⟩ | ⟨-, hold⟩
    · cases hsought with
      | looks _ _ hphase => exact ⟨_, hphase⟩
      | tries hunmarked _ =>
        rw [hunmarked] at hlooking
        cases hlooking
      | keeps hsame hphase _ =>
        obtain ⟨t, ht⟩ := h.rightly c hmem (hsame ▸ hlooking)
        exact ⟨t, hphase t ht⟩
    · exact h.rightly d (List.mem_of_getElem? hold) hlooking
  · intro i d hd hlooking
    refine .inr ?_
    rcases getElem?_place hd with ⟨-, rfl⟩ | ⟨-, hold⟩
    · rw [hkey]
      cases hsought with
      | looks hnobody _ _ => exact .unlisted hnobody
      | tries hunmarked _ =>
        rw [hunmarked] at hlooking
        cases hlooking
      | keeps hsame _ _ => exact (h.covers hidle hmem (hsame ▸ hlooking)).of_eq rfl rfl rfl
    · exact (h.covers hidle (List.mem_of_getElem? hold) hlooking).of_eq rfl rfl rfl
  · intro i d hd hat e
    rcases getElem?_place hd with ⟨-, rfl⟩ | ⟨hne, hold⟩
    · cases hsought with
      | looks _ _ hphase =>
        rw [hphase]
        exact nofun
      | tries _ hphase =>
        rw [hphase]
        exact nofun
      | keeps _ _ hawake => exact hawake e
    · refine h.awake hold ?_ e
      rw [hstage]
      exact Nat.lt_of_le_of_ne (Nat.le_of_lt_succ hat) hne
  · intro hstopped
    rw [h.gone hstopped] at hc
    cases hc

/-- **One access of the pool** leaves no connection looking in vain. -/
theorem Sound.own (h : x.Sound) (env : Surroundings) (now : Time) : (x.own env now).1.Sound := by
  have howns := x.owns env now
  generalize (x.own env now).1 = y at *
  generalize (x.own env now).2 = sent at *
  cases howns with
  | rests => exact h
  | learns => exact h.see (fun _ => trivial) (fun _ => nofun) fun _ => id
  | looks hstage hsubject hother => exact h.look hstage hsubject hother _
  | notes =>
    exact h.see (fun i => Nat.zero_le i) (fun _ hstage => by cases hstage; rfl) fun _ => id
  | reconsiders hstage hc => exact h.reconsider hstage hc _ now
  | @turns n hstage hnone =>
    refine ⟨h.seen, h.rightly, ?_, nofun,
      fun _ hat => absurd hat (Nat.not_lt_zero _), h.gone⟩
    intro i c hc hlooking
    -- all connections have been reconsidered
    have hcovered := h.covered hc hlooking
    rw [hstage] at hcovered
    refine hcovered.imp (fun hle => ?_) fun hcovers => hcovers.of_eq rfl rfl rfl
    rw [List.getElem?_eq_none (Nat.le_trans (List.getElem?_eq_none_iff.mp hnone) hle)] at hc
    cases hc
  | advances hstage hc => exact h.advance hstage hc env now
  | @sheds n hstage hnone =>
    have hold : ∀ {i : Nat} {c : Connection}, (x.pool.shed now).1.connections[i]? = some c →
        c ∈ x.pool.connections :=
      fun hc => (List.mem_filter.mp (List.mem_of_getElem? hc)).1
    refine ⟨h.seen, fun c hc => h.rightly c (List.mem_filter.mp hc).1, ?_,
      nofun, ?_, ?_⟩
    · intro i c hc hlooking
      exact .inr ((h.covers (hstage ▸ rfl) (hold hc) hlooking).of_eq rfl rfl rfl)
    · intro i c hc _
      obtain ⟨k, hk⟩ := List.mem_iff_getElem?.mp (hold hc)
      obtain ⟨hlt, -⟩ := List.getElem?_eq_some_iff.mp hk
      refine h.awake hk ?_
      rw [hstage]
      exact Nat.lt_of_lt_of_le hlt (List.getElem?_eq_none_iff.mp hnone)
    · intro hstopped
      show x.pool.connections.filter _ = []
      rw [h.gone hstopped]
      rfl

/-- An entry is changed. -/
theorem Covers.change {agent : AgentName} (h : x.Covers agent) (change : Directory.Change) :
    (x.act (.change change)).1.Covers agent := by
  cases h with
  | unlisted hnone =>
    by_cases hagent : change.agent = agent
    · cases howed : (x.directory.alter change).2 with
      | true =>
        refine .changing (show change ∈ if (x.directory.alter change).2 then x.changes ++ [change]
          else x.changes from ?_) hagent
        rw [howed, if_pos rfl]
        exact List.mem_append_right _ (List.mem_singleton_self change)
      | false =>
        refine .unlisted ?_
        show (x.directory.alter change).1.peers agent = []
        rw [Directory.alter_of_silent howed]
        exact hnone
    · exact .unlisted ((Directory.peers_alter_of_ne hagent).trans hnone)
  | @changing other hmem hagent =>
    refine .changing (show other ∈ if (x.directory.alter change).2 then x.changes ++ [change]
      else x.changes from ?_) hagent
    split
    · exact List.mem_append_left _ hmem
    · exact hmem
  | pending hstale =>
    refine .pending ?_
    show (x.pool.subscription.seen != (x.directory.alter change).1.generation) = true
    rw [Directory.generation_alter]
    exact hstale

/-- **A change of the directory** gives a reason to all connections that are looking. -/
theorem Sound.change (h : x.Sound) (change : Directory.Change) :
    (x.act (.change change)).1.Sound where
  seen := by
    show _ ≤ (x.directory.alter change).1.generation
    rw [Directory.generation_alter]
    exact h.seen
  rightly := h.rightly
  covered hc hlooking := (h.covered hc hlooking).imp_right fun hcovers => hcovers.change change
  passed := h.passed
  awake := h.awake
  gone := h.gone

theorem Sound.isStale_announce (h : x.Sound) :
    x.pool.subscription.isStale x.directory.announce = true :=
  bne_iff_ne.mpr (Nat.ne_of_lt (Nat.lt_succ_of_le h.seen))

theorem Sound.announce (h : x.Sound) (i : Nat) : (x.act (.announce i)).1.Sound := by
  unfold act
  dsimp only
  split
  · exact ⟨Nat.le_succ_of_le h.seen, h.rightly,
      fun _ _ => .inr (.pending h.isStale_announce), h.passed, h.awake, h.gone⟩
  · exact h

/-- **Whatever happens, no connection looks in vain.** -/
theorem Sound.act (h : x.Sound) (act : Act) : (x.act act).1.Sound := by
  cases act with
  | own env now => exact h.own env now
  | change change => exact h.change change
  | announce i => exact h.announce i
  | issue shape => exact h.beside _ rfl rfl rfl
  | settle id e => exact h.beside _ rfl rfl rfl
  | send command =>
    refine h.beside _ ?_ ?_ ?_ <;>
    · unfold Pool.send
      split <;> rfl
  | report notice => exact h.beside _ rfl rfl rfl
  | stop => exact h.beside _ rfl rfl rfl

theorem Sound.after (h : x.Sound) (acts : List Act) : (x.after acts).1.Sound := by
  induction acts generalizing x with
  | nil => exact h
  | cons act rest ih => exact ih (h.act act)

/-- A new pool. -/
theorem sound_of_new {config : PoolConfig} {directory : Directory}
    (h : Pool.new config directory = .ok p) (changes : List Directory.Change) :
    Sound { pool := p, directory, changes } := by
  rw [eq_of_new h]
  exact ⟨Nat.le_refl _, fun _ hc => absurd hc List.not_mem_nil, nofun, nofun, nofun, fun _ => rfl⟩

end Lookout

end Pool

end RemoteCall
