/-
  RemoteCall.Proofs.Pool.Backoff
  ──────────────────────────────
  **CONNECTING AGAIN.**

  When an attempt or a link has failed, the connection does not try again at
  once, whatever else is brought before the pool:

      fails at t        errored
      advance at t'     disconnected, until t' + interval
      …                 calls, handles, reports, changes of the directory
      advance at t''    t' + interval ≤ t'': the next attempt

  The clock does not go back, so t ≤ t' and the interval is not cut short.  An
  attempt that is dropped because the directory has changed is no failure, and
  another may follow at once.

  Main statements:
    • `Fails.errored`                  — failures,
    • `Connection.starts_advance`      — starting an attempt, or not,
    • `Run.started`                    — what an attempt needs, and its number,
    • `backing_off_is_never_cut_short` — the whole.
-/
import RemoteCall.Proofs.Pool.Pending
import RemoteCall.Proofs.Pool.Reaping
import RemoteCall.Proofs.Pool.Superseded
import RemoteCall.Proofs.Pool.Telling

namespace RemoteCall

namespace Connection

variable {env : Surroundings} {config : PoolConfig} {now : Time} {c c' : Connection} {l : Ledger}
  {generation : Nat} {candidates : List PeerName}

/-! ## §1. Starting an attempt. -/

/-- An attempt is started. -/
structure Starts (env : Surroundings) (generation : Nat) (candidates : List PeerName)
    (c c' : Connection) : Prop where
  /-- None was pending. -/
  idle : c.attempt? = none
  /-- The directory lists a peer. -/
  found : candidates = env.lookup c.key.agent ∧ candidates ≠ []
  /-- There is demand. -/
  demand : c'.hasDemand = true
  /-- It is counted. -/
  attempts : c'.attempts = c.attempts + 1
  /-- Its number is the next one. -/
  generation : generation = c.generation + 1 ∧ c'.generation = generation
  /-- It is pending. -/
  trying : c'.phase = .connecting candidates

theorem phase_lose (config : PoolConfig) (e : Failure) (c : Connection) (l : Ledger) :
    (c.lose config e l).connection.phase = .errored e
      ∧ (c.lose config e l).connection.attempts = c.attempts := by
  obtain ⟨waiting, retries, hlost⟩ := lose_eq config e c l
  rw [hlost]
  exact ⟨rfl, rfl⟩

theorem attempts_flush (env : Surroundings) (config : PoolConfig) (c : Connection) (l : Ledger) :
    (c.flush env config l).1.attempts = c.attempts := by
  unfold flush
  split
  · split <;> rfl
  · rfl

/-- Without a link, the demand comes from calls that wait and from handles. -/
theorem hasDemand_of_live?_eq_none (h : c.live? = none) :
    c.hasDemand = (decide (0 < c.handles) || !c.waiting.isEmpty) := by
  have hflight : c.inFlight = [] := by
    have hcalls := calls_of_live?_eq_none h
    unfold calls at hcalls
    exact List.append_left_eq_self.mp hcalls
  unfold hasDemand
  rw [hflight]
  simp

/-- **Without a link**, an attempt is started when it is due and the directory lists a peer. -/
theorem starts_sought (h : c.live? = none) (env : Surroundings) (config : PoolConfig) (now : Time)
    (l : Ledger) :
    (∃ candidates, c.Starts env (c.generation + 1) candidates (c.sought env config now l).1
        ∧ (c.sought env config now l).2 = [.seek c.key (c.generation + 1) candidates])
      ∨ (c.sought env config now l).1.attempts = c.attempts
        ∧ (c.sought env config now l).2 = [] := by
  obtain ⟨waiting, phase, hrested, hphase⟩ := rested_eq h env config now l
  unfold sought
  rw [hrested]
  dsimp only
  by_cases hdue : ({ c with waiting, phase } : Connection).isDue now = true
  · rw [if_pos hdue]
    unfold seek
    cases hpeers : env.lookup c.key.agent with
    | nil => exact .inr ⟨rfl, rfl⟩
    | cons peer peers =>
      obtain ⟨⟨t, rfl⟩, hdemand⟩ : (∃ t, phase = .disconnected t)
          ∧ ({ c with waiting, phase } : Connection).hasDemand = true := by
        unfold isDue at hdue
        split at hdue
        · next t ht =>
          simp only [Bool.and_eq_true] at hdue
          exact ⟨⟨t, ht⟩, hdue.2⟩
        · cases hdue
      have hidle : c.attempt? = none := by
        -- a connection that is connecting is not due
        refine attempt?_of_ne fun candidates hconnecting => ?_
        have hslept : Phase.disconnected t = c.phase.rested config now := by
          rw [← phase_expire h env now l, ← phase_backOff, hrested]
        rw [hconnecting] at hslept
        cases hslept
      rw [hasDemand_of_live?_eq_none rfl] at hdemand
      refine .inl ⟨peer :: peers, ?_, rfl⟩
      exact
        { idle := hidle
          found := ⟨hpeers.symm, List.cons_ne_nil _ _⟩
          demand := (hasDemand_of_live?_eq_none rfl).trans hdemand
          attempts := rfl
          generation := ⟨rfl, rfl⟩
          trying := rfl }
  · rw [if_neg hdue]
    exact .inr ⟨rfl, rfl⟩

/-- Only what is done between expiring and sending may start an attempt. -/
theorem seek_mem_advance_iff {key : ConnectionKey} :
    .seek key generation candidates ∈ (c.advance env config now l).effects
      ↔ .seek key generation candidates ∈ (c.sought env config now l).2 := by
  rw [advance_eq, List.mem_append, List.mem_append]
  constructor
  · rintro ((hexpire | hsought) | hflush)
    · cases attempt?_expire hexpire
    · exact hsought
    · cases attempt?_flush hflush
  · exact fun hsought => .inl (.inr hsought)

/-- **Whatever is due is done**: an attempt is started, and counted, or there is none. -/
theorem starts_advance (env : Surroundings) (config : PoolConfig) (now : Time) (c : Connection)
    (l : Ledger) :
    (∃ candidates,
        c.Starts env (c.generation + 1) candidates (c.advance env config now l).connection
          ∧ ∀ key n peers, .seek key n peers ∈ (c.advance env config now l).effects
            ↔ key = c.key ∧ n = c.generation + 1 ∧ peers = candidates)
      ∨ (c.advance env config now l).connection.attempts = c.attempts
        ∧ ∀ key n peers, Effect.seek key n peers ∉ (c.advance env config now l).effects := by
  obtain ⟨idleSince, hnoted⟩ :=
    noteDemand_eq ((c.sought env config now l).1.flush env config (c.expire env now l).ledger).1 now
  have hattempts : (c.advance env config now l).connection.attempts
      = (c.sought env config now l).1.attempts := by
    rw [advance_eq, hnoted]
    exact attempts_flush env config _ _
  cases hlive? : c.live? with
  | some live =>
    have hsought := sought_of_connected (phase_of_live? hlive?) env config now l
    refine .inr ⟨?_, fun key n peers hmem => ?_⟩
    · rw [hattempts, hsought]
    · rw [seek_mem_advance_iff, hsought] at hmem
      exact List.not_mem_nil hmem
  | none =>
    obtain ⟨-, hnone⟩ := moves_sought hlive? env config now l
    rcases starts_sought hlive? env config now l with ⟨candidates, hstarts, hseek⟩ | ⟨hsame, hseek⟩
    · refine .inl ⟨candidates, ?_, fun key n peers => ?_⟩
      · rw [advance_eq, hnoted, flush_of_live?_eq_none hnone]
        exact ⟨hstarts.idle, hstarts.found, hstarts.demand, hstarts.attempts, hstarts.generation,
          hstarts.trying⟩
      · rw [seek_mem_advance_iff, hseek, List.mem_singleton, Effect.seek.injEq]
    · refine .inr ⟨hattempts.trans hsame, fun key n peers hmem => ?_⟩
      rw [seek_mem_advance_iff, hseek] at hmem
      exact List.not_mem_nil hmem

/-- A connection in demand is not removed. -/
theorem isSpent_of_hasDemand (h : (c.advance env config now l).connection.hasDemand = true) :
    (c.advance env config now l).connection.isSpent config now = false := by
  by_contra hspent
  obtain ⟨since, hsince, -⟩ := exists_of_isSpent (Bool.not_eq_false _ ▸ hspent)
  obtain ⟨hidle, -, -⟩ := demandless_of_idleSince hsince
  rw [h] at hidle
  cases hidle

open Pool in
/-- **Nothing else is counted as an attempt.** -/
theorem Steps.attempts {p : Pool} {event : Event} (h : c.Steps p event c')
    (hnone : ∀ n peers, Effect.seek c.key n peers ∉ (p.after event).2) :
    c'.attempts = c.attempts := by
  cases h with
  | stays | kept _ | asked _ _ | attached _ _ => rfl
  | letGo _ hcancel => cases Connection.letGo hcancel <;> rfl
  | @responded _ _ frame _ _ =>
    have hresponded := Connection.responded p.config frame c p.ledger
    generalize c.respond p.config frame p.ledger = moved at *
    cases hresponded with
    | ignored _ | dropped _ _ | delivered _ _ _ | retried _ _ _ _ | unreadable _ _ _ _
      | refused _ _ _ | failed _ _ _ _ => rfl
    | rejected _ _ _ _ => exact (phase_lose _ _ _ _).2
  | attemptFailed _ _ _ | linkFailed _ _ _ => exact (phase_lose _ _ _ _).2
  | @reconsidered env now _ l _ _ =>
    have hreconsidered := Connection.reconsidered env p.config now c l
    generalize c.reconsider env p.config now l = moved at *
    cases hreconsidered with
    | kept _ | restarted _ => rfl
    | withdrawn _ _ => exact (phase_lose _ _ _ _).2
  | @advanced env now l hevent hturn =>
    subst hevent
    have hsub : (c.advance env p.config now l).effects.Sublist (p.advance env now).2 := by
      obtain ⟨before, after, hsplit, rfl⟩ := hturn
      exact sublist_of_advances ⟨before, after, hsplit, rfl⟩
    rcases starts_advance env p.config now c l with ⟨candidates, -, hseek⟩ | ⟨hsame, -⟩
    · -- an attempt that is started is seen outside
      have hmem := (hseek c.key (c.generation + 1) candidates).mpr ⟨rfl, rfl, rfl⟩
      exact absurd (hsub.subset hmem) (hnone _ _)
    · exact hsame

open Pool in
/-- **A link that is lost leaves a failure.** -/
theorem Steps.errored {p : Pool} {event : Event} {live : Live} (h : c.Steps p event c')
    (hphase : c.phase = .connected live) (hlost : c'.live? = none) :
    ∃ e, c'.phase = .errored e := by
  have hstill : ∀ {d : Connection} {live' : Live}, d.phase = .connected live' → d.live? ≠ none := by
    intro d live' hphase' hnone
    rw [live?_of_phase hphase'] at hnone
    cases hnone
  cases h with
  | stays | kept _ | asked _ _ => exact absurd hlost (hstill hphase)
  | letGo _ hcancel =>
    cases Connection.letGo hcancel with
    | waiting => exact absurd hlost (hstill hphase)
    | inFlight _ _ _ => exact absurd hlost (hstill rfl)
  | attached _ _ => exact absurd hlost (hstill rfl)
  | @responded _ _ frame _ _ =>
    have hresponded := Connection.responded p.config frame c p.ledger
    generalize c.respond p.config frame p.ledger = moved at *
    cases hresponded with
    | ignored _ => exact absurd hlost (hstill hphase)
    | dropped _ _ | delivered _ _ _ | retried _ _ _ _ | unreadable _ _ _ _ | refused _ _ _
      | failed _ _ _ _ => exact absurd hlost (hstill rfl)
    | rejected _ _ _ _ => exact ⟨_, (phase_lose _ _ _ _).1⟩
  | attemptFailed _ _ _ | linkFailed _ _ _ => exact ⟨_, (phase_lose _ _ _ _).1⟩
  | @reconsidered env now _ l _ _ =>
    have hreconsidered := Connection.reconsidered env p.config now c l
    generalize c.reconsider env p.config now l = moved at *
    cases hreconsidered with
    | kept _ => exact absurd hlost (hstill hphase)
    | restarted hconnecting =>
      rw [hphase] at hconnecting
      cases hconnecting
    | withdrawn _ _ => exact ⟨_, (phase_lose _ _ _ _).1⟩
  | @advanced env now l _ _ =>
    exact absurd hlost (hstill (phase_advance_of_connected hphase env p.config now l))

end Connection

open Connection

namespace Pool

variable {config : PoolConfig} {history earlier between later rest : List Moment} {p : Pool}
  {m m' : Moment} {key : ConnectionKey} {c c' : Connection} {generation : Nat}
  {candidates : List PeerName} {t t' : Time}

/-! ## §2. The clock. -/

/-- When the pool looks at something, or does what is due. -/
def Moment.now? (m : Moment) : Option Time :=
  match m.event with
  | .look _ now _ | .advance _ now => some now
  | _ => none

theorem now?_of_advance {env : Surroundings} {now : Time} (h : m.event = .advance env now) :
    m.now? = some now := by
  unfold Moment.now?
  rw [h]

/-- The clock does not go back. -/
def InTime (history : List Moment) : Prop :=
  (history.filterMap (·.now?)).Pairwise (· ≤ ·)

theorem InTime.le (h : InTime (earlier ++ m :: later)) (hm' : m' ∈ later) (hnow : m.now? = some t)
    (hnow' : m'.now? = some t') : t ≤ t' := by
  unfold InTime at h
  rw [List.filterMap_append, List.filterMap_cons_some hnow, List.pairwise_append,
    List.pairwise_cons] at h
  exact h.2.1.1 t' (List.mem_filterMap.mpr ⟨m', hm', hnow'⟩)

/-! ## §3. Failures. -/

/-- The attempt or the link of the connection for a key fails at this time. -/
inductive Moment.Fails (key : ConnectionKey) (t : Time) (m : Moment) : Prop where
  /-- The pool hears that the attempt has reached no peer. -/
  | attempt {env : Surroundings} {e : Failure} {c : Connection} {candidates : List PeerName} :
    m.event = .look env t (.notice (.connectFailed key c.generation e)) →
      m.before.connection? key = some c → c.phase = .connecting candidates → Fails key t m
  /-- There was a link, and there is none, for whatever reason. -/
  | link {c c' : Connection} {live : Live} :
    m.now? = some t → m.before.connection? key = some c → c.phase = .connected live →
      m.after.connection? key = some c' → c'.live? = none → Fails key t m

theorem Moment.Fails.now? (h : m.Fails key t) : m.now? = some t := by
  cases h with
  | attempt hevent _ _ =>
    unfold Moment.now?
    rw [hevent]
  | link hnow _ _ _ _ => exact hnow

/-- **What has failed is errored.** -/
theorem Moment.Fails.errored (h : m.Fails key t) (run : Run config earlier m.before)
    (hc' : m.after.connection? key = some c') : ∃ e, c'.phase = .errored e := by
  cases h with
  | @attempt env e c candidates hevent hc hphase =>
    obtain ⟨-, rfl⟩ := mem_of_connection? hc
    have hattend : ({ m.before with notices := m.before.notices.tail } : Pool).attend c
        (.connectFailed c.key c.generation e)
        = ({ m.before with notices := m.before.notices.tail } : Pool).settle
          (c.lose m.before.config e m.before.ledger) := by
      unfold attend
      rw [hphase]
    have hnotice : (m.before.after m.event).1
        = (({ m.before with notices := m.before.notices.tail } : Pool).settle
          (c.lose m.before.config e m.before.ledger)).1 := by
      rw [hevent, ← hattend]
      show (({ m.before with notices := m.before.notices.tail } : Pool).notice _).1 = _
      unfold Pool.notice
      dsimp only [Notice.key, Notice.generation]
      rw [show ({ m.before with notices := m.before.notices.tail } : Pool).connection? c.key
        = some c from hc]
      exact congrArg Prod.fst (if_pos rfl)
    obtain ⟨hown, -⟩ := connection?_settle
      (p := { m.before with notices := m.before.notices.tail }) hc
      (c.lose m.before.config e m.before.ledger) (moves_lose _ _ _ _).key
    unfold Moment.after at hc'
    rw [hnotice, hown] at hc'
    rw [← Option.some.inj hc']
    exact ⟨e, (phase_lose _ _ _ _).1⟩
  | link _ hc hphase hafter hlost =>
    rw [hafter] at hc'
    cases hc'
    exact (run.accounts.tidy.steps hc hafter).errored hphase hlost

/-! ## §4. Attempts. -/

/-- An attempt for a key is started. -/
def Moment.Seeks (key : ConnectionKey) (m : Moment) : Prop :=
  ∃ generation candidates, .seek key generation candidates ∈ m.effects

/-- The first attempt of several. -/
theorem exists_first_seek {moments : List Moment} (h : ∃ m ∈ moments, m.Seeks key) :
    ∃ before first after, moments = before ++ first :: after ∧ first.Seeks key
      ∧ ∀ generation candidates, Effect.seek key generation candidates ∉ effectsOf before := by
  induction moments with
  | nil =>
    obtain ⟨m, hm, -⟩ := h
    exact absurd hm List.not_mem_nil
  | cons m rest ih =>
    by_cases hm : m.Seeks key
    · exact ⟨[], m, rest, rfl, hm, fun _ _ => List.not_mem_nil⟩
    · obtain ⟨m', hm', hseeks⟩ := h
      have hrest : m' ∈ rest := by
        rcases List.mem_cons.mp hm' with rfl | hrest
        · exact absurd hseeks hm
        · exact hrest
      obtain ⟨before, first, after, rfl, hfirst, hnone⟩ := ih ⟨m', hrest, hseeks⟩
      refine ⟨m :: before, first, after, rfl, hfirst, fun generation candidates hmem => ?_⟩
      rw [show m :: before = [m] ++ before from rfl, effectsOf_append] at hmem
      rcases List.mem_append.mp hmem with hown | hbefore
      · refine hm ⟨generation, candidates, ?_⟩
        simpa [effectsOf] using hown
      · exact hnone generation candidates hbefore

/-- **An attempt is started for a connection that is there**, stays there, and needs it. -/
theorem Run.started (run : Run config earlier m.before) (hadmits : m.before.Admits earlier m.event)
    (hseek : .seek key generation candidates ∈ m.effects) :
    ∃ env now c c', m.event = .advance env now ∧ m.before.connection? key = some c
      ∧ m.after.connection? key = some c' ∧ c.Starts env generation candidates c' := by
  obtain ⟨env, now, hevent, c, hc, l, hturn, heffect⟩ := eq_advance_of_seek hseek
  have hkeys := run.accounts.tidy.keys
  have hlater := (run.next m.event hadmits).accounts.tidy.keys
  rcases starts_advance env m.before.config now c l with ⟨peers, hstarts, hmem⟩ | ⟨-, hnone⟩
  · obtain ⟨rfl, rfl, rfl⟩ := (hmem key generation candidates).mp heffect
    refine ⟨env, now, c, _, hevent, connection?_of_mem hkeys hc, ?_, hstarts⟩
    -- a connection in demand is kept
    have hkey := (moves_advance env m.before.config now c l).key
    rw [← hkey]
    refine connection?_of_mem hlater ?_
    rw [hevent]
    obtain ⟨before, after, hsplit, rfl⟩ := hturn
    obtain ⟨hmoved, -⟩ := moveAll_between (Connection.advance env m.before.config now) before after
      c m.before.ledger
    rw [← hsplit] at hmoved
    refine List.mem_filter.mpr ⟨hmoved, ?_⟩
    rw [isSpent_of_hasDemand hstarts.demand]
    rfl
  · exact absurd heffect (hnone key generation candidates)

/-- **The interval is never cut short**, for as long as the connection is there. -/
theorem Run.waits (run : Run config history p) (htime : InTime history)
    (hsplit : history = earlier ++ m :: (between ++ m' :: rest)) (hfails : m.Fails key t)
    (hkept : ∀ m ∈ between ++ [m'], (m.before.connection? key).isSome = true)
    (hseek : .seek key generation candidates ∈ m'.effects) :
    ∃ env now, m'.event = .advance env now ∧ t + config.reconnectInterval ≤ now := by
  obtain ⟨env, now, hevent, -⟩ := eq_advance_of_seek hseek
  refine ⟨env, now, hevent, ?_⟩
  have hstart : ∀ c, m.after.connection? key = some c → ∃ e, c.phase = .errored e :=
    fun c hc => hfails.errored (run.at_split hsplit).1 hc
  -- among the attempts since the failure, the first comes at the end of the interval
  have hsought : ∃ m ∈ between ++ [m'], m.Seeks key :=
    ⟨m', List.mem_append_right between (List.mem_singleton_self m'), generation, candidates, hseek⟩
  obtain ⟨before, first, after, hfirst, ⟨n, peers, hn⟩, hnone⟩ := exists_first_seek hsought
  have hwithin : ∀ more {m : Moment}, m ∈ before ++ [first] → m ∈ before ++ first :: more := by
    intro more m hm
    rcases List.mem_append.mp hm with hbefore | hlast
    · exact List.mem_append_left _ hbefore
    · rw [List.mem_singleton.mp hlast]
      exact List.mem_append_right _ List.mem_cons_self
  have hlist : between ++ m' :: rest = before ++ first :: (after ++ rest) := by
    rw [← List.cons_append, ← List.append_assoc, ← hfirst, List.append_assoc]
    rfl
  rw [hlist] at hsplit
  obtain ⟨env₁, now₁, hevent₁, m₀, hm₀, env₀, now₀, hevent₀, hle⟩ :=
    run.sought_of_faulted hsplit hstart (fun m hm => hkept m (hfirst ▸ hwithin after hm)) hnone hn
  rw [hsplit] at htime
  have hfrom : t ≤ now₀ :=
    htime.le (hwithin (after ++ rest) hm₀) hfails.now? (now?_of_advance hevent₀)
  have huntil : now₁ ≤ now := by
    have hmem : m' ∈ before ++ first :: after :=
      hfirst ▸ List.mem_append_right between (List.mem_singleton_self m')
    rcases List.mem_append.mp hmem with hbefore | hlast
    · -- before the first attempt stands no other
      exact absurd (List.mem_flatMap.mpr ⟨m', hbefore, hseek⟩) (hnone generation candidates)
    · rcases List.mem_cons.mp hlast with rfl | hafter
      · rw [hevent] at hevent₁
        cases hevent₁
        exact Nat.le_refl _
      · rw [← List.cons_append, ← List.append_assoc] at htime
        exact htime.le (List.mem_append_left _ hafter) (now?_of_advance hevent₁)
          (now?_of_advance hevent)
  calc t + config.reconnectInterval
      ≤ now₀ + config.reconnectInterval := Nat.add_le_add_right hfrom _
    _ ≤ now₁ := hle
    _ ≤ now := huntil

/-- How the pool connects for a key. -/
structure BacksOff (config : PoolConfig) (key : ConnectionKey) (history : List Moment) (p : Pool) :
    Prop where
  /-- After a failure, no attempt is started before the interval is over, for as long as the
  connection is there. -/
  waits : ∀ earlier m between m' rest t generation candidates,
    history = earlier ++ m :: (between ++ m' :: rest) → m.Fails key t →
      (∀ m ∈ between ++ [m'], (m.before.connection? key).isSome = true) →
        .seek key generation candidates ∈ m'.effects →
          ∃ env now, m'.event = .advance env now ∧ t + config.reconnectInterval ≤ now
  /-- At most one attempt is pending, and it is the one that the connection is making. -/
  single : (effectsOf history).foldlM (Effect.pends key) none = some (p.attempt? key)
  /-- An attempt is started when something is due, there is demand, and the directory lists a peer;
  it is counted, and its number is greater than that of the connection so far. -/
  starts : ∀ earlier m later generation candidates, history = earlier ++ m :: later →
    .seek key generation candidates ∈ m.effects →
      ∃ env now c c', m.event = .advance env now ∧ m.before.connection? key = some c
        ∧ m.after.connection? key = some c' ∧ c.Starts env generation candidates c'
  /-- The numbers of the attempts since the connection was added are smaller. -/
  fresh : ∀ earlier m between m' rest n peers generation candidates,
    history = earlier ++ m :: (between ++ m' :: rest) → .seek key n peers ∈ m.effects →
      (∀ m ∈ between ++ [m'], (m.before.connection? key).isSome = true) →
        .seek key generation candidates ∈ m'.effects → n < generation
  /-- Nothing else is counted. -/
  counted : ∀ earlier m later c c', history = earlier ++ m :: later →
    m.before.connection? key = some c → m.after.connection? key = some c' →
      (∀ generation candidates, Effect.seek key generation candidates ∉ m.effects) →
        c'.attempts = c.attempts

/-- **Backing off is never cut short.**  In every run in which the clock does not go back, whatever
calls, handles, reports and changes of the directory are brought before the pool. -/
theorem backing_off_is_never_cut_short (run : Run config history p) (htime : InTime history)
    (key : ConnectionKey) : BacksOff config key history p where
  waits := by
    intro earlier m between m' rest t generation candidates hsplit hfails hkept hseek
    exact run.waits htime hsplit hfails hkept hseek
  single := run.tracked key
  starts := by
    intro earlier m later generation candidates hsplit hseek
    obtain ⟨hrun, hadmits⟩ := run.at_split hsplit
    exact hrun.started hadmits hseek
  fresh := by
    intro earlier m between m' rest n peers generation candidates hsplit hfirst hkept hseek
    have hsplit' : history = (earlier ++ m :: between) ++ m' :: rest := by
      rw [hsplit, List.append_assoc, List.cons_append]
    obtain ⟨hrun, hadmits⟩ := run.at_split hsplit'
    obtain ⟨env, now, c, c', -, hc, -, hstarts⟩ := hrun.started hadmits hseek
    have hattempt := hrun.attempt rfl hfirst (fun m hm => hkept m (List.mem_append_left _ hm)) hc
    have hle := hattempt.le
    have hnext := hstarts.generation.1
    omega
  counted := by
    intro earlier m later c c' hsplit hc hc' hnone
    obtain ⟨hrun, -⟩ := run.at_split hsplit
    obtain ⟨-, rfl⟩ := mem_of_connection? hc
    exact (hrun.accounts.tidy.steps hc hc').attempts hnone

section OneFailure

/-- At time 5 the pool hears that the first attempt has reached no peer.  A change of the directory
at time 50 changes nothing, and the second attempt is started at time 105. -/
theorem backing_off_is_never_cut_short_when_the_directory_changes :
    ∃ (earlier between : List Moment) (m m' : Moment) (p : Pool),
      Run {} (earlier ++ m :: (between ++ [m'])) p
        ∧ InTime (earlier ++ m :: (between ++ [m'])) ∧ m.Fails oneAgent 5
        ∧ (∃ changed ∈ between, changed.event = .look oneAddress 50 (.directory {}))
        ∧ .seek oneAgent 2 [.unix ⟨"/a"⟩] ∈ m'.effects ∧ m'.event = .advance oneAddress 105
        ∧ BacksOff {} oneAgent (earlier ++ m :: (between ++ [m'])) p := by
  have start : Run {} [] { config := {}, subscription := ⟨0⟩ } :=
    Run.start (show Pool.new {} {} = _ from rfl)
  have taken := (start.next (.send (.acquire oneAgent)) trivial).next
    (.look oneAddress 0 (.command (.acquire oneAgent))) ⟨rfl, rfl⟩
  have sought := (taken.next (.advance oneAddress 0) trivial).next
    (.report (.connectFailed oneAgent 1 (.connectionFailed "refused"))) trivial
  have unreached := sought.next (.look oneAddress 5
    (.notice (.connectFailed oneAgent 1 (.connectionFailed "refused")))) ⟨rfl, rfl⟩
  have rested := (unreached.next (.advance oneAddress 5) trivial).next
    (.look oneAddress 50 (.directory {})) ⟨rfl, trivial⟩
  have waits := rested.next (.advance oneAddress 50) trivial
  have again := waits.next (.advance oneAddress 105) trivial
  have hclock : ([0, 0, 5, 5, 50, 50, 105] : List Time).Pairwise (· ≤ ·) := by decide
  refine ⟨[_, _, _, _], [_, _, _], _, _, _, again, hclock, .attempt rfl rfl rfl, ?_,
    List.mem_singleton_self _, rfl, backing_off_is_never_cut_short again hclock oneAgent⟩
  exact ⟨_, List.mem_cons_of_mem _ List.mem_cons_self, rfl⟩

end OneFailure

end Pool

end RemoteCall
