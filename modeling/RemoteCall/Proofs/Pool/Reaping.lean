/-
  RemoteCall.Proofs.Pool.Reaping
  ──────────────────────────────
  **IDLE CONNECTIONS.**

  Each time a connection has done what was due, it notes since when it has been
  without demand: without a handle, and without a call.  When that was long
  enough ago, it is removed.

      advance   demand        the mark is taken away
      advance   no demand     the mark is set, unless it is there
      …
      advance   no demand     now - mark ≥ expiry time: removed

  The mark is about the moment at which the calls that have an outcome have been
  let go of.  Sending and connecting come behind it, and make no demand
  disappear (`Connection.demandless_of_flush`).

  Main statements:
    • `Connection.demandless_of_idleSince` — what the mark says of one connection,
    • `Run.idleSince`                      — what it says of a run,
    • `idle_connections_are_reaped_safely` — the whole.
-/
import RemoteCall.Proofs.Pool.Faults
import RemoteCall.Proofs.Pool.Usage

namespace RemoteCall

/-! ## §1. Demand. -/

/-- A call that has been sent is in flight. -/
theorem Live.inFlight_transmit_ne_nil {env : Surroundings} {config : PoolConfig}
    {interface : UInt32} {call : PendingCall} (live : Live) :
    (live.transmit env config interface call).1.inFlight ≠ [] := by
  cases hdup : env.duplicates config live.link live.next with
  | true =>
    rw [transmit_twice hdup]
    exact List.append_ne_nil_of_right_ne_nil _ (List.cons_ne_nil _ _)
  | false =>
    rw [transmit_once hdup]
    exact List.append_ne_nil_of_right_ne_nil _ (List.cons_ne_nil _ _)

/-- When no call is in flight and none waits after sending, none was in flight and no open call
waited. -/
theorem Live.of_flush_idle {env : Surroundings} {config : PoolConfig} {interface : UInt32}
    {l : Ledger} {live : Live} {waiting : List PendingCall}
    (hlive : (live.flush env config interface l waiting).live.inFlight = [])
    (hwaiting : (live.flush env config interface l waiting).waiting = []) :
    live.inFlight = [] ∧ l.unsettled waiting = [] := by
  induction waiting generalizing live with
  | nil => exact ⟨hlive, rfl⟩
  | cons call rest ih =>
    unfold Live.flush at hlive hwaiting
    split at hlive
    · next hfin =>
      rw [if_pos hfin] at hwaiting
      rw [Ledger.unsettled_cons_of_isFinished hfin]
      exact ih hlive hwaiting
    · next hopen =>
      rw [if_neg hopen] at hwaiting
      dsimp only at hlive hwaiting
      split at hlive
      · next htakes =>
        rw [if_pos htakes] at hwaiting
        obtain ⟨hsent, -⟩ := ih hlive hwaiting
        exact absurd hsent (Live.inFlight_transmit_ne_nil live)
      · next htakes =>
        rw [if_neg htakes] at hwaiting
        cases hwaiting

namespace Connection

variable {env : Surroundings} {config : PoolConfig} {now since : Time} {c c' : Connection}
  {l : Ledger}

theorem hasDemand_eq_false : c.hasDemand = false ↔ c.handles = 0 ∧ c.calls = [] := by
  unfold hasDemand calls
  simp only [Bool.or_eq_false_iff, decide_eq_false_iff_not, Nat.not_lt, Nat.le_zero,
    Bool.not_eq_false', List.isEmpty_iff, List.append_eq_nil_iff]
  exact ⟨fun ⟨⟨hhandles, hwaiting⟩, hflight⟩ => ⟨hhandles, hflight, hwaiting⟩,
    fun ⟨hhandles, hflight, hwaiting⟩ => ⟨⟨hhandles, hwaiting⟩, hflight⟩⟩

theorem demandless_congr (husage : c'.usage = c.usage) (hcalls : c'.calls = c.calls) :
    c'.hasDemand = false ↔ c.hasDemand = false := by
  have hhandles : c'.handles = c.handles := congrArg (·.handles) husage
  rw [hasDemand_eq_false, hasDemand_eq_false, hhandles, hcalls]

theorem calls_backOff (config : PoolConfig) (now : Time) (c : Connection) :
    (c.backOff config now).calls = c.calls := by
  unfold backOff
  split
  · next e hphase =>
    unfold calls inFlight
    rw [hphase]
  · rfl

/-- Backing off and connecting leave the calls alone. -/
theorem calls_sought (env : Surroundings) (config : PoolConfig) (now : Time) (c : Connection)
    (l : Ledger) :
    (c.sought env config now l).1.calls = (c.expire env now l).connection.calls := by
  unfold sought
  dsimp only
  split
  · next hdue =>
    have hnone := live?_of_isDue hdue
    rw [calls_of_live?_eq_none (live?_seek hnone), ← calls_backOff config now,
      calls_of_live?_eq_none hnone]
    unfold seek
    split <;> rfl
  · exact calls_backOff config now _

/-- Sending and connecting bring up no call that was not there when the deadlines were looked at,
and change no order. -/
theorem NumberedIn.sublist_advance {effects : List Effect} (h : c.NumberedIn effects)
    (env : Surroundings) (config : PoolConfig) (now : Time) (l : Ledger) :
    (c.advance env config now l).connection.calls.Sublist
      (c.expire env now l).connection.calls := by
  obtain ⟨idleSince, hnoted⟩ :=
    noteDemand_eq ((c.sought env config now l).1.flush env config (c.expire env now l).ledger).1 now
  rw [advance_eq, hnoted, ← calls_sought]
  exact ((numberedIn_sought env config now h l).sublist_flush env config _).1

/-- **Sending makes no demand disappear.** -/
theorem demandless_of_flush (h : (c.flush env config l).1.hasDemand = false)
    (hopen : l.unsettled c.waiting = c.waiting) : c.hasDemand = false := by
  cases hlive? : c.live? with
  | none => rwa [flush_of_live?_eq_none hlive?] at h
  | some live =>
    have hlive := phase_of_live? hlive?
    cases hd : live.draining with
    | true => rwa [flush_of_draining hlive hd] at h
    | false =>
      rw [flush_of_connected hlive hd, hasDemand_eq_false] at h
      obtain ⟨hhandles, hcalls⟩ := h
      obtain ⟨hflight, hwaiting⟩ := List.append_eq_nil_iff.mp hcalls
      obtain ⟨hflight, hwaiting⟩ := Live.of_flush_idle (List.map_eq_nil_iff.mp hflight) hwaiting
      refine hasDemand_eq_false.mpr ⟨hhandles, ?_⟩
      rw [calls_of_connected hlive, Live.calls, hflight, ← hopen, hwaiting]
      rfl

/-- **What the mark says**: there is no demand, there was none when the calls that have an outcome
had been let go of, and the mark was there before or is new. -/
theorem demandless_of_idleSince
    (h : (c.advance env config now l).connection.idleSince = some since) :
    (c.advance env config now l).connection.hasDemand = false
      ∧ (c.expire env now l).connection.hasDemand = false
      ∧ (c.idleSince = some since ∨ since = now) := by
  rw [advance_eq] at h ⊢
  dsimp only at h ⊢
  have husage := (usage_flush env config (c.sought env config now l).1
    (c.expire env now l).ledger).trans (usage_sought env config now c l)
  have hback : ((c.sought env config now l).1.flush env config
      (c.expire env now l).ledger).1.hasDemand = false →
      (c.expire env now l).connection.hasDemand = false := by
    intro hidle
    have hsought : (c.sought env config now l).1.hasDemand = false := by
      refine demandless_of_flush hidle ?_
      rw [waiting_sought, (Ledger.Grows.refl _).unsettled]
    exact (demandless_congr ((usage_sought env config now c l).trans
      (usage_expire env now c l).symm) (calls_sought env config now c l)).mp hsought
  generalize ((c.sought env config now l).1.flush env config (c.expire env now l).ledger).1
    = flushed at *
  unfold noteDemand at h ⊢
  split at h
  · cases h
  · next hidle =>
    rw [if_neg hidle]
    rw [Bool.not_eq_true] at hidle
    split at h
    · next hnone =>
      rw [if_pos hnone]
      exact ⟨hidle, hback hidle, .inr (Option.some.inj h).symm⟩
    · next hsome =>
      rw [if_neg hsome]
      have hsame : flushed.idleSince = c.idleSince := congrArg (·.idleSince) husage
      exact ⟨hidle, hback hidle, .inl (hsame.symm.trans h)⟩

theorem handles_advance (env : Surroundings) (config : PoolConfig) (now : Time) (c : Connection)
    (l : Ledger) : (c.advance env config now l).connection.handles = c.handles := by
  obtain ⟨idleSince, hnoted⟩ :=
    noteDemand_eq ((c.sought env config now l).1.flush env config (c.expire env now l).ledger).1 now
  rw [advance_eq, hnoted]
  exact congrArg (·.handles) ((usage_flush env config (c.sought env config now l).1
    (c.expire env now l).ledger).trans (usage_sought env config now c l))

/-- A call that is let go of when the calls expire has an outcome. -/
theorem isFinished_of_demandless (h : (c.expire env now l).connection.hasDemand = false)
    {call : PendingCall} (hcall : call ∈ c.calls) :
    (c.advance env config now l).ledger.isFinished call.id = true := by
  obtain ⟨-, hcalls⟩ := hasDemand_eq_false.mp h
  rw [calls_expire] at hcalls
  by_contra hopen
  have hmem : call ∈ (c.expire env now l).ledger.unsettled c.calls :=
    Ledger.mem_unsettled.mpr ⟨hcall, Bool.eq_false_iff.mpr hopen⟩
  rw [hcalls] at hmem
  cases hmem

/-- **An attempt is started only if there is demand.** -/
theorem hasDemand_of_seek {key : ConnectionKey} {generation : Nat} {candidates : List PeerName}
    (h : .seek key generation candidates ∈ (c.advance env config now l).effects) :
    (c.expire env now l).connection.hasDemand = true := by
  rw [advance_eq] at h
  rcases List.mem_append.mp h with h | hflush
  · rcases List.mem_append.mp h with hexpire | hsought
    · cases attempt?_expire hexpire
    · unfold sought at hsought
      dsimp only at hsought
      split at hsought
      · next hdue =>
        by_contra hidle
        rw [Bool.not_eq_true] at hidle
        have hrested : ((c.expire env now l).connection.backOff config now).hasDemand = false := by
          refine (demandless_congr ?_ (calls_backOff config now _)).mpr hidle
          unfold backOff
          split <;> rfl
        unfold isDue at hdue
        rw [hrested] at hdue
        split at hdue
        · rw [Bool.and_false] at hdue
          cases hdue
        · cases hdue
      · exact absurd hsought List.not_mem_nil
  · cases attempt?_flush hflush

theorem exists_of_isSpent (h : c.isSpent config now = true) :
    ∃ since, c.idleSince = some since ∧ config.expiryTime ≤ now - since := by
  unfold isSpent at h
  split at h
  · next since hsince => exact ⟨since, hsince, of_decide_eq_true h⟩
  · cases h

end Connection

open Connection

namespace Pool

variable {config : PoolConfig} {effects : List Effect} {history earlier later : List Moment}
  {p : Pool} {m : Moment} {event : Event} {key : ConnectionKey} {c c' : Connection}
  {env : Surroundings} {now since : Time} {l : Ledger}

/-! ## §2. Handles. -/

/-- Whether a handle is taken on the connection for a key. -/
def Moment.acquires (key : ConnectionKey) (m : Moment) : Bool :=
  match m.event with
  | .look _ _ (.command (.acquire other)) => other == key
  | _ => false

/-- Whether a handle on the connection for a key is dropped. -/
def Moment.releases (key : ConnectionKey) (m : Moment) : Bool :=
  match m.event with
  | .look _ _ (.command (.release other)) => other == key
  | _ => false

/-- How many handles on the connection for a key the pool has seen taken. -/
def acquired (key : ConnectionKey) (history : List Moment) : Nat :=
  history.countP (·.acquires key)

/-- How many handles on the connection for a key the pool has seen dropped. -/
def released (key : ConnectionKey) (history : List Moment) : Nat :=
  history.countP (·.releases key)

/-- The connections that are left have done what was due. -/
theorem Tidy.of_advance (h : Tidy effects p)
    (hfind : (p.advance env now).1.connection? key = some c') :
    ∃ c l, p.connection? key = some c ∧ InTurn (Connection.advance env p.config now) p c l
      ∧ c' = (c.advance env p.config now l).connection := by
  obtain ⟨hmem, rfl⟩ := mem_of_connection? hfind
  obtain ⟨before, c, after, hsplit, rfl⟩ := of_mem_moved (List.mem_filter.mp hmem).1
  have hc : c ∈ p.connections := by
    rw [hsplit]
    exact List.mem_append_right _ List.mem_cons_self
  refine ⟨c, _, ?_, ⟨before, after, hsplit, rfl⟩, rfl⟩
  rw [(moves_advance env p.config now c _).key]
  exact connection?_of_mem h.keys hc

/-- Doing what is due changes no number of handles: a connection that is removed has none. -/
theorem Tidy.handles_advance (h : Tidy effects p) (env : Surroundings) (now : Time)
    (key : ConnectionKey) :
    ((p.after (.advance env now)).1.usage key).handles = (p.usage key).handles := by
  cases hfind : (p.after (.advance env now)).1.connection? key with
  | some c' =>
    obtain ⟨c, l, hc, -, rfl⟩ := h.of_advance hfind
    rw [usage_of_connection? hfind, usage_of_connection? hc]
    exact Connection.handles_advance env p.config now c l
  | none =>
    rw [usage_of_none hfind]
    cases hc : p.connection? key with
    | none => rw [usage_of_none hc]
    | some c =>
      rcases removed_cases hc hfind with ⟨_, _, hevent⟩ | ⟨_, _, _, -, -, hspent⟩
      · cases hevent
      · obtain ⟨since, hsince, -⟩ := exists_of_isSpent hspent
        obtain ⟨hgone, -, -⟩ := demandless_of_idleSince hsince
        have hnone := (hasDemand_eq_false.mp hgone).1
        rw [Connection.handles_advance] at hnone
        rw [usage_of_connection? hc]
        exact hnone.symm

/-- **Only taking and dropping handles changes their number**, as long as the pool has not
stopped. -/
theorem Tidy.handles_after (h : Tidy effects p) (key : ConnectionKey)
    (hstop : ∀ env now, event ≠ .look env now .stop) :
    ((p.after event).1.usage key).handles = (event.uses key (p.usage key)).handles := by
  by_cases hdue : ∃ env now, event = .advance env now
  · obtain ⟨env, now, rfl⟩ := hdue
    exact h.handles_advance env now key
  · rw [usage_after p key (fun env now heq => hdue ⟨env, now, heq⟩) hstop]

theorem stopped_after (p : Pool) (hstop : ∀ env now, event ≠ .look env now .stop) :
    (p.after event).1.stopped = p.stopped := by
  cases event with
  | issue _ | settle _ _ | report _ | stop | advance _ _ => rfl
  | send command =>
    show (p.send command).1.stopped = p.stopped
    unfold send
    split <;> rfl
  | look env now subject =>
    cases subject with
    | stop => exact absurd rfl (hstop env now)
    | directory _ | timer => rfl
    | notice first => exact (steady_notice { p with notices := p.notices.tail } first).stopped
    | command first =>
      exact (steady_command env now { p with commands := p.commands.tail } first).stopped

/-- One event more: taking a handle counts, and so does dropping one. -/
theorem handles_uses (p : Pool) (event : Event) (key : ConnectionKey) (u : Usage) :
    u.handles + acquired key [⟨p, event⟩]
      ≤ (event.uses key u).handles + released key [⟨p, event⟩] := by
  unfold acquired released
  rw [List.countP_singleton, List.countP_singleton]
  cases event with
  | look env now subject =>
    cases subject with
    | command first =>
      cases first with
      | acquire other =>
        by_cases heq : other = key <;> simp [Event.uses, Moment.acquires, Moment.releases, heq]
      | release other =>
        by_cases heq : other = key <;> simp [Event.uses, Moment.acquires, Moment.releases, heq]
        omega
      | call _ _ | abort _ => exact Nat.le_refl _
    | stop | notice _ | directory _ | timer => exact Nat.le_refl _
  | issue _ | settle _ _ | send _ | report _ | stop | advance _ _ => exact Nat.le_refl _

/-- **Every handle that has been taken and not dropped keeps its connection.** -/
theorem Run.acquired_le (run : Run config history p) (hrunning : p.stopped = false)
    (key : ConnectionKey) :
    acquired key history ≤ released key history + (p.usage key).handles := by
  induction run with
  | start _ => exact Nat.zero_le _
  | @next history p run event _ ih =>
    have hstop : ∀ env now, event ≠ .look env now .stop := by
      rintro env now rfl
      cases hrunning
    rw [stopped_after p hstop] at hrunning
    have hle := ih hrunning
    have hmore := handles_uses p event key (p.usage key)
    rw [run.accounts.tidy.handles_after key hstop]
    unfold acquired released at *
    rw [List.countP_append, List.countP_append]
    omega

/-- A pool that has stopped has no connections. -/
theorem Run.connections_of_stopped (run : Run config history p) (hstopped : p.stopped = true) :
    p.connections = [] := by
  induction run with
  | start h =>
    rw [eq_of_new h]
  | @next history p run event hadmits ih =>
    by_cases hstop : ∃ env now, event = .look env now .stop
    · obtain ⟨env, now, rfl⟩ := hstop
      rfl
    · rw [stopped_after p fun env now heq => hstop ⟨env, now, heq⟩] at hstopped
      have hnone := ih hstopped
      cases event with
      | issue _ | settle _ _ | report _ | stop => exact hnone
      | send command =>
        show (p.send command).1.connections = []
        unfold send
        split <;> exact hnone
      | advance env now =>
        show (moveAll _ p.connections p.ledger).1.filter _ = []
        rw [hnone]
        rfl
      | look env now subject =>
        -- a pool that has stopped looks at nothing
        rw [hadmits.1] at hstopped
        cases hstopped

/-! ## §3. The mark. -/

/-- The connection for a key was there, and if it did what was due, it was without demand when the
calls that have an outcome had been let go of. -/
def WithoutDemand (config : PoolConfig) (key : ConnectionKey) (m : Moment) : Prop :=
  ∃ c, m.before.connection? key = some c ∧ ∀ env now, m.event = .advance env now →
    ∃ l, InTurn (Connection.advance env config now) m.before c l
      ∧ (c.expire env now l).connection.hasDemand = false

/-- At this time the connection for a key did what was due, and it has been without demand from then
on, whenever it did what was due. -/
def IdleSince (config : PoolConfig) (key : ConnectionKey) (since : Time) (history : List Moment) :
    Prop :=
  ∃ earlier first later env, history = earlier ++ first :: later
    ∧ first.event = .advance env since ∧ ∀ m ∈ first :: later, WithoutDemand config key m

theorem IdleSince.next (h : IdleSince config key since history)
    (hm : WithoutDemand config key m) : IdleSince config key since (history ++ [m]) := by
  obtain ⟨earlier, first, later, env, rfl, hevent, hall⟩ := h
  refine ⟨earlier, first, later ++ [m], env, by rw [List.append_assoc]; rfl, hevent, ?_⟩
  intro m' hm'
  rw [← List.cons_append, List.mem_append, List.mem_singleton] at hm'
  rcases hm' with hold | rfl
  · exact hall m' hold
  · exact hm

theorem WithoutDemand.idleSince (h : WithoutDemand config key m)
    (hevent : m.event = .advance env now) (history : List Moment) :
    IdleSince config key now (history ++ [m]) :=
  ⟨history, m, [], env, rfl, hevent, fun _ hm => List.mem_singleton.mp hm ▸ h⟩

/-- **One moment more**, at which the connection does what is due: a mark that it has afterwards was
there before and goes on, or begins. -/
theorem idleSince_advance (hc : m.before.connection? key = some c)
    (hevent : m.event = .advance env now)
    (hturn : InTurn (Connection.advance env config now) m.before c l)
    (hsince : (c.advance env config now l).connection.idleSince = some since)
    (ih : c.idleSince = some since → IdleSince config key since history) :
    IdleSince config key since (history ++ [m]) := by
  obtain ⟨-, hidle, hmark⟩ := demandless_of_idleSince hsince
  have hm : WithoutDemand config key m := by
    refine ⟨c, hc, fun env' now' hevent' => ?_⟩
    rw [hevent] at hevent'
    cases hevent'
    exact ⟨l, hturn, hidle⟩
  rcases hmark with hold | rfl
  · exact (ih hold).next hm
  · exact hm.idleSince hevent history

/-- **A mark is set only when the connection does what is due**, and taken away as soon as it does
so and there is demand. -/
theorem Run.idleSince (run : Run config history p)
    (hsince : (p.usage key).idleSince = some since) : IdleSince config key since history := by
  induction run with
  | start h =>
    rw [eq_of_new h] at hsince
    cases hsince
  | @next history p run event hadmits ih =>
    by_cases hdue : ∃ env now, event = .advance env now
    · obtain ⟨env, now, rfl⟩ := hdue
      obtain ⟨c', hfind, hmark⟩ := connection?_of_idleSince hsince
      obtain ⟨c, l, hc, hturn, rfl⟩ := run.accounts.tidy.of_advance hfind
      rw [run.config_eq] at hturn hmark
      refine idleSince_advance hc rfl hturn hmark fun hold => ih ?_
      rw [usage_of_connection? hc]
      exact hold
    · by_cases hstop : ∃ env now, event = .look env now .stop
      · obtain ⟨env, now, rfl⟩ := hstop
        cases hsince
      · -- the mark was there before, and so was the connection
        rw [usage_after p key (fun env now heq => hdue ⟨env, now, heq⟩)
          (fun env now heq => hstop ⟨env, now, heq⟩), idleSince_uses] at hsince
        obtain ⟨c, hc, -⟩ := connection?_of_idleSince hsince
        exact (ih hsince).next ⟨c, hc, fun env now hevent => absurd ⟨env, now, hevent⟩ hdue⟩

/-! ## §4. Connections that are removed. -/

/-- At this moment the connection for a key does what is due, and is removed because there has been
no use for it. -/
structure Reaped (config : PoolConfig) (key : ConnectionKey) (c : Connection)
    (earlier : List Moment) (m : Moment) (env : Surroundings) (now : Time) (l : Ledger) :
    Prop where
  event : m.event = .advance env now
  turn : InTurn (Connection.advance env config now) m.before c l
  /-- No handle keeps it. -/
  handles : (c.advance env config now l).connection.handles = 0
  /-- No call waits on it. -/
  waiting : (c.advance env config now l).connection.waiting = []
  /-- Nothing is in flight on it. -/
  inFlight : (c.advance env config now l).connection.inFlight = []
  /-- It has been without demand for the expiry time. -/
  idle : ∃ since, (c.advance env config now l).connection.idleSince = some since
    ∧ config.expiryTime ≤ now - since ∧ IdleSince config key since (earlier ++ [m])

/-- What happens at a moment of a run as far as idle connections are concerned. -/
structure ReapsSafely (config : PoolConfig) (earlier : List Moment) (m : Moment) : Prop where
  /-- A connection is removed when the pool stops, or when it is idle. -/
  removed : ∀ key c, m.before.connection? key = some c → m.after.connection? key = none →
    (∃ env now, m.event = .look env now .stop)
      ∨ ∃ env now l, Reaped config key c earlier m env now l
  /-- A connection that has a handle, or holds a call without an outcome, is kept unless the pool
  stops. -/
  kept : ∀ key c, m.before.connection? key = some c →
    (0 < c.handles ∨ released key earlier < acquired key earlier
      ∨ ∃ call ∈ c.calls, m.after.ledger.isFinished call.id = false) →
    (∃ env now, m.event = .look env now .stop) ∨ (m.after.connection? key).isSome = true
  /-- An attempt is started only for a connection that is in demand. -/
  sought : ∀ key generation candidates, .seek key generation candidates ∈ m.effects →
    ∃ env now c l, m.event = .advance env now ∧ m.before.connection? key = some c
      ∧ InTurn (Connection.advance env config now) m.before c l
      ∧ (c.expire env now l).connection.hasDemand = true

/-- A connection that is spent is idle. -/
theorem Run.reaped (run : Run config earlier m.before) (hc : m.before.connection? key = some c)
    (hevent : m.event = .advance env now)
    (hturn : InTurn (Connection.advance env config now) m.before c l)
    (hspent : (c.advance env config now l).connection.isSpent config now = true) :
    Reaped config key c earlier m env now l := by
  obtain ⟨since, hsince, hexpired⟩ := exists_of_isSpent hspent
  obtain ⟨hgone, -, -⟩ := demandless_of_idleSince hsince
  obtain ⟨hhandles, hcalls⟩ := hasDemand_eq_false.mp hgone
  obtain ⟨hflight, hwaiting⟩ := List.append_eq_nil_iff.mp hcalls
  refine ⟨hevent, hturn, hhandles, hwaiting, hflight, since, hsince, hexpired, ?_⟩
  refine idleSince_advance hc hevent hturn hsince fun hold => run.idleSince ?_
  rw [usage_of_connection? hc]
  exact hold

/-- **Idle reaping is safe.**  At every moment of every run, outside teardown, the only connections
to be removed are those that have been without demand for the expiry time; a handle or an unsettled
call keeps its connection; and no attempt is started without demand. -/
theorem idle_connections_are_reaped_safely (run : Run config history p)
    (hsplit : history = earlier ++ m :: later) : ReapsSafely config earlier m := by
  obtain ⟨hbefore, hadmits⟩ := run.at_split hsplit
  have hconfig : m.before.config = config := hbefore.config_eq
  have htidy := hbefore.accounts.tidy
  -- one case analysis for the first two clauses
  have hremoved : ∀ key c, m.before.connection? key = some c → m.after.connection? key = none →
      (∃ env now, m.event = .look env now .stop)
        ∨ ∃ env now l, Reaped config key c earlier m env now l := by
    intro key c hc hnone
    refine (removed_cases hc hnone).imp_right ?_
    rintro ⟨env, now, l, hevent, hturn, hspent⟩
    rw [hconfig] at hturn hspent
    exact ⟨env, now, l, hbefore.reaped hc hevent hturn hspent⟩
  refine ⟨hremoved, fun key c hc huse => ?_, ?_⟩
  · cases hfind : m.after.connection? key with
    | some _ => exact .inr rfl
    | none =>
      refine .inl ((hremoved key c hc hfind).resolve_right ?_)
      rintro ⟨env, now, l, hreaped⟩
      have hhandles : c.handles = 0 := by
        rw [← handles_advance env config now c l]
        exact hreaped.handles
      rcases huse with hhandle | hlive | ⟨call, hcall, hopen⟩
      · omega
      · -- a pool that has a connection has not stopped
        have hrunning : m.before.stopped = false := by
          by_contra hstopped
          have hnone := hbefore.connections_of_stopped (Bool.not_eq_false _ ▸ hstopped)
          have hmem := (mem_of_connection? hc).1
          rw [hnone] at hmem
          cases hmem
        have hle := hbefore.acquired_le hrunning key
        rw [usage_of_connection? hc] at hle
        have hzero : c.usage.handles = 0 := hhandles
        omega
      · -- a call that was held has an outcome when the connection has had its turn, and keeps it
        obtain ⟨since, hsince, -, -⟩ := hreaped.idle
        obtain ⟨-, hidle, -⟩ := demandless_of_idleSince hsince
        have hfin : (c.advance env config now l).ledger.isFinished call.id = true :=
          isFinished_of_demandless hidle hcall
        obtain ⟨-, hafter⟩ := hreaped.turn.grows (grows_advance env config now)
        have hlater : m.after.ledger
            = (moveAll (Connection.advance env config now) m.before.connections
                m.before.ledger).2.1 := by
          unfold Moment.after
          rw [hreaped.event, ← hconfig]
          rfl
        rw [← hlater] at hafter
        rw [hafter.isFinished hfin] at hopen
        cases hopen
  · intro key generation candidates hseek
    obtain ⟨env, now, hevent, c, hc, l, hturn, heffect⟩ := eq_advance_of_seek hseek
    have hkey := (moves_advance env m.before.config now c l).own _ heffect _ rfl
    rw [hconfig] at hturn
    refine ⟨env, now, c, l, hevent, ?_, hturn, hasDemand_of_seek heffect⟩
    rw [hkey]
    exact connection?_of_mem htidy.keys hc

/-- A handle is taken and dropped, and at time 15 the connection has been without use for the expiry
time of 10. -/
theorem idle_connections_are_reaped_safely_when_a_handle_was_dropped :
    ∃ (earlier : List Moment) (m : Moment) (p : Pool) (c : Connection),
      Run { expiryTime := 10 } (earlier ++ [m]) p
        ∧ m.before.connection? oneAgent = some c ∧ c.idleSince = some 5
        ∧ m.event = .advance oneAddress 15 ∧ m.after.connection? oneAgent = none
        ∧ ReapsSafely { expiryTime := 10 } earlier m := by
  have start : Run { expiryTime := 10 } []
      { config := { expiryTime := 10 }, subscription := ⟨0⟩ } :=
    Run.start (show Pool.new { expiryTime := 10 } {} = _ from rfl)
  have taken := (start.next (.send (.acquire oneAgent)) trivial).next
    (.look oneAddress 0 (.command (.acquire oneAgent))) ⟨rfl, rfl⟩
  have kept := taken.next (.advance oneAddress 0) trivial
  have dropped := (kept.next (.send (.release oneAgent)) trivial).next
    (.look oneAddress 5 (.command (.release oneAgent))) ⟨rfl, rfl⟩
  have marked := dropped.next (.advance oneAddress 5) trivial
  have removed := marked.next (.advance oneAddress 15) trivial
  exact ⟨_, _, _, _, removed, rfl, rfl, rfl, rfl, idle_connections_are_reaped_safely removed rfl⟩

end Pool

end RemoteCall
