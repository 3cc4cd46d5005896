/-
  RemoteCall.Proofs.Pool.Usage
  ────────────────────────────
  **WHAT USE THERE IS FOR A CONNECTION.**

  Besides its calls, a connection knows how many handles keep it, and since when
  there has been no use for it.  Two commands change the one, and only doing
  what is due changes the other:

      acquire, release    one handle more, one less
      advance             notes since when there is no demand
      anything else       neither

  Main statements:
    • `usage_notice`, `usage_command` — what is looked at,
    • `usage_after`                   — any event.
-/
import RemoteCall.Proofs.Pool.Stepping

namespace RemoteCall

/-! ## §1. What a connection knows of its use. -/

namespace Connection

/-- How many handles keep a connection, and since when there has been no use for it. -/
structure Usage where
  handles : Nat := 0
  idleSince : Option Time := none

def usage (c : Connection) : Usage :=
  ⟨c.handles, c.idleSince⟩

variable {env : Surroundings} {config : PoolConfig} {now : Time} {c c' : Connection} {l : Ledger}

theorem usage_lose (config : PoolConfig) (e : Failure) (c : Connection) (l : Ledger) :
    (c.lose config e l).connection.usage = c.usage := by
  obtain ⟨waiting, retries, hlost⟩ := lose_eq config e c l
  rw [hlost]
  rfl

theorem usage_respond (config : PoolConfig) (frame : ResponseFrame) (c : Connection) (l : Ledger) :
    (c.respond config frame l).connection.usage = c.usage := by
  have hresponded := responded config frame c l
  generalize c.respond config frame l = moved at *
  cases hresponded with
  | ignored _ | dropped _ _ | delivered _ _ _ | retried _ _ _ _ | unreadable _ _ _ _
    | refused _ _ _ | failed _ _ _ _ => rfl
  | rejected _ _ _ _ => exact usage_lose config _ _ _

theorem usage_cancel {id : CallId} {sent : List Effect} (h : c.cancel? env id = some (c', sent)) :
    c'.usage = c.usage := by
  cases letGo h with
  | waiting | inFlight _ _ _ => rfl

theorem usage_reconsider (env : Surroundings) (config : PoolConfig) (now : Time) (c : Connection)
    (l : Ledger) : (c.reconsider env config now l).connection.usage = c.usage := by
  have hreconsidered := reconsidered env config now c l
  generalize c.reconsider env config now l = moved at *
  cases hreconsidered with
  | kept _ | restarted _ => rfl
  | withdrawn _ _ => exact usage_lose config _ _ _

theorem usage_expire (env : Surroundings) (now : Time) (c : Connection) (l : Ledger) :
    (c.expire env now l).connection.usage = c.usage := by
  unfold expire
  dsimp only
  split <;> rfl

/-- Only in the end of what is due is the use of a connection looked at. -/
theorem usage_sought (env : Surroundings) (config : PoolConfig) (now : Time) (c : Connection)
    (l : Ledger) : (c.sought env config now l).1.usage = c.usage := by
  have hrested : ((c.expire env now l).connection.backOff config now).usage = c.usage := by
    unfold backOff
    split <;> exact usage_expire env now c l
  unfold sought seek
  dsimp only
  split
  · split <;> exact hrested
  · exact hrested

theorem usage_flush (env : Surroundings) (config : PoolConfig) (c : Connection) (l : Ledger) :
    (c.flush env config l).1.usage = c.usage := by
  unfold flush
  split
  · split <;> rfl
  · rfl

end Connection

open Connection

namespace Pool

variable {effects : List Effect} {p q : Pool} {event : Event} {key other : ConnectionKey}
  {c c' : Connection}

/-! ## §2. The connection for a key. -/

/-- How the connection for a key is used.  Where there is none, it is as if it were new. -/
def usage (p : Pool) (key : ConnectionKey) : Usage :=
  ((p.connection? key).map (·.usage)).getD {}

theorem usage_of_connection? (h : p.connection? key = some c) : p.usage key = c.usage := by
  unfold usage
  rw [h]
  rfl

theorem usage_of_none (h : p.connection? key = none) : p.usage key = {} := by
  unfold usage
  rw [h]
  rfl

/-- Only a connection that is there has a mark. -/
theorem connection?_of_idleSince {since : Time} (h : (p.usage key).idleSince = some since) :
    ∃ c, p.connection? key = some c ∧ c.idleSince = some since := by
  cases hc : p.connection? key with
  | none =>
    rw [usage_of_none hc] at h
    cases h
  | some c =>
    rw [usage_of_connection? hc] at h
    exact ⟨c, rfl, h⟩

theorem usage_congr
    (h : q.connections.map (fun c => (c.key, c.usage))
      = p.connections.map (fun c => (c.key, c.usage))) (key : ConnectionKey) :
    q.usage key = p.usage key := by
  -- the pairs are all that is looked at
  have hpairs : ∀ p : Pool, p.usage key
      = (((p.connections.map fun c => (c.key, c.usage)).find? (·.1 == key)).map (·.2)).getD {} := by
    intro p
    rw [List.find?_map, Option.map_map]
    rfl
  rw [hpairs, hpairs, h]

theorem usage_withConnection (p : Pool) (now : Time) (key other : ConnectionKey) :
    (p.withConnection now other).usage key = p.usage key := by
  unfold withConnection
  cases hfind : p.connection? other with
  | some _ => rfl
  | none =>
    unfold usage connection?
    dsimp only
    rw [List.find?_append]
    cases hkey : p.connections.find? (·.key == key) with
    | some c => rfl
    | none =>
      rw [Option.none_or, List.find?_singleton]
      split <;> rfl

theorem isSome_withConnection (p : Pool) (now : Time) (key : ConnectionKey) :
    ((p.withConnection now key).connection? key).isSome = true := by
  unfold withConnection
  cases hfind : p.connection? key with
  | some c =>
    dsimp only
    rw [hfind]
    rfl
  | none =>
    have hown : ((Connection.new key now).key == key) = true := beq_self_eq_true key
    unfold connection?
    dsimp only
    rw [List.find?_append, List.find?_singleton, if_pos hown]
    cases p.connections.find? (·.key == key) <;> rfl

/-- The use of one connection changes, if it is there. -/
theorem usage_modify (p : Pool) (key other : ConnectionKey) {f : Connection → Connection}
    {g : Usage → Usage} (hkey : ∀ c, (f c).key = c.key) (hf : ∀ c, (f c).usage = g c.usage)
    (hnone : p.connection? other = none → g {} = {}) :
    (p.modify other f).usage key = if other = key then g (p.usage key) else p.usage key := by
  unfold usage
  rw [connection?_modify p other key fun c h => (hkey c).trans h]
  cases hc : p.connection? key with
  | none =>
    split
    · next heq => exact (hnone (heq ▸ hc)).symm
    · rfl
  | some c =>
    obtain ⟨-, rfl⟩ := mem_of_connection? hc
    rw [Option.map_some]
    by_cases heq : other = c.key
    · rw [if_pos heq, if_pos heq.symm]
      exact hf c
    · rw [if_neg heq, if_neg (Ne.symm heq)]

theorem usage_settle (hc : p.connection? other = some c) (moved : Moved)
    (hkey : moved.connection.key = c.key) (husage : moved.connection.usage = c.usage)
    (key : ConnectionKey) : (p.settle moved).1.usage key = p.usage key := by
  obtain ⟨hown, hothers⟩ := connection?_settle hc moved hkey
  obtain ⟨-, rfl⟩ := mem_of_connection? hc
  by_cases heq : key = c.key
  · subst heq
    rw [usage_of_connection? hown, usage_of_connection? hc, husage]
  · unfold usage
    rw [hothers key heq]

theorem usage_notice (p : Pool) (first : Notice) (key : ConnectionKey) :
    (p.notice first).1.usage key = p.usage key := by
  unfold Pool.notice
  cases hc : p.connection? first.key with
  | none => rfl
  | some c =>
    dsimp only
    split
    · have hattended := attended p c first
      generalize p.attend c first = stepped at *
      generalize c.paysForNotice p.config p.ledger first = paying at *
      cases hattended with
      | attached _ => exact usage_settle hc _ rfl rfl key
      | attemptFailed _ | linkFailed _ =>
        exact usage_settle hc _ (moves_lose _ _ _ _).key (usage_lose _ _ _ _) key
      | responded => exact usage_settle hc _ (moves_respond _ _ _ _).key (usage_respond _ _ _ _) key
      | dropped => rfl
    · rfl

/-! ## §3. One event. -/

/-- What an event makes of the use of the connection for a key. -/
def Event.uses (key : ConnectionKey) (event : Event) (u : Usage) : Usage :=
  match event with
  | .look _ _ (.command (.acquire other)) =>
    if other = key then { u with handles := u.handles + 1 } else u
  | .look _ _ (.command (.release other)) =>
    if other = key then { u with handles := u.handles - 1 } else u
  | _ => u

theorem idleSince_uses (key : ConnectionKey) (event : Event) (u : Usage) :
    (event.uses key u).idleSince = u.idleSince := by
  unfold Event.uses
  split <;> [split; split; skip] <;> rfl

theorem usage_command (env : Surroundings) (now : Time) (p : Pool) (first : Command)
    (key : ConnectionKey) :
    (p.command env now first).1.usage key
      = (Event.look env now (.command first)).uses key (p.usage key) := by
  cases first with
  | call other call =>
    unfold command
    dsimp only
    split
    · rfl
    · refine (usage_modify (p.withConnection now other) key other
        (f := fun c => { c with waiting := c.waiting ++ [call] }) (g := id) (fun _ => rfl)
        (fun _ => rfl) fun _ => rfl).trans ?_
      rw [id, ite_self, usage_withConnection]
      rfl
  | abort id =>
    refine usage_congr (map_cancelIn (fun c => (c.key, c.usage)) (fun hcancel => ?_) _) key
    rw [(moves_cancel hcancel).key, usage_cancel hcancel]
  | acquire other =>
    refine (usage_modify (p.withConnection now other) key other
      (f := fun c => { c with handles := c.handles + 1 })
      (g := fun u => { u with handles := u.handles + 1 }) (fun _ => rfl) (fun _ => rfl)
      fun hnone => ?_).trans ?_
    · have hsome := isSome_withConnection p now other
      rw [hnone] at hsome
      cases hsome
    · rw [usage_withConnection]
      rfl
  | release other =>
    exact usage_modify p key other (f := fun c => { c with handles := c.handles - 1 })
      (g := fun u => { u with handles := u.handles - 1 }) (fun _ => rfl) (fun _ => rfl)
      fun _ => rfl

/-- **Whatever happens**, short of doing what is due and of stopping, the use of a connection is
known from what it was. -/
theorem usage_after (p : Pool) {event : Event} (key : ConnectionKey)
    (hdue : ∀ env now, event ≠ .advance env now) (hstop : ∀ env now, event ≠ .look env now .stop) :
    (p.after event).1.usage key = event.uses key (p.usage key) := by
  cases event with
  | issue _ | settle _ _ | report _ | stop => rfl
  | send command =>
    show (p.send command).1.usage key = _
    unfold send
    split <;> rfl
  | advance env now => exact absurd rfl (hdue env now)
  | look env now subject =>
    cases subject with
    | stop => exact absurd rfl (hstop env now)
    | timer => rfl
    | directory directory =>
      refine usage_congr (map_moveAll (fun c => (c.key, c.usage)) (fun c l => ?_) _ _) key
      rw [(moves_reconsider env p.config now c l).key, usage_reconsider]
    | notice first => exact usage_notice { p with notices := p.notices.tail } first key
    | command first => exact usage_command env now { p with commands := p.commands.tail } first key

end Pool

end RemoteCall
