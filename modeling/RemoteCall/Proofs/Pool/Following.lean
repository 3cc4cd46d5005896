/-
  RemoteCall.Proofs.Pool.Following
  ────────────────────────────────
  **FOLLOWING THE DIRECTORY.**

  When the directory has changed, each connection looks whether what it relies
  on is still listed:

      a link, its peer listed         kept
      an attempt, the same peers      kept
      without link and attempt        kept
      a link, its peer not listed     lost, those in flight are charged
      an attempt, other peers         dropped, no call is charged

  What is kept only stops looking.  A call that is charged is in flight and has
  no outcome; it waits again, ahead of those that waited before, or fails when
  it cannot pay.

  The number of an attempt that is dropped, or of one whose link is lost here,
  is not that of an attempt or a link again for as long as the connection is
  there (`Connection.Abandons`), so nothing that it still reports is taken.

  Main statements:
    • `Ledger.chargeAll_eq`          — what is charged and what fails, in one equation,
    • `Tidy.follows`                 — each connection, and the outcomes,
    • `Run.abandoned`                — numbers that are over,
    • `connections_follow_the_directory` — the whole.
-/
import RemoteCall.Proofs.Pool.Stepping
import RemoteCall.Proofs.Pool.Superseded

namespace RemoteCall

/-! ## §1. Charging several calls. -/

/-- Whether a call can pay for one more retry. -/
def PendingCall.canPay (limit : UInt32) (call : PendingCall) : Bool :=
  !decide (limit < call.retries + 1)

namespace Ledger

/-- Those of the calls that have no outcome and can pay, charged. -/
def charged (l : Ledger) (limit : UInt32) (calls : List PendingCall) : List PendingCall :=
  ((l.unsettled calls).filter (·.canPay limit)).map (·.charged)

/-- Those of the calls that have no outcome and cannot pay. -/
def spent (l : Ledger) (limit : UInt32) (calls : List PendingCall) : List PendingCall :=
  (l.unsettled calls).filter (!·.canPay limit)

variable {l l' : Ledger} {limit : UInt32} {e : Failure} {calls : List PendingCall}

theorem unsettled_congr (h : ∀ call ∈ calls, l'.isFinished call.id = l.isFinished call.id) :
    l'.unsettled calls = l.unsettled calls :=
  List.filter_congr fun call hmem => by rw [h call hmem]

theorem unsettled_cons_of_isOpen {call : PendingCall} (h : l.isFinished call.id = false)
    (rest : List PendingCall) : l.unsettled (call :: rest) = call :: l.unsettled rest :=
  List.filter_cons_of_pos (by simp [h])

/-- **Charging several calls** that have numbers of their own: those without an outcome that can pay
are given back, the others fail. -/
theorem chargeAll_eq (hdistinct : ((l.unsettled calls).map (·.id)).Nodup) :
    chargeAll limit e calls l
      = (l.charged limit calls, l.failAll ((l.spent limit calls).map (·.id)) e) := by
  induction calls generalizing l with
  | nil => rfl
  | cons call rest ih =>
    unfold chargeAll
    cases hfin : l.isFinished call.id with
    | true =>
      rw [unsettled_cons_of_isFinished hfin] at hdistinct
      rw [if_pos rfl, ih hdistinct]
      unfold charged spent
      rw [unsettled_cons_of_isFinished hfin]
    | false =>
      rw [unsettled_cons_of_isOpen hfin, List.map_cons, List.nodup_cons] at hdistinct
      obtain ⟨hfresh, hrest⟩ := hdistinct
      rw [if_neg Bool.false_ne_true]
      unfold charged spent
      rw [unsettled_cons_of_isOpen hfin]
      cases hpay : call.canPay limit with
      | true =>
        have hbudget : ¬ limit < call.retries + 1 := by simpa [PendingCall.canPay] using hpay
        rw [if_neg hbudget, ih hrest, List.filter_cons_of_pos hpay,
          List.filter_cons_of_neg (by simp [hpay])]
        rfl
      | false =>
        have hbudget : limit < call.retries + 1 := by simpa [PendingCall.canPay] using hpay
        -- the failure of the first is not seen among the others
        have hother : ∀ other ∈ rest, other.id ≠ call.id := by
          intro other hmem hid
          refine hfresh (List.mem_map.mpr ⟨other, mem_unsettled.mpr ⟨hmem, ?_⟩, hid⟩)
          rw [hid]
          exact hfin
        have hsame : (l.fail call.id e).unsettled rest = l.unsettled rest := by
          refine unsettled_congr fun other hmem => ?_
          rw [isFinished_eq, get?_fail_of_ne l (hother other hmem), ← isFinished_eq]
        rw [if_pos hbudget, ih (hsame.symm ▸ hrest), List.filter_cons_of_neg (by simp [hpay]),
          List.filter_cons_of_pos (by simp [hpay])]
        unfold charged spent
        rw [hsame]
        rfl

end Ledger

/-! ## §2. One connection. -/

namespace Connection

variable {env : Surroundings} {config : PoolConfig} {now : Time} {c c' : Connection} {l : Ledger}
  {live : Live} {candidates : List PeerName}

/-- Whether what the connection relies on is listed: the peer of its link, or the peers that it
tries. -/
def isListed (env : Surroundings) (c : Connection) : Bool :=
  match c.phase with
  | .connected live => (env.lookup c.key.agent).any (·.same live.peer)
  | .connecting candidates => PeerName.sameAll candidates (env.lookup c.key.agent)
  | _ => true

theorem isListed_of_connected (h : c.phase = .connected live) (env : Surroundings) :
    c.isListed env = (env.lookup c.key.agent).any (·.same live.peer) := by
  unfold isListed
  rw [h]

theorem isListed_of_connecting (h : c.phase = .connecting candidates) (env : Surroundings) :
    c.isListed env = PeerName.sameAll candidates (env.lookup c.key.agent) := by
  unfold isListed
  rw [h]

/-- What is not listed is a link or an attempt. -/
theorem exists_of_not_listed (h : c.isListed env = false) :
    (∃ live, c.phase = .connected live) ∨ ∃ candidates, c.phase = .connecting candidates := by
  unfold isListed at h
  split at h
  · exact .inl ⟨_, by assumption⟩
  · exact .inr ⟨_, by assumption⟩
  · cases h

/-- A connection whose attempt is dropped. -/
def restarted (now : Time) (c : Connection) : Connection :=
  { c with looking := false, generation := c.generation + 1, phase := .disconnected now }

/-- Why a link to a peer that is no longer listed is lost. -/
def withdrawal (c : Connection) (live : Live) : Failure :=
  .connectionFailed s!"{c.key.agent.text} no longer advertised at {live.peer.text}"

/-- A connection that has lost its link: those in flight that can pay wait again, ahead of the
others. -/
def unlinked (limit : UInt32) (e : Failure) (l : Ledger) (c : Connection) : Connection :=
  { c with
    looking := false
    phase := .errored e
    waiting := l.charged limit c.inFlightByAge ++ l.unsettled c.waiting
    retries := c.retries + (l.charged limit c.inFlightByAge).length }

/-- A number is over: no attempt and no link of the connection has it, and none will. -/
def Abandons (generation : Nat) (c : Connection) : Prop :=
  generation < c.generation
    ∨ c.generation = generation ∧ (∀ live, c.phase ≠ .connected live)
      ∧ ∀ peers, c.phase ≠ .connecting peers

/-- Numbers are not used twice. -/
theorem Abandons.next {generation : Nat} {effects : List Effect} (h : c.Abandons generation)
    (hbecomes : c.Becomes effects c') : c'.Abandons generation := by
  rcases h with hlt | ⟨hsame, hlink, hattempt⟩
  · refine .inl ?_
    rcases hbecomes.generation with heq | heq <;> omega
  rcases hbecomes.generation with heq | heq
  · refine .inr ⟨heq.trans hsame, fun live hlive => ?_, fun peers hpeers => ?_⟩
    · obtain ⟨-, ⟨old, hold, -⟩ | ⟨peer, link, -, hattach⟩⟩ := hbecomes.connected live hlive
      · exact hlink old hold
      · obtain ⟨-, -, ⟨peers, hpeers⟩, -⟩ := hbecomes.attached _ _ hattach
        exact hattempt peers hpeers
    · exact hattempt peers (hbecomes.connecting peers hpeers heq)
  · exact .inl (by omega)

/-- A connection that was trying may try again at once. -/
theorem isDue_restarted (h : c.phase = .connecting candidates) (now : Time) :
    (c.restarted now).isDue now = c.hasDemand := by
  have hflight : c.inFlight = [] := by
    unfold inFlight
    rw [h]
  have hdemand : (c.restarted now).hasDemand = c.hasDemand := by
    unfold hasDemand
    rw [hflight]
    rfl
  show (decide (now ≤ now) && !false && (c.restarted now).hasDemand) = c.hasDemand
  rw [hdemand]
  simp

/-- **Whatever is listed is kept.** -/
theorem reconsider_of_listed (h : c.isListed env = true) (config : PoolConfig) (now : Time)
    (l : Ledger) :
    c.reconsider env config now l = { connection := { c with looking := false }, ledger := l } := by
  unfold isListed at h
  unfold reconsider
  dsimp only
  split <;> simp_all

/-- **An attempt at other peers is dropped.** -/
theorem reconsider_of_attempt (hphase : c.phase = .connecting candidates)
    (h : c.isListed env = false) (config : PoolConfig) (now : Time) (l : Ledger) :
    c.reconsider env config now l
      = { connection := c.restarted now, ledger := l, effects := c.leave } := by
  rw [isListed_of_connecting hphase] at h
  unfold reconsider restarted
  rw [hphase]
  dsimp only
  rw [h]
  rfl

/-- **A link to a peer that is not listed is lost.** -/
theorem reconsider_of_link (hphase : c.phase = .connected live) (h : c.isListed env = false)
    (config : PoolConfig) (now : Time) (hdistinct : ((l.unsettled c.calls).map (·.id)).Nodup) :
    c.reconsider env config now l
      = { connection := c.unlinked config.callRetries (c.withdrawal live) l
          ledger := l.failAll ((l.spent config.callRetries c.inFlightByAge).map (·.id))
            (c.withdrawal live)
          effects := c.leave } := by
  unfold calls at hdistinct
  rw [Ledger.unsettled_append, List.map_append, List.nodup_append] at hdistinct
  obtain ⟨hflight, -, happart⟩ := hdistinct
  have hbyAge := l.unsettled_perm c.inFlightByAge_perm
  have hcharge : Ledger.chargeAll config.callRetries (c.withdrawal live) c.inFlightByAge l = _ :=
    Ledger.chargeAll_eq ((hbyAge.map (·.id)).nodup_iff.mpr hflight)
  -- no call that waits fails
  have hwaiting : (l.failAll ((l.spent config.callRetries c.inFlightByAge).map (·.id))
      (c.withdrawal live)).unsettled c.waiting = l.unsettled c.waiting := by
    refine Ledger.unsettled_congr fun call hcall => ?_
    cases hfin : l.isFinished call.id with
    | true => exact (Ledger.grows_failAll _ _ l).isFinished hfin
    | false =>
      have hother : call.id ∉ (l.spent config.callRetries c.inFlightByAge).map (·.id) := by
        intro hmem
        obtain ⟨other, hother, hid⟩ := List.mem_map.mp hmem
        have hopen := hbyAge.subset (List.mem_filter.mp hother).1
        exact happart _ (List.mem_map_of_mem hopen) _
          (List.mem_map_of_mem (Ledger.mem_unsettled.mpr ⟨hcall, hfin⟩)) hid
      rw [Ledger.isFinished_eq, Ledger.get?_failAll_of_notMem hother, ← Ledger.isFinished_eq, hfin]
  rw [isListed_of_connected hphase] at h
  rw [reconsider_of_withdrawn hphase h config now l]
  have hlost : lose config (c.withdrawal live) { c with looking := false } l = _ :=
    lose_link (c := { c with looking := false }) hphase rfl l
  rw [show inFlightByAge { c with looking := false } = c.inFlightByAge from rfl, hcharge] at hlost
  dsimp only at hlost
  rw [hwaiting] at hlost
  exact hlost

end Connection

open Connection

namespace Pool

variable {config : PoolConfig} {history earlier since : List Moment} {p q : Pool} {m : Moment}
  {env : Surroundings} {now : Time} {directory : Directory} {c c' : Connection} {l : Ledger}
  {f : Connection → Ledger → Moved} {call : PendingCall} {id : CallId}

/-! ## §3. All connections. -/

/-- The calls of one connection that have no outcome have numbers of their own. -/
theorem Accounts.nodup_unsettled (h : Accounts history p) (hc : c ∈ p.connections) :
    ((p.ledger.unsettled c.calls).map (·.id)).Nodup := by
  obtain ⟨before, after, hsplit⟩ := List.append_of_mem hc
  have hnodup := h.held_nodup
  rw [hsplit, held_append, held_cons, stillOpen_append, stillOpen_append, List.map_append,
    List.map_append] at hnodup
  have hown := (List.nodup_append.mp (List.nodup_append.mp hnodup).2.1).1
  unfold stillOpen at hown
  rwa [List.filter_map, List.map_map] at hown

/-- When a connection has its turn, its calls have the outcomes that they had before. -/
theorem InTurn.unsettled (hgrows : ∀ (c : Connection) (l : Ledger), l.Grows (f c l).ledger)
    (hframe : ∀ (c : Connection) (l : Ledger) {id : CallId}, id ∉ c.calls.map (·.id) →
      (f c l).ledger.get? id = l.get? id)
    (haccounts : Accounts history p) (h : InTurn f p c l) {calls : List PendingCall}
    (hcalls : calls ⊆ c.calls) : l.unsettled calls = p.ledger.unsettled calls := by
  refine Ledger.unsettled_congr fun call hcall => ?_
  cases hfin : p.ledger.isFinished call.id with
  | true => exact (h.grows hgrows).1.isFinished hfin
  | false =>
    obtain ⟨hget, -⟩ := h.get? hframe haccounts (hcalls hcall) hfin
    rw [Ledger.isFinished_eq, hget, ← Ledger.isFinished_eq, hfin]

/-- Each connection has its turn when the directory has changed. -/
theorem Accounts.reconsider_of_mem (h : Accounts history p) (env : Surroundings) (now : Time)
    (directory : Directory) (hc : c ∈ p.connections) :
    ∃ l, InTurn (Connection.reconsider env p.config now) p c l
      ∧ (p.after (.look env now (.directory directory))).1.connection? c.key
        = some (c.reconsider env p.config now l).connection := by
  obtain ⟨before, after, hsplit⟩ := List.append_of_mem hc
  refine ⟨_, ⟨before, after, hsplit, rfl⟩, ?_⟩
  have hkey : ∀ (d : Connection) (l : Ledger),
      (d.reconsider env p.config now l).connection.key = d.key :=
    fun d l => (moves_reconsider env p.config now d l).key
  obtain ⟨hmoved, -⟩ := moveAll_between (Connection.reconsider env p.config now) before after c
    p.ledger
  rw [← hsplit] at hmoved
  have hkeys : ((p.after (.look env now (.directory directory))).1.connections.map (·.key)).Nodup :=
    (keys_moveAll hkey p.connections p.ledger).symm ▸ h.tidy.keys
  rw [← hkey c]
  exact connection?_of_mem hkeys hmoved

/-- A pool has followed the directory: what each connection has become, and which calls have got an
outcome. -/
structure Follows (env : Surroundings) (now : Time) (p q : Pool) : Prop where
  /-- Every link is to a peer that is listed, every attempt is at the peers that are. -/
  listed : ∀ c ∈ q.connections, c.isListed env = true
  kept : ∀ c ∈ p.connections, c.isListed env = true →
    q.connection? c.key = some { c with looking := false }
  /-- An attempt at other peers is dropped, and the next one is due. -/
  restarted : ∀ c ∈ p.connections, ∀ candidates, c.phase = .connecting candidates →
    c.isListed env = false →
      q.connection? c.key = some (c.restarted now) ∧ (c.restarted now).isDue now = c.hasDemand
  /-- A link to a peer that is not listed is lost, and those in flight are charged. -/
  unlinked : ∀ c ∈ p.connections, ∀ live, c.phase = .connected live → c.isListed env = false →
    q.connection? c.key
      = some (c.unlinked p.config.callRetries (c.withdrawal live) p.ledger)
  /-- A call that is charged and cannot pay fails. -/
  failed : ∀ c ∈ p.connections, ∀ live, c.phase = .connected live → c.isListed env = false →
    ∀ call ∈ p.ledger.spent p.config.callRetries c.inFlight,
      q.ledger.failure? call.id = some (c.withdrawal live)
  /-- No other call gets an outcome. -/
  spared : ∀ id, q.ledger.get? id = p.ledger.get? id
    ∨ ∃ c ∈ p.connections, ∃ live, c.phase = .connected live ∧ c.isListed env = false
      ∧ id ∈ (p.ledger.spent p.config.callRetries c.inFlight).map (·.id)

/-- What becomes of a link to a peer that is not listed, said with the outcomes before the
change. -/
theorem Accounts.reconsider_of_link (h : Accounts history p) (hc : c ∈ p.connections)
    (hturn : InTurn (Connection.reconsider env p.config now) p c l) {live : Live}
    (hphase : c.phase = .connected live) (hlisted : c.isListed env = false) :
    c.reconsider env p.config now l
      = { connection := c.unlinked p.config.callRetries (c.withdrawal live) p.ledger
          ledger := l.failAll ((p.ledger.spent p.config.callRetries c.inFlightByAge).map (·.id))
            (c.withdrawal live)
          effects := c.leave } := by
  have hsame : ∀ {calls : List PendingCall}, calls ⊆ c.calls →
      l.unsettled calls = p.ledger.unsettled calls :=
    hturn.unsettled (grows_reconsider env p.config now) get?_reconsider h
  have hflight : c.inFlightByAge ⊆ c.calls := fun call hcall =>
    List.mem_append_left _ (c.inFlightByAge_perm.subset hcall)
  rw [Connection.reconsider_of_link hphase hlisted p.config now
    (by rw [hsame (List.Subset.refl _)]; exact h.nodup_unsettled hc)]
  unfold Connection.unlinked Ledger.charged Ledger.spent
  rw [hsame hflight, hsame (List.subset_append_right _ _)]

theorem mem_spent_byAge {limit : UInt32} :
    id ∈ (l.spent limit c.inFlightByAge).map (·.id) ↔ id ∈ (l.spent limit c.inFlight).map (·.id) :=
  (((l.unsettled_perm c.inFlightByAge_perm).filter _).map _).mem_iff

/-- A call that is charged and cannot pay fails. -/
theorem Accounts.failed (h : Accounts history p) (directory : Directory) (hc : c ∈ p.connections)
    {live : Live} (hphase : c.phase = .connected live) (hlisted : c.isListed env = false)
    (hcall : call ∈ p.ledger.spent p.config.callRetries c.inFlight) :
    (p.after (.look env now (.directory directory))).1.ledger.failure? call.id
      = some (c.withdrawal live) := by
  obtain ⟨l, hturn, -⟩ := h.reconsider_of_mem env now directory hc
  obtain ⟨hflight, hopen⟩ := Ledger.mem_unsettled.mp (List.mem_filter.mp hcall).1
  have hheld : call ∈ c.calls := List.mem_append_left _ hflight
  -- the failure is recorded in the turn of the connection, and stays
  obtain ⟨hbefore, hafter⟩ := hturn.get? get?_reconsider h hheld hopen
  refine (Ledger.failure?_of_get?_eq hafter).trans ?_
  have hknows := (hturn.grows (grows_reconsider env p.config now)).1.knows
    (h.tidy.known (c.key, call) (mem_held.mpr ⟨c, hc, rfl, hheld⟩))
  rw [Ledger.isFinished_eq, ← hbefore, ← Ledger.isFinished_eq] at hopen
  rw [h.reconsider_of_link hc hturn hphase hlisted]
  exact Ledger.failure?_failAll (mem_spent_byAge.mpr (List.mem_map_of_mem hcall)) hknows hopen _

/-- No other call gets an outcome. -/
theorem Accounts.spared (h : Accounts history p) (env : Surroundings) (now : Time)
    (directory : Directory) (id : CallId) :
    (p.after (.look env now (.directory directory))).1.ledger.get? id = p.ledger.get? id
      ∨ ∃ c ∈ p.connections, ∃ live, c.phase = .connected live ∧ c.isListed env = false
        ∧ id ∈ (p.ledger.spent p.config.callRetries c.inFlight).map (·.id) := by
  cases hfin : p.ledger.isFinished id with
  | true => exact .inl ((records_after p _).grows.get?_of_isFinished hfin)
  | false =>
    by_cases hheld : id ∈ (held p.connections).map (·.2.id)
    · obtain ⟨x, hx, rfl⟩ := List.mem_map.mp hheld
      obtain ⟨c, hc, -, hcall⟩ := mem_held.mp hx
      obtain ⟨l, hturn, -⟩ := h.reconsider_of_mem env now directory hc
      obtain ⟨hbefore, hafter⟩ := hturn.get? get?_reconsider h hcall hfin
      refine Or.imp_left (hafter.trans ·) ?_
      cases hlisted : c.isListed env with
      | true =>
        rw [reconsider_of_listed hlisted]
        exact .inl hbefore
      | false =>
        rcases exists_of_not_listed hlisted with ⟨live, hphase⟩ | ⟨candidates, hphase⟩
        · by_cases hspent : x.2.id ∈ (p.ledger.spent p.config.callRetries c.inFlight).map (·.id)
          · exact .inr ⟨c, hc, live, hphase, hlisted, hspent⟩
          · rw [h.reconsider_of_link hc hturn hphase hlisted]
            exact .inl ((Ledger.get?_failAll_of_notMem (mt mem_spent_byAge.mp hspent) _ l).trans
              hbefore)
        · rw [reconsider_of_attempt hphase hlisted]
          exact .inl hbefore
    · exact .inl (get?_moveAll get?_reconsider hheld p.ledger)

/-- **A pool follows the directory.** -/
theorem Accounts.follows (h : Accounts history p) (env : Surroundings) (now : Time)
    (directory : Directory) :
    Follows env now p (p.after (.look env now (.directory directory))).1 := by
  refine ⟨?_, ?_, ?_, ?_, ?_, h.spared env now directory⟩
  · intro c' hc'
    obtain ⟨before, c, after, hsplit, rfl⟩ := of_mem_moved hc'
    have hc : c ∈ p.connections := by
      rw [hsplit]
      exact List.mem_append_right _ List.mem_cons_self
    cases hlisted : c.isListed env with
    | true =>
      rw [reconsider_of_listed hlisted]
      exact hlisted
    | false =>
      -- what is lost or dropped is neither a link nor an attempt any more
      rcases exists_of_not_listed hlisted with ⟨live, hphase⟩ | ⟨candidates, hphase⟩
      · rw [h.reconsider_of_link hc ⟨before, after, hsplit, rfl⟩ hphase hlisted]
        rfl
      · rw [reconsider_of_attempt hphase hlisted]
        rfl
  · intro c hc hlisted
    obtain ⟨l, hturn, hfind⟩ := h.reconsider_of_mem env now directory hc
    rw [reconsider_of_listed hlisted] at hfind
    exact hfind
  · intro c hc candidates hphase hlisted
    obtain ⟨l, hturn, hfind⟩ := h.reconsider_of_mem env now directory hc
    rw [reconsider_of_attempt hphase hlisted] at hfind
    exact ⟨hfind, isDue_restarted hphase now⟩
  · intro c hc live hphase hlisted
    obtain ⟨l, hturn, hfind⟩ := h.reconsider_of_mem env now directory hc
    rw [h.reconsider_of_link hc hturn hphase hlisted] at hfind
    exact hfind
  · intro c hc live hphase hlisted call hcall
    exact h.failed directory hc hphase hlisted hcall

/-! ## §4. Numbers that are over. -/

/-- What has not been listed when the directory changed is over. -/
theorem Follows.abandons (h : Follows env now p q) (hc : c ∈ p.connections)
    (hlisted : c.isListed env = false) (hc' : q.connection? c.key = some c') :
    c'.Abandons c.generation := by
  rcases exists_of_not_listed hlisted with ⟨live, hphase⟩ | ⟨candidates, hphase⟩
  · rw [h.unlinked c hc live hphase hlisted] at hc'
    cases hc'
    exact .inr ⟨rfl, nofun, nofun⟩
  · rw [(h.restarted c hc candidates hphase hlisted).1] at hc'
    cases hc'
    exact .inl (Nat.lt_succ_self c.generation)

/-- **A number that is over stays so**, for as long as the connection is there. -/
theorem Run.abandoned (run : Run config (earlier ++ m :: since) q)
    (hevent : m.event = .look env now (.directory directory)) (hc : c ∈ m.before.connections)
    (hlisted : c.isListed env = false)
    (hkept : ∀ m ∈ since, (m.before.connection? c.key).isSome = true)
    (hc' : q.connection? c.key = some c') : c'.Abandons c.generation := by
  have hbegin := (run.at_split rfl).1
  refine run.follow_kept c.key (fun _ d => d.Abandons c.generation) ?_
    (fun _ habandons hbecomes => habandons.next hbecomes) rfl hkept hc'
  intro d hd
  unfold Moment.after at hd
  rw [hevent] at hd
  exact (hbegin.accounts.follows env now directory).abandons hc hlisted hd

/-- A report under a number that is over changes nothing. -/
theorem notice_of_abandons (hkeys : (q.connections.map (·.key)).Nodup) {first : Notice}
    (habandons : ∀ c', q.connection? first.key = some c' → c'.Abandons first.generation) :
    q.notice first = (q, dropNotice first) := by
  refine (notice_cases hkeys first).resolve_right ?_
  rintro ⟨c', hfind, hgeneration, hphase⟩
  rcases habandons c' hfind with hlt | ⟨-, hlink, hattempt⟩
  · omega
  · rcases hphase with ⟨peers, hpeers⟩ | ⟨live, hlive⟩
    · exact hattempt peers hpeers
    · exact hlink live hlive

/-! ## §5. The whole. -/

/-- **Connections follow the directory.**  Whatever a pool has come to and whatever is listed, when
the directory has changed every link is to a peer that is listed and every attempt at the peers that
are; what has been so before is kept, and only stops looking; an attempt at other peers is dropped
and may be started again at once, without a charge; a link to another peer is lost, and exactly the
calls that are in flight on it without an outcome are charged.  What an attempt or a link that is
over reports later changes nothing, for as long as its connection is there. -/
theorem connections_follow_the_directory (run : Run config history p) (env : Surroundings)
    (now : Time) (directory : Directory) :
    Follows env now p (p.after (.look env now (.directory directory))).1
      ∧ ∀ since q, Run config (history ++ ⟨p, .look env now (.directory directory)⟩ :: since) q →
        ∀ c ∈ p.connections, c.isListed env = false →
        (∀ m ∈ since, (m.before.connection? c.key).isSome = true) →
        ∀ first : Notice, first.key = c.key → first.generation = c.generation → ∀ env' now',
          q.after (.look env' now' (.notice first))
            = ({ q with notices := q.notices.tail }, dropNotice first) := by
  refine ⟨run.accounts.follows env now directory, ?_⟩
  intro since q later c hc hlisted hkept first hkey hgeneration env' now'
  refine notice_of_abandons (q := { q with notices := q.notices.tail }) later.accounts.tidy.keys ?_
  intro c' hfind
  rw [hgeneration]
  exact later.abandoned rfl hc hlisted hkept (hkey ▸ hfind)

section OneMove

/-- The agent is at a second address as well. -/
def twoAddresses : Surroundings :=
  ⟨fun _ => [.unix ⟨"/a"⟩, .unix ⟨"/b"⟩], fun _ _ => true, fun _ _ => 0.5⟩

/-- While the agent is sought, a second address is listed: the attempt is dropped and another one is
started at once, and when the first has reached the agent all the same, its link is closed. -/
theorem connections_follow_the_directory_when_an_address_is_added :
    ∃ (history since : List Moment) (p q : Pool) (c : Connection), Run {} history p
      ∧ Run {} (history ++ ⟨p, .look twoAddresses 5 (.directory {})⟩ :: since) q
      ∧ c ∈ p.connections ∧ c.key = oneAgent ∧ c.phase = .connecting [.unix ⟨"/a"⟩]
      ∧ (p.after (.look twoAddresses 5 (.directory {}))).1.connection? c.key
        = some (c.restarted 5)
      ∧ .seek oneAgent 3 [.unix ⟨"/a"⟩, .unix ⟨"/b"⟩] ∈ effectsOf since
      ∧ q.after (.look twoAddresses 5 (.notice oneReport))
        = ({ q with notices := [] }, [.close 9]) := by
  have start : Run {} [] { config := {}, subscription := ⟨0⟩ } :=
    Run.start (show Pool.new {} {} = _ from rfl)
  have asked := (start.next (.issue .unit) trivial).next (.send (.call oneAgent oneCall))
    ⟨by decide, by decide, rfl⟩
  have sought := (asked.next (.look oneAddress 0 (.command (.call oneAgent oneCall)))
    ⟨rfl, rfl⟩).next (.advance oneAddress 0) trivial
  have moved := sought.next (.look twoAddresses 5 (.directory {})) ⟨rfl, trivial⟩
  have reached := (moved.next (.advance twoAddresses 5) trivial).next (.report oneReport) trivial
  obtain ⟨hfollows, hover⟩ := connections_follow_the_directory sought twoAddresses 5 {}
  refine ⟨_, [⟨_, .advance twoAddresses 5⟩, ⟨_, .report oneReport⟩], _, _, _, sought, reached,
    List.mem_singleton_self _, rfl, rfl, ?_, ?_, ?_⟩
  · exact (hfollows.restarted _ (List.mem_singleton_self _) _ rfl rfl).1
  · exact List.mem_singleton_self _
  · refine hover [⟨_, .advance twoAddresses 5⟩, ⟨_, .report oneReport⟩] _ reached _
      (List.mem_singleton_self _) rfl ?_ oneReport rfl rfl twoAddresses 5
    exact List.forall_mem_cons.mpr ⟨rfl, List.forall_mem_singleton.mpr rfl⟩

end OneMove

end Pool

end RemoteCall
