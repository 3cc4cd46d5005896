/-
  RemoteCall.Proofs.Pool.Teardown
  ───────────────────────────────
  **A POOL THAT STOPS SETTLES EVERYTHING.**

  A pool may be told to stop at any moment, with calls in flight, calls that
  wait, calls that are asked for in the queue, and calls whose slot is open and
  whose caller has not asked for them yet.  A call that is not settled then

      in flight, waiting     leaves its connection, and is told
      in the queue           is found there when the queue is closed, and is told
      not asked for          is refused by the queue, and is told by its caller

  Main statements:
    • `Run.fresh`, `Run.serving` — what a pool is like before it stops,
    • `Run.holds`                — where a call is that is not settled,
    • `failure?_call_of_closed`  — calls that come too late,
    • `stopping_settles_everything` — the whole.
-/
import RemoteCall.Proofs.Pool.Closing
import RemoteCall.Proofs.Pool.Stepping

namespace RemoteCall.Pool

variable {config : PoolConfig} {history : List Moment} {p : Pool} {event : Event} {id : CallId}

/-! ## §1. Before it stops. -/

/-- A number that is not given out has no slot, and gets none unless it is given out. -/
theorem Tidy.get?_after_of_none {effects : List Effect} (h : Tidy effects p)
    (hnone : p.ledger.get? id = none) (hle : (p.after event).1.nextCall ≤ id) :
    (p.after event).1.ledger.get? id = none := by
  have hunheld : id ∉ (held p.connections).map (·.2.id) := by
    intro hmem
    obtain ⟨x, hx, rfl⟩ := List.mem_map.mp hmem
    have hknown := h.known x hx
    unfold Ledger.knows at hknown
    rw [hnone] at hknown
    cases hknown
  cases event with
  | issue shape => exact (Ledger.get?_issue_of_ne _ (Nat.ne_of_gt hle) shape).trans hnone
  | settle other e => exact Ledger.get?_fail_of_none hnone other e
  | send command => exact (congrArg (·.get? id) (ledger_send p command)).trans hnone
  | report notice | stop => exact hnone
  | advance env now => exact (get?_moveAll Connection.get?_advance hunheld _).trans hnone
  | look env now subject =>
    cases subject with
    | stop =>
      exact teardown_rel (R := fun l l' => l.get? id = none → l'.get? id = none)
        (fun _ hnone => hnone) (fun h h' hnone => h' (h hnone))
        (fun l other hnone => Ledger.get?_fail_of_none hnone other _) p hnone
    | timer => exact hnone
    | directory directory =>
      exact (get?_moveAll Connection.get?_reconsider hunheld _).trans hnone
    | command first =>
      exact (congrArg (·.get? id)
        (ledger_command env now { p with commands := p.commands.tail } first)).trans hnone
    | notice first =>
      show (({ p with notices := p.notices.tail } : Pool).notice first).1.ledger.get? id = none
      unfold Pool.notice
      split
      · next c hfind =>
        obtain ⟨hc, -⟩ := mem_of_connection? hfind
        have hcalls : id ∉ c.calls.map (·.id) := by
          intro hmem
          obtain ⟨call, hcall, rfl⟩ := List.mem_map.mp hmem
          exact hunheld (List.mem_map.mpr ⟨(c.key, call), mem_held.mpr ⟨c, hc, rfl, hcall⟩, rfl⟩)
        split
        · have hattended := attended { p with notices := p.notices.tail } c first
          generalize Pool.attend _ c first = stepped at *
          generalize c.paysForNotice _ _ first = paying at *
          cases hattended with
          | attached | dropped => exact hnone
          | attemptFailed | linkFailed => exact (Connection.get?_lose _ hcalls _).trans hnone
          | responded => exact (Connection.get?_respond _ hcalls _).trans hnone
        · exact hnone
      · exact hnone

/-- **Numbers that are not given out have no slots.** -/
theorem Run.fresh (run : Run config history p) (hle : p.nextCall ≤ id) :
    p.ledger.get? id = none := by
  induction run with
  | start h =>
    rw [eq_of_new h]
    rfl
  | @next history p run event hadmits ih =>
    exact run.accounts.tidy.get?_after_of_none
      (ih (Nat.le_trans (nextCall_le_after p event) hle)) hle

/-- As long as a pool has not stopped, it takes commands, and whatever it was asked for it has
looked at, or will find in its queue. -/
structure Serving (history : List Moment) (p : Pool) : Prop where
  accepting : p.accepting = true
  all : takenUp history ++ queued p.commands = askedFor history

theorem Run.serving (run : Run config history p) (hrunning : p.stopped = false) :
    Serving history p := by
  induction run with
  | start h =>
    rw [eq_of_new h]
    exact ⟨rfl, rfl⟩
  | @next history p run event hadmits ih =>
    have hsame : ∀ {m : Moment} {q : Pool}, p.stopped = false → m.askedFor? = none →
        m.takenUp? = none → q.accepting = p.accepting → q.commands = p.commands →
        Serving (history ++ [m]) q := by
      intro m q hrunning hasked htaken haccepting hcommands
      obtain ⟨hopen, hall⟩ := ih hrunning
      refine ⟨haccepting.trans hopen, ?_⟩
      rw [askedFor_concat, takenUp_concat, hasked, htaken, hcommands]
      simpa using hall
    cases event with
    | issue _ | settle _ _ | report _ | stop | advance _ _ =>
      exact hsame hrunning rfl rfl rfl rfl
    | send command =>
      have hbefore : p.stopped = false := by
        rw [← (used_send p command).stopped]
        exact hrunning
      obtain ⟨hopen, hall⟩ := ih hbefore
      have hsent : (p.send command).1 = { p with commands := p.commands ++ [command] } := by
        unfold send
        rw [if_pos hopen]
      show Serving _ (p.send command).1
      rw [hsent]
      refine ⟨hopen, ?_⟩
      rw [askedFor_concat, takenUp_concat, show Moment.takenUp? ⟨p, .send command⟩ = none from rfl,
        Option.toList_none, List.append_nil, queued_append, ← hall, List.append_assoc]
      cases command <;> rfl
    | look env now subject =>
      obtain ⟨hbefore, hhead⟩ := hadmits
      cases subject with
      | stop => cases hrunning
      | directory _ | timer => exact hsame hbefore rfl rfl rfl rfl
      | notice first =>
        have hsteady := steady_notice { p with notices := p.notices.tail } first
        exact hsame hbefore rfl rfl hsteady.accepting hsteady.commands
      | command first =>
        -- the head of the queue is taken up
        obtain ⟨hopen, hall⟩ := ih hbefore
        have hsteady := steady_command env now { p with commands := p.commands.tail } first
        have hqueue : p.commands = first :: p.commands.tail := List.eq_cons_of_mem_head? hhead
        refine ⟨hsteady.accepting.trans hopen, ?_⟩
        have hcommands : (p.after (.look env now (.command first))).1.commands = p.commands.tail :=
          hsteady.commands
        rw [askedFor_concat, takenUp_concat, hcommands,
          show Moment.askedFor? ⟨p, .look env now (.command first)⟩ = none from rfl,
          Option.toList_none, List.append_nil, ← hall, hqueue, List.append_assoc]
        cases first <;> rfl

/-! ## §2. When it stops. -/

/-- The users that are at work when a pool is told to stop: a call that is being issued has not been
asked for, and a call that is neither settled nor asked for is being issued. -/
structure Underway (history : List Moment) (p : Pool) (users : List User) : Prop where
  apart : ∀ id key options request, .issues id key options request .begun ∈ users.map (·.task) →
    id ∉ (askedFor history).map (·.2.id)
  covers : ∀ id, 0 < id → id < p.nextCall → p.ledger.isFinished id = true
    ∨ id ∈ (askedFor history).map (·.2.id) ∨ ∃ user ∈ users, user.isAt id

theorem Run.sound (run : Run config history p) (hrunning : p.stopped = false)
    (users : List User) : Closing.Sound { pool := p, users } := by
  refine ⟨fun hpos hlt => run.accounts.queue.issued hpos hlt, fun hle => run.fresh hle,
    fun hstopped => ?_⟩
  replace hstopped : p.stopped = true := hstopped
  rw [hrunning] at hstopped
  cases hstopped

/-- **A call that is not settled is held by the pool or by a user.** -/
theorem Run.holds (run : Run config history p) (hrunning : p.stopped = false)
    (hroom : HasRoom (effectsOf history)) {users : List User} (h : Underway history p users)
    (hpos : 0 < id) (hlt : id < p.nextCall) :
    p.ledger.isFinished id = true ∨ Closing.Holds { pool := p, users } id := by
  cases hfin : p.ledger.isFinished id with
  | true => exact .inl rfl
  | false =>
    right
    rcases h.covers id hpos hlt with hfinished | hasked | ⟨user, huser, hat⟩
    · rw [hfin] at hfinished
      cases hfinished
    · rw [← (run.serving hrunning).all, List.map_append] at hasked
      rcases List.mem_append.mp hasked with htaken | hqueued
      · obtain ⟨x, hx, rfl⟩ := List.mem_map.mp htaken
        obtain ⟨r, hheld, rfl⟩ := run.accounts.filter_held hroom hx (Ledger.isOpen_iff.mpr hfin)
        exact .held (List.mem_map_of_mem (f := fun x => x.2.id)
          (List.mem_of_mem_filter (hheld ▸ List.mem_singleton_self r)))
      · exact .queued hqueued
    · exact .issuing huser hat

/-- **Calls that come too late** are told at once that the pool is gone, unless their request cannot
be sent; no other call is touched, and nothing is queued. -/
theorem failure?_call_of_closed (hclosed : p.accepting = false)
    (hfresh : p.ledger.get? p.nextCall = none) (key : ConnectionKey) (options : CallOptions)
    (request : Payload.Outgoing) (response : Payload.Shape) :
    (p.call key options request response).1.ledger.failure? p.nextCall
        = some (match p.write request with
          | .error e => e
          | .ok _ => .disconnected)
      ∧ (p.call key options request response).1.commands = p.commands
      ∧ ∀ other, other ≠ p.nextCall →
        (p.call key options request response).1.ledger.get? other = p.ledger.get? other := by
  have hopen : (p.ledger.issue p.nextCall response).isFinished p.nextCall = false := by
    rw [Ledger.isFinished_issue]
    unfold Ledger.isFinished
    rw [hfresh]
  have hfail : ∀ e, ((p.ledger.issue p.nextCall response).fail p.nextCall e).failure? p.nextCall
      = some e :=
    Ledger.failure?_fail (knows_issue _ _ _) (Ledger.isOpen_iff.mpr hopen)
  have hothers : ∀ e other, other ≠ p.nextCall →
      ((p.ledger.issue p.nextCall response).fail p.nextCall e).get? other = p.ledger.get? other :=
    fun e other hother => (Ledger.get?_fail_of_ne _ hother e).trans
      (Ledger.get?_issue_of_ne _ hother response)
  unfold Pool.call write
  dsimp only
  cases request.encode with
  | error e => exact ⟨hfail e, rfl, hothers e⟩
  | ok bytes =>
    dsimp only
    rw [show checkSize { p with
        nextCall := p.nextCall + 1
        ledger := p.ledger.issue p.nextCall response } bytes = p.checkSize bytes from rfl]
    cases p.checkSize bytes with
    | error e => exact ⟨hfail e, rfl, hothers e⟩
    | ok _ =>
      unfold send
      rw [hclosed]
      exact ⟨hfail _, rfl, hothers _⟩

/-- A call that is not settled stays with the pool or with a user. -/
theorem Closing.Sound.holds_after {x : Closing} (h : x.Sound)
    (hstart : ∀ {id}, 0 < id → id < x.pool.nextCall →
      x.pool.ledger.isFinished id = true ∨ x.Holds id)
    (acts : List Act) (hpos : 0 < id) (hlt : id < (x.after acts).1.pool.nextCall) :
    (x.after acts).1.pool.ledger.isFinished id = true ∨ (x.after acts).1.Holds id :=
  Closing.keeps_after Closing.Sound Closing.Holds Nat.one_pos (fun h => h)
    (fun h act => h.act act) (fun _ act _ hk hholds => Closing.holds_act act hk hholds)
    (fun huser hat => .issuing huser hat) h hstart acts hpos hlt

/-- A pool that has stopped holds no call. -/
theorem Closing.Sound.issuing_of_stopped {x : Closing} (h : x.Sound)
    (hstopped : x.pool.stopped = true) (hholds : x.Holds id) :
    ∃ user ∈ x.users, user.isAt id := by
  obtain ⟨-, hleaving, hconnections, hcommands⟩ := h.empty hstopped
  cases hholds with
  | held hmem =>
    rw [hconnections] at hmem
    exact absurd hmem List.not_mem_nil
  | leaving hmem =>
    rw [hleaving] at hmem
    exact absurd hmem List.not_mem_nil
  | queued hmem =>
    rw [hcommands] at hmem
    exact absurd hmem List.not_mem_nil
  | issuing huser hat => exact ⟨_, huser, hat⟩

/-- **A call that is issued when the queue is closed** has an outcome when its issuer is done,
whatever other accesses there are meanwhile. -/
theorem Closing.Sound.late {y : Closing} (h : y.Sound) (hclosed : y.pool.accepting = false)
    (hpos : 0 < y.pool.nextCall) (acts : List Act) (hle : y.pool.nextCall ≤ id)
    (hlt : id < (y.after acts).1.pool.nextCall)
    (hdone : ∀ user ∈ (y.after acts).1.users, ¬ user.isAt id) :
    (y.after acts).1.pool.ledger.isFinished id = true := by
  refine (Closing.keeps_after (fun y => y.Sound ∧ y.pool.accepting = false)
    (fun y id => ∃ user ∈ y.users, user.isAt id) hpos And.left ?_ ?_ ?_ ⟨h, hclosed⟩ ?_ acts hle
    hlt).resolve_right fun ⟨user, huser, hat⟩ => hdone user huser hat
  · exact fun ⟨hsound, hclosed⟩ act => ⟨hsound.act act, (Closing.work_act hclosed act).1⟩
  · intro y ⟨_, hclosed⟩ act id hk ⟨user, huser, hat⟩
    rcases Closing.isAt_act huser hat hk act with hfin | hstill | ⟨hopen, -⟩
    · exact .inl hfin
    · exact .inr hstill
    · rw [hclosed] at hopen
      cases hopen
  · exact fun huser hat => ⟨_, huser, hat⟩
  · -- no number has been given out since
    exact fun hle hlt => absurd hlt (Nat.not_lt.mpr hle)

/-! ## §3. The whole. -/

/-- A pool stops, and its users go on, in any order. -/
structure TornDown (history : List Moment) (p : Pool) (users : List User) (acts : List Act)
    (x : Closing) (effects : List Effect) : Prop where
  /-- Left alone, the pool does what `Pool.teardown` says. -/
  alone : Closing.Alone { pool := p, users } p.teardown.2 { pool := p.teardown.1, users }
  /-- When the pool has stopped, every call has an outcome, except those that are still being
  issued, as long as the sequence numbers of the links sufficed. -/
  settled : HasRoom (effectsOf history) → x.pool.stopped = true →
    ∀ id, 0 < id → id < x.pool.nextCall → (∀ user ∈ x.users, ¬ user.isAt id) →
      x.pool.ledger.isFinished id = true
  /-- Outcomes stay. -/
  kept : ∀ id, p.ledger.isFinished id = true → x.pool.ledger.get? id = p.ledger.get? id
  /-- The others are told that the pool is gone, unless an observer has given up the call, or its
  request cannot be sent. -/
  others : ∀ id, p.ledger.isFinished id = false → x.pool.ledger.isFinished id = true →
    ∃ e, x.pool.ledger.failure? id = some e ∧ x.Says id e
  /-- Those that the pool was asked for are told so, unless an observer has given up the call. -/
  asked : ∀ id ∈ (askedFor history).map (·.2.id), p.ledger.isFinished id = false →
    x.pool.ledger.isFinished id = true →
      x.pool.ledger.failure? id = some .disconnected
        ∨ ∃ late, .withdraws id late .begun ∈ x.tasks
          ∧ x.pool.ledger.failure? id = some (withdrawal late)
  /-- Once the queue is closed, a call is told so at once, unless its request cannot be sent. -/
  refused : x.pool.accepting = false → ∀ key options request response,
    (x.pool.call key options request response).1.ledger.failure? x.pool.nextCall
      = some (match x.pool.write request with
        | .error e => e
        | .ok _ => .disconnected)
  /-- Whatever other accesses there are meanwhile, a call that is issued since then has an outcome
  when its issuer is done. -/
  late : ∀ first rest, acts = first ++ rest →
    (Closing.after { pool := p, users } first).1.pool.accepting = false →
      ∀ id, (Closing.after { pool := p, users } first).1.pool.nextCall ≤ id →
        id < x.pool.nextCall → (∀ user ∈ x.users, ¬ user.isAt id) →
          x.pool.ledger.isFinished id = true
  /-- Nothing is sent, and no attempt is started: attempts are given up, and streams closed. -/
  silent : ∀ effect ∈ effects, (∃ key generation, effect = .giveUp key generation)
    ∨ ∃ link, effect = .close link
  /-- Once the queue is closed, the pool stops after so many accesses of its own, whatever others
  there are meanwhile. -/
  stops : x.pool.accepting = false → ∀ more, x.work ≤ more.countP (·.isOwn) →
    (x.after more).1.pool.stopped = true

/-- **A pool that stops settles everything**, at whatever moment of a run it is told to, and however
its own accesses and those of its users follow each other. -/
theorem stopping_settles_everything (run : Run config history p) (hrunning : p.stopped = false)
    {users : List User} (hunderway : Underway history p users) {acts : List Act} {x : Closing}
    {effects : List Effect} (hx : Closing.after { pool := p, users } acts = (x, effects)) :
    TornDown history p users acts x effects := by
  obtain rfl : (Closing.after { pool := p, users } acts).1 = x := congrArg Prod.fst hx
  obtain rfl : (Closing.after { pool := p, users } acts).2 = effects := congrArg Prod.snd hx
  have hsound := run.sound hrunning users
  have hafter := hsound.after acts
  have htells := Closing.tells_after { pool := p, users } acts
  exact
    { alone := teardown_alone hrunning (run.serving hrunning).accepting users
      settled := by
        intro hroom hstopped id hpos hlt hdone
        rcases hsound.holds_after (fun hpos hlt => run.holds hrunning hroom hunderway hpos hlt)
          acts hpos hlt with hfin | hholds
        · exact hfin
        · obtain ⟨user, huser, hat⟩ := hafter.issuing_of_stopped hstopped hholds
          exact absurd hat (hdone user huser)
      kept := fun id hfin => htells.grows.get?_of_isFinished hfin
      others := fun id hopen hfin => htells.told hopen hfin
      asked := by
        intro id hasked hopen hfin
        obtain ⟨e, hfail, hsays⟩ := htells.told hopen hfin
        cases hsays with
        | gone => exact .inl hfail
        | withdrawn hmem => exact .inr ⟨_, hmem, hfail⟩
        | unsendable hmem _ =>
          -- no user issues a call that the pool was asked for
          rcases Closing.issues_after _ acts hmem with hold | hle
          · exact absurd hasked (hunderway.apart _ _ _ _ hold)
          · obtain ⟨y, hy, rfl⟩ := List.mem_map.mp hasked
            exact absurd (run.askedFor_lt y hy) (Nat.not_lt.mpr hle)
      refused := fun hclosed key options request response =>
        (failure?_call_of_closed hclosed (hafter.fresh (Nat.le_refl _)) key options request
          response).1
      late := by
        rintro first rest rfl hclosed id hle hlt hdone
        rw [Closing.after_append] at hlt hdone ⊢
        have hpos := Nat.lt_of_lt_of_le run.nextCall_pos
          (Closing.nextCall_le_after { pool := p, users } first)
        exact (hsound.after first).late hclosed hpos rest hle hlt hdone
      silent := Closing.silent_after _ acts
      stops := fun hclosed more hle => Closing.stopped_of_work
        ((Closing.work_after hclosed more).trans (Nat.sub_eq_zero_of_le hle)) }

section TwoCalls

/-- A user that is issuing a call when the pool is told to stop. -/
def lateUser : User := .issues 4 oneAgent {} (.typed .unit ()) .begun

/-- One call is aborted, and another is issued, while the pool stops. -/
def lateActs : List Act :=
  [.own, .withdraw 1 false, .user 1, .issue oneAgent {} (.typed .unit ()) .unit, .own, .user 0,
    .own, .user 0, .own, .user 2, .user 2, .own, .user 0, .user 2, .user 1, .own]

/-- Two calls are in flight, one is asked for in the queue, and one is being issued, when the pool
is told to stop. -/
theorem stopping_settles_everything_when_calls_are_everywhere :
    ∃ (history : List Moment) (p : Pool) (x : Closing) (effects : List Effect),
      Run {} history p ∧ HasRoom (effectsOf history) ∧ p.stopping = true
        ∧ (askedFor history).map (·.2.id) = [1, 2, 3] ∧ x.pool.stopped = true
        ∧ x.pool.nextCall = 6 ∧ TornDown history p [lateUser] lateActs x effects
        ∧ x.pool.ledger.failure? 1 = some .aborted
        ∧ ∀ id ∈ [2, 3, 4, 5], x.pool.ledger.failure? id = some .disconnected := by
  have issued := (run_twoCallsSent.next (.issue .unit) trivial).next (.issue .unit) trivial
  have asked := issued.next (.send (.call oneAgent ⟨3, [9], none, false, 0⟩))
    ⟨by decide, by decide, rfl⟩
  have stopping := asked.next .stop trivial
  obtain ⟨history, p, x, effects, run, hroom, hrunning, hstopping, hasked, hnext, hx, hstopped,
      hlast, hfirst, hothers⟩ :
      ∃ (history : List Moment) (p : Pool) (x : Closing) (effects : List Effect),
        Run {} history p ∧ HasRoom (effectsOf history) ∧ p.stopped = false ∧ p.stopping = true
          ∧ (askedFor history).map (·.2.id) = [1, 2, 3] ∧ p.nextCall = 5
          ∧ Closing.after { pool := p, users := [lateUser] } lateActs = (x, effects)
          ∧ x.pool.stopped = true ∧ x.pool.nextCall = 6
          ∧ x.pool.ledger.failure? 1 = some .aborted
          ∧ ∀ id ∈ [2, 3, 4, 5], x.pool.ledger.failure? id = some .disconnected := by
    refine ⟨_, _, _, _, stopping, hasRoom_of_length_lt (by decide), rfl, rfl, rfl, rfl, rfl, ?_, ?_,
      ?_, ?_⟩
    · decide +kernel
    · decide +kernel
    · decide +kernel
    · decide +kernel
  have hunderway : Underway history p [lateUser] := by
    refine ⟨fun id key options request hmem => ?_, fun id hpos hlt => ?_⟩
    · cases List.mem_singleton.mp hmem
      rw [hasked]
      decide
    · rw [hnext] at hlt
      rw [hasked]
      have hcases : ∀ n : Nat, 0 < n → n < 5 → n ∈ [1, 2, 3] ∨ n = 4 := by
        intro n hpos hlt
        simp only [List.mem_cons, List.not_mem_nil, or_false]
        omega
      rcases hcases id hpos hlt with hold | rfl
      · exact .inr (.inl hold)
      · exact .inr (.inr ⟨lateUser, List.mem_singleton_self _, rfl, nofun⟩)
  exact ⟨history, p, x, effects, run, hroom, hstopping, hasked, hstopped, hlast,
    stopping_settles_everything run hrunning hunderway hx, hfirst, hothers⟩

end TwoCalls

end RemoteCall.Pool
