/-
  RemoteCall.Proofs.Pool.Closing
  ──────────────────────────────
  **A POOL CLOSES, WHATEVER ITS USERS DO MEANWHILE.**

  Left alone, the accesses of a pool that closes add up to `Pool.teardown`, and
  those of a user to `Pool.call` and `Pool.cancel`.  So the machine of
  `Pool.Closing` is the pool, taken apart into accesses.

  However the accesses follow each other:

      recorded   — only that the pool is gone, what an observer says that gives
                   up the call, or that its request cannot be sent
      effects    — only attempts given up and streams closed
      open calls — are held by a connection, leave one, are in the queue, or are
                   still being issued by a user

  Main statements:
    • `teardown_alone`, `call_alone`, `cancel_alone` — one party alone,
    • `Closing.tells_after`   — what is recorded,
    • `Closing.holds_act`     — one access forgets no call,
    • `Closing.work_after`    — how long it takes.
-/
import Mathlib.Algebra.GroupWithZero.Nat
import RemoteCall.Pool.Closing
import RemoteCall.Proofs.Pool.Verdicts

namespace RemoteCall.Pool

variable {p q : Pool} {x y z : Closing} {sent more : List Effect}

/-! ## §1. One party alone. -/

/-- From `x` the pool comes to `y` by accesses of its own. -/
def Closing.Alone (x : Closing) (effects : List Effect) (y : Closing) : Prop :=
  ∃ n, x.after (List.replicate n .own) = (y, effects)

theorem Closing.Alone.refl (x : Closing) : Alone x [] x :=
  ⟨0, rfl⟩

theorem Closing.Alone.step (hown : x.own = (y, sent)) (h : Alone y more z) :
    Alone x (sent ++ more) z := by
  obtain ⟨n, hn⟩ := h
  refine ⟨n + 1, ?_⟩
  show (((x.own).1.after (List.replicate n .own)).1,
    (x.own).2 ++ ((x.own).1.after (List.replicate n .own)).2) = _
  rw [hown, hn]

/-- An access that the outside does not notice. -/
theorem Closing.Alone.quiet (hown : x.own = (y, [])) (h : Alone y more z) : Alone x more z := by
  have hstep := Alone.step hown h
  exact hstep

section Alone

variable {users : List User}

/-- A pool that has closed its queue and has not stopped goes on. -/
theorem Closing.own_of_closed (hrunning : x.pool.stopped = false)
    (hclosed : x.pool.accepting = false) : x.own = x.proceed := by
  unfold own
  rw [hrunning, hclosed, if_neg Bool.false_ne_true, if_neg Bool.false_ne_true]

/-- The calls that leave are told one after the other. -/
theorem Closing.Alone.leave {calls : List PendingCall} (hrunning : p.stopped = false)
    (hclosed : p.accepting = false)
    (h : Alone
      { pool := { p with ledger := p.ledger.failAll (calls.map (·.id)) .disconnected }, users }
      more z) :
    Alone { pool := p, leaving := calls, users } more z := by
  induction calls generalizing p with
  | nil => exact h
  | cons call rest ih =>
    have hown := own_of_closed (x := { pool := p, leaving := call :: rest, users }) hrunning hclosed
    exact Alone.quiet hown (ih (p := p.fail call.id .disconnected) hrunning hclosed h)

/-- The connections are given up one after the other. -/
theorem Closing.Alone.abandon {cs : List Connection} (hrunning : p.stopped = false)
    (hclosed : p.accepting = false)
    (h : Alone
      { pool :=
          { p with
            connections := []
            ledger := cs.foldl (fun l c => (c.abandon l).1) p.ledger }
        users } more z) :
    Alone { pool := { p with connections := cs }, users } (cs.flatMap (·.leave) ++ more) z := by
  induction cs generalizing p with
  | nil => exact h
  | cons c rest ih =>
    have hown := own_of_closed (x := { pool := { p with connections := c :: rest }, users })
      hrunning hclosed
    rw [List.flatMap_cons, List.append_assoc]
    refine Alone.step hown (Alone.leave hrunning hclosed ?_)
    exact ih (p := { p with ledger := (c.abandon p.ledger).1 }) hrunning hclosed h

/-- The commands that are left are taken one after the other. -/
theorem Closing.Alone.drain (hrunning : p.stopped = false) (hclosed : p.accepting = false)
    (hnone : p.connections = []) (h : Alone { pool := p.drainQueue, users } more z) :
    Alone { pool := p, users } more z := by
  obtain ⟨config, nextCall, ledger, commands, accepting, notices, subscription, stopping, stopped,
    connections⟩ := p
  dsimp only at hrunning hclosed hnone
  subst hrunning hclosed hnone
  induction commands generalizing ledger with
  | nil => exact h
  | cons first rest ih =>
    cases first with
    | call key call => exact Alone.quiet (own_of_closed rfl rfl) (ih _ h)
    | abort id => exact Alone.quiet (own_of_closed rfl rfl) (ih _ h)
    | acquire key => exact Alone.quiet (own_of_closed rfl rfl) (ih _ h)
    | release key => exact Alone.quiet (own_of_closed rfl rfl) (ih _ h)

end Alone

/-- What the connections leave behind when all are given up. -/
theorem effects_abandonAll (p : Pool) : p.abandonAll.2 = p.connections.flatMap (·.leave) := by
  have hfold : ∀ (cs : List Connection) (l : Ledger) (sent : List Effect),
      (cs.foldl (fun (acc : Ledger × List Effect) (c : Connection) =>
        ((c.abandon acc.1).1, acc.2 ++ (c.abandon acc.1).2)) (l, sent)).2
        = sent ++ cs.flatMap (·.leave) := by
    intro cs
    induction cs with
    | nil => exact fun _ sent => (List.append_nil sent).symm
    | cons c rest ih =>
      intro l sent
      rw [List.flatMap_cons, ← List.append_assoc]
      exact ih _ _
  exact hfold p.connections p.ledger []

/-- **Left alone, a pool that closes does what `Pool.teardown` says.** -/
theorem teardown_alone (hrunning : p.stopped = false) (haccepting : p.accepting = true)
    (users : List User) :
    Closing.Alone { pool := p, users } p.teardown.2 { pool := p.teardown.1, users } := by
  have hclose : ({ pool := p, users } : Closing).own = ({ pool := p.closeQueue, users }, []) := by
    unfold Closing.own
    rw [hrunning, haccepting, if_neg Bool.false_ne_true, if_pos rfl]
  have habandoned : p.closeQueue.abandonAll.1
      = { p.closeQueue with
          connections := []
          ledger := p.connections.foldl (fun l c => (c.abandon l).1) p.ledger } :=
    congrArg (fun l => { p.closeQueue with connections := [], ledger := l })
      (ledger_abandonAll p.closeQueue)
  have hend : Closing.Alone { pool := p.closeQueue.abandonAll.1.drainQueue, users }
      (p.notices.flatMap dropNotice ++ []) { pool := p.teardown.1, users } :=
    .step (Closing.own_of_closed hrunning rfl) (.refl _)
  rw [List.append_nil] at hend
  rw [habandoned] at hend
  have habandon := Closing.Alone.abandon (p := p.closeQueue) hrunning rfl
    (.drain hrunning rfl rfl hend)
  have hteardown : p.teardown.2
      = p.closeQueue.abandonAll.2 ++ p.notices.flatMap dropNotice := rfl
  rw [hteardown, effects_abandonAll]
  exact Closing.Alone.quiet hclose habandon

/-! The users. -/

theorem Closing.after_cons (x : Closing) (act : Act) (rest : List Act) :
    x.after (act :: rest)
      = (((x.act act).1.after rest).1, (x.act act).2 ++ ((x.act act).1.after rest).2) := rfl

theorem Closing.after_append (x : Closing) (acts more : List Act) :
    (x.after (acts ++ more)).1 = ((x.after acts).1.after more).1 := by
  induction acts generalizing x with
  | nil => rfl
  | cons act rest ih => exact ih _

/-- The last of the users has an access. -/
theorem Closing.act_last (p : Pool) (leaving : List PendingCall) (users : List User) (user : User) :
    Closing.act { pool := p, leaving, users := users ++ [user] } (.user users.length)
      = ({ pool := (user.access p).1, leaving, users := users ++ [(user.access p).2] }, []) := by
  unfold act
  dsimp only
  rw [List.getElem?_append_right (Nat.le_refl _), Nat.sub_self]
  dsimp only [List.getElem?_cons_zero]
  rw [List.set_append_right _ _ (Nat.le_refl _), Nat.sub_self]
  rfl

/-- Several accesses of a user, with no others in between. -/
def User.accesses : Nat → Pool → User → Pool × User
  | 0, p, user => (p, user)
  | n + 1, p, user => accesses n (user.access p).1 (user.access p).2

theorem Closing.after_last (n : Nat) (p : Pool) (leaving : List PendingCall) (users : List User)
    (user : User) :
    Closing.after { pool := p, leaving, users := users ++ [user] }
        (List.replicate n (.user users.length))
      = ({ pool := (user.accesses n p).1, leaving, users := users ++ [(user.accesses n p).2] },
          []) := by
  induction n generalizing p user with
  | zero => rfl
  | succ n ih =>
    rw [List.replicate_succ, after_cons, act_last, ih]
    rfl

/-- **Left alone, a user that issues a call does what `Pool.call` says.** -/
theorem call_alone (x : Closing) (key : ConnectionKey) (options : CallOptions)
    (request : Payload.Outgoing) (response : Payload.Shape) :
    x.after (.issue key options request response :: List.replicate 3 (.user x.users.length))
      = ({ x with
            pool := (x.pool.call key options request response).1
            users := x.users ++ [.issues x.pool.nextCall key options request .done] }, []) := by
  have hcall : (User.issues x.pool.nextCall key options request .begun).accesses 3
        { x.pool with
          nextCall := x.pool.nextCall + 1
          ledger := x.pool.ledger.issue x.pool.nextCall response }
      = ((x.pool.call key options request response).1,
          .issues x.pool.nextCall key options request .done) := by
    unfold Pool.call
    unfold User.accesses User.access write
    dsimp only
    cases request.encode with
    | error e => rfl
    | ok bytes =>
      dsimp only
      generalize checkSize _ bytes = checked
      cases checked with
      | error e => rfl
      | ok _ =>
        unfold send
        dsimp only [Except.map]
        cases x.pool.accepting with
        | true => rfl
        | false => rfl
  rw [Closing.after_cons]
  dsimp only [Closing.act]
  rw [Closing.after_last, hcall]
  rfl

/-- **Left alone, a user that gives up a call does what `Pool.cancel` says.** -/
theorem cancel_alone (x : Closing) (id : CallId) (late : Bool) :
    x.after (.withdraw id late :: List.replicate 2 (.user x.users.length))
      = ({ x with
            pool := x.pool.cancel id (withdrawal late)
            users := x.users ++ [.withdraws id late .done] }, []) := by
  have hcancel : (User.withdraws id late .begun).accesses 2 x.pool
      = (x.pool.cancel id (withdrawal late), .withdraws id late .done) := by
    unfold Pool.cancel
    unfold User.accesses User.access
    dsimp only
    rcases x.pool.ledger.cancel id (withdrawal late) with ⟨ledger, _ | _⟩
    · rfl
    · rfl
  rw [Closing.after_cons]
  dsimp only [Closing.act]
  rw [Closing.after_last, hcancel]
  rfl

/-! ## §2. One access. -/

/-- What one access of the pool may do. -/
inductive Closing.Owns (x : Closing) : Closing → List Effect → Prop where
  | rests : x.pool.stopped = true → Owns x x []
  | closes : x.pool.stopped = false → x.pool.accepting = true →
      Owns x { x with pool := x.pool.closeQueue } []
  | tells {call : PendingCall} {rest : List PendingCall} :
      x.pool.stopped = false → x.pool.accepting = false → x.leaving = call :: rest →
        Owns x { x with pool := x.pool.fail call.id .disconnected, leaving := rest } []
  | abandons {c : Connection} {rest : List Connection} :
      x.pool.stopped = false → x.pool.accepting = false → x.leaving = [] →
        x.pool.connections = c :: rest →
          Owns x
            { x with
              pool := { x.pool with connections := rest }
              leaving := c.waiting ++ c.inFlight } c.leave
  | takes {first : Command} {rest : List Command} :
      x.pool.stopped = false → x.pool.accepting = false → x.leaving = [] →
        x.pool.connections = [] → x.pool.commands = first :: rest →
          Owns x { x with pool := { x.pool with commands := rest }.tellCommand first } []
  | ends :
      x.pool.stopped = false → x.pool.accepting = false → x.leaving = [] →
        x.pool.connections = [] → x.pool.commands = [] →
          Owns x { x with pool := { x.pool with notices := [], stopped := true } }
            (x.pool.notices.flatMap dropNotice)

/-- The list is complete. -/
theorem Closing.owns (x : Closing) : x.Owns x.own.1 x.own.2 := by
  cases hstopped : x.pool.stopped with
  | true =>
    unfold own
    rw [if_pos hstopped]
    exact .rests hstopped
  | false =>
    cases haccepting : x.pool.accepting with
    | true =>
      unfold own
      rw [hstopped, if_neg Bool.false_ne_true, if_pos haccepting]
      exact .closes hstopped haccepting
    | false =>
      rw [own_of_closed hstopped haccepting]
      unfold proceed
      split
      · next hleaving => exact .tells hstopped haccepting hleaving
      · next hleaving hconnections => exact .abandons hstopped haccepting hleaving hconnections
      · next hleaving hconnections hcommands =>
        exact .takes hstopped haccepting hleaving hconnections hcommands
      · next hleaving hconnections hcommands =>
        exact .ends hstopped haccepting hleaving hconnections hcommands

/-- What is told through a command changes only the ledger. -/
theorem tellCommand_eq (p : Pool) (first : Command) :
    p.tellCommand first = { p with ledger := (p.tellCommand first).ledger } := by
  cases first <;> rfl

/-- From `p` to `q`, users have had an access: something has been recorded, or queued as long as the
queue is open. -/
structure Used (p q : Pool) : Prop where
  config : q.config = p.config
  connections : q.connections = p.connections
  accepting : q.accepting = p.accepting
  stopped : q.stopped = p.stopped
  queue : q.commands = p.commands
    ∨ p.accepting = true ∧ ∃ first, q.commands = p.commands ++ [first]

theorem Used.refl (p : Pool) : Used p p :=
  ⟨rfl, rfl, rfl, rfl, .inl rfl⟩

theorem used_send (p : Pool) (first : Command) : Used p (p.send first).1 := by
  unfold send
  split
  · next haccepting => exact ⟨rfl, rfl, rfl, rfl, .inr ⟨haccepting, first, rfl⟩⟩
  · exact Used.refl p

theorem used_access (p : Pool) (user : User) : Used p (user.access p).1 := by
  unfold User.access
  split
  · split
    · exact ⟨rfl, rfl, rfl, rfl, .inl rfl⟩
    · exact Used.refl p
  · exact used_send p _
  · exact ⟨rfl, rfl, rfl, rfl, .inl rfl⟩
  · exact ⟨rfl, rfl, rfl, rfl, .inl rfl⟩
  · exact used_send p _
  · exact Used.refl p

/-- Whether the pool itself has an access. -/
def Act.isOwn : Act → Bool
  | .own => true
  | _ => false

/-- **What the users do**, the outside does not notice. -/
theorem Closing.used_act (x : Closing) {act : Act} (hact : act.isOwn = false) :
    Used x.pool (x.act act).1.pool ∧ (x.act act).1.leaving = x.leaving ∧ (x.act act).2 = [] := by
  cases act with
  | own => cases hact
  | issue key options request response => exact ⟨⟨rfl, rfl, rfl, rfl, .inl rfl⟩, rfl, rfl⟩
  | withdraw id late => exact ⟨Used.refl _, rfl, rfl⟩
  | user i =>
    unfold Closing.act
    dsimp only
    split
    · exact ⟨used_access x.pool _, rfl, rfl⟩
    · exact ⟨Used.refl _, rfl, rfl⟩
  | acquire key => exact ⟨used_send x.pool _, rfl, rfl⟩
  | release key => exact ⟨used_send x.pool _, rfl, rfl⟩
  | report notice => exact ⟨⟨rfl, rfl, rfl, rfl, .inl rfl⟩, rfl, rfl⟩

/-- **Nothing is sent, and no attempt is started**: attempts are given up, and streams closed. -/
theorem Closing.silent_act (x : Closing) (act : Act) :
    ∀ effect ∈ (x.act act).2, (∃ key generation, effect = .giveUp key generation)
      ∨ ∃ link, effect = .close link := by
  cases hact : act.isOwn with
  | false =>
    rw [(x.used_act hact).2.2]
    exact fun _ hmem => absurd hmem List.not_mem_nil
  | true =>
    cases act with
    | own =>
      intro effect hmem
      have howns := x.owns
      replace hmem : effect ∈ x.own.2 := hmem
      generalize x.own.1 = y at howns
      generalize x.own.2 = sent at howns hmem
      cases howns with
      | rests | closes | tells | takes => exact absurd hmem List.not_mem_nil
      | @abandons c rest =>
        unfold Connection.leave at hmem
        split at hmem
        · exact .inl ⟨_, _, List.mem_singleton.mp hmem⟩
        · exact .inr ⟨_, List.mem_singleton.mp hmem⟩
        · exact absurd hmem List.not_mem_nil
      | ends =>
        obtain ⟨notice, -, hdropped⟩ := List.mem_flatMap.mp hmem
        unfold dropNotice at hdropped
        split at hdropped
        · exact .inr ⟨_, List.mem_singleton.mp hdropped⟩
        · exact absurd hdropped List.not_mem_nil
    | _ => cases hact

theorem Closing.silent_after (x : Closing) (acts : List Act) :
    ∀ effect ∈ (x.after acts).2, (∃ key generation, effect = .giveUp key generation)
      ∨ ∃ link, effect = .close link := by
  induction acts generalizing x with
  | nil => exact fun _ hmem => absurd hmem List.not_mem_nil
  | cons act rest ih =>
    intro effect hmem
    rcases List.mem_append.mp hmem with hnow | hlater
    · exact x.silent_act act effect hnow
    · exact ih _ effect hlater

/-! ## §3. What is recorded. -/

/-- What a user has set to work on, however much of it has been done. -/
def User.task : User → User
  | .issues id key options request _ => .issues id key options request .begun
  | .withdraws id late _ => .withdraws id late .begun

/-- What the users have set to work on. -/
def Closing.tasks (x : Closing) : List User :=
  x.users.map (·.task)

/-- What may be recorded for a call while a pool closes. -/
inductive Closing.Says (x : Closing) (id : CallId) : Failure → Prop where
  /-- The pool is gone. -/
  | gone : Says x id .disconnected
  /-- An observer has given up the call. -/
  | withdrawn {late : Bool} : .withdraws id late .begun ∈ x.tasks → Says x id (withdrawal late)
  /-- The request cannot be sent. -/
  | unsendable {key : ConnectionKey} {options : CallOptions} {request : Payload.Outgoing}
      {e : Failure} :
    .issues id key options request .begun ∈ x.tasks → x.pool.write request = .error e →
      Says x id e

/-- What can be sent depends on the settings alone. -/
theorem write_of_config (h : q.config = p.config) (request : Payload.Outgoing) :
    q.write request = p.write request := by
  unfold write checkSize
  rw [h]

theorem Closing.Says.mono (hconfig : y.pool.config = x.pool.config)
    (htasks : ∀ user ∈ x.tasks, user ∈ y.tasks) {id : CallId} {e : Failure} (h : x.Says id e) :
    y.Says id e := by
  cases h with
  | gone => exact .gone
  | withdrawn hmem => exact .withdrawn (htasks _ hmem)
  | unsendable hmem hwrite => exact .unsendable (htasks _ hmem) (write_of_config hconfig _ ▸ hwrite)

/-- An access of a user does not change its task. -/
theorem task_access (p : Pool) (user : User) : (user.access p).2.task = user.task := by
  unfold User.access
  split
  · split <;> rfl
  · rfl
  · rfl
  · rfl
  · rfl
  · rfl

theorem tells_access (x : Closing) {user : User} (hmem : user.task ∈ x.tasks) :
    Ledger.Tells x.Says x.pool.ledger (user.access x.pool).1.ledger := by
  unfold User.access
  split
  · split
    · next hwrite => exact Ledger.tells_fail (.unsendable hmem hwrite) _
    · exact .refl _
  · exact (ledger_send _ _).symm ▸ .refl _
  · exact Ledger.tells_fail .gone _
  · dsimp only
    rw [Ledger.cancel_fst]
    exact Ledger.tells_fail (.withdrawn hmem) _
  · exact (ledger_send _ _).symm ▸ .refl _
  · exact .refl _

/-- What a user sets to work on now. -/
def Closing.joins (x : Closing) : Act → List User
  | .issue key options request _ => [.issues x.pool.nextCall key options request .begun]
  | .withdraw id late => [.withdraws id late .begun]
  | _ => []

/-- No task that was set to work on is forgotten. -/
theorem Closing.tasks_act (x : Closing) (act : Act) :
    (x.act act).1.tasks = x.tasks ++ x.joins act := by
  cases act with
  | own =>
    show x.own.1.tasks = x.tasks ++ []
    rw [List.append_nil]
    have howns := x.owns
    generalize x.own.1 = y at *
    generalize x.own.2 = sent at *
    cases howns <;> rfl
  | issue key options request response | withdraw id late =>
    show (x.users ++ [_]).map _ = _
    rw [List.map_append]
    rfl
  | user i =>
    rw [show x.joins (.user i) = [] from rfl, List.append_nil]
    unfold Closing.act
    dsimp only
    split
    · next user huser =>
      -- the task of the user that has the access is the same afterwards
      obtain ⟨hi, rfl⟩ := List.getElem?_eq_some_iff.mp huser
      show (x.users.set i (x.users[i].access x.pool).2).map (·.task) = x.users.map (·.task)
      rw [List.map_set, task_access, ← List.getElem_map (h := by simpa using hi) User.task,
        List.set_getElem_self]
    · rfl
  | acquire _ | release _ | report _ => exact (List.append_nil _).symm

/-- The settings stay. -/
theorem Closing.config_act (x : Closing) (act : Act) :
    (x.act act).1.pool.config = x.pool.config := by
  cases hact : act.isOwn with
  | false => exact (x.used_act hact).1.config
  | true =>
    cases act with
    | own =>
      show x.own.1.pool.config = x.pool.config
      have howns := x.owns
      generalize x.own.1 = y at *
      generalize x.own.2 = sent at *
      cases howns with
      | takes => rw [tellCommand_eq]
      | _ => rfl
    | _ => cases hact

/-- What may be recorded may be recorded later. -/
theorem Closing.Says.act {id : CallId} {e : Failure} (h : x.Says id e) (act : Act) :
    (x.act act).1.Says id e := by
  refine h.mono (x.config_act act) fun user hmem => ?_
  rw [x.tasks_act act]
  exact List.mem_append_left _ hmem

theorem Closing.Says.after {id : CallId} {e : Failure} (h : x.Says id e) (acts : List Act) :
    (x.after acts).1.Says id e := by
  induction acts generalizing x with
  | nil => exact h
  | cons act rest ih => exact ih (h.act act)

/-- **One access records only what may be recorded.** -/
theorem Closing.tells_act (x : Closing) (act : Act) :
    Ledger.Tells (x.act act).1.Says x.pool.ledger (x.act act).1.pool.ledger := by
  cases act with
  | own =>
    show Ledger.Tells x.own.1.Says x.pool.ledger x.own.1.pool.ledger
    have howns := x.owns
    generalize x.own.1 = y at *
    generalize x.own.2 = sent at *
    cases howns with
    | tells => exact Ledger.tells_fail .gone _
    | @takes first rest =>
      cases first with
      | call key call => exact Ledger.tells_fail .gone _
      | _ => exact .refl _
    | _ => exact .refl _
  | issue key options request response => exact Ledger.tells_issue _ _ _
  | withdraw id late => exact .refl _
  | user i =>
    refine Ledger.Tells.mono (P := x.Says) ?_ fun hsays => hsays.act (.user i)
    unfold Closing.act
    dsimp only
    split
    · next user huser =>
      exact tells_access x (List.mem_map_of_mem (List.mem_of_getElem? huser))
    · exact .refl _
  | acquire key | release key =>
    show Ledger.Tells _ x.pool.ledger (x.pool.send _).1.ledger
    rw [ledger_send]
    exact .refl _
  | report notice => exact .refl _

theorem Closing.tells_after (x : Closing) (acts : List Act) :
    Ledger.Tells (x.after acts).1.Says x.pool.ledger (x.after acts).1.pool.ledger := by
  induction acts generalizing x with
  | nil => exact .refl _
  | cons act rest ih =>
    exact ((x.tells_act act).mono fun hsays => hsays.after rest).trans (ih _)

/-! ## §4. No call is forgotten. -/

/-- Where a call without an outcome is. -/
inductive Closing.Holds (x : Closing) (id : CallId) : Prop where
  /-- A connection holds it. -/
  | held : id ∈ (held x.pool.connections).map (·.2.id) → Holds x id
  /-- It leaves a connection. -/
  | leaving : id ∈ x.leaving.map (·.id) → Holds x id
  /-- It is asked for in the queue. -/
  | queued : id ∈ (queued x.pool.commands).map (·.2.id) → Holds x id
  /-- It is being issued. -/
  | issuing {user : User} : user ∈ x.users → user.isAt id → Holds x id

/-- **A user that issues a call** goes on, hands it to the pool, or has a failure for it. -/
theorem isAt_access {user : User} {id : CallId} (hat : user.isAt id)
    (hk : p.ledger.knows id = true) :
    (user.access p).1.ledger.isFinished id = true ∨ (user.access p).2.isAt id
      ∨ p.accepting = true ∧ id ∈ (queued (user.access p).1.commands).map (·.2.id) := by
  cases user with
  | withdraws _ _ _ => exact hat.elim
  | issues own key options request stage =>
    obtain ⟨rfl, hstage⟩ := hat
    cases stage with
    | begun =>
      unfold User.access
      dsimp only
      split
      · exact .inl (Ledger.isFinished_fail_of_knows hk _)
      · exact .inr (.inl ⟨rfl, nofun⟩)
    | written bytes =>
      unfold User.access send
      dsimp only
      split
      · next haccepting =>
        refine .inr (.inr ⟨haccepting, ?_⟩)
        rw [queued_append, List.map_append]
        exact List.mem_append_right _ (List.mem_singleton_self own)
      · exact .inr (.inl ⟨rfl, nofun⟩)
    | refused => exact .inl (Ledger.isFinished_fail_of_knows hk _)
    | done => exact absurd rfl hstage

/-- The same, seen from the pool. -/
theorem Closing.isAt_act {user : User} {id : CallId} (huser : user ∈ x.users)
    (hat : user.isAt id) (hk : x.pool.ledger.knows id = true) (act : Act) :
    (x.act act).1.pool.ledger.isFinished id = true
      ∨ (∃ user ∈ (x.act act).1.users, user.isAt id)
      ∨ x.pool.accepting = true
        ∧ id ∈ (queued (x.act act).1.pool.commands).map (·.2.id) := by
  cases act with
  | own =>
    refine .inr (.inl ⟨user, ?_, hat⟩)
    show user ∈ x.own.1.users
    have howns := x.owns
    generalize x.own.1 = y at *
    generalize x.own.2 = sent at *
    cases howns <;> exact huser
  | issue key options request response | withdraw id late =>
    exact .inr (.inl ⟨user, List.mem_append_left _ huser, hat⟩)
  | user i =>
    unfold Closing.act
    dsimp only
    split
    · next own hown =>
      obtain ⟨j, hj⟩ := List.mem_iff_getElem?.mp huser
      by_cases hij : i = j
      · subst hij
        rw [hown] at hj
        cases hj
        obtain ⟨hi, -⟩ := List.getElem?_eq_some_iff.mp hown
        rcases isAt_access hat hk with hfin | hstill | hqueued
        · exact .inl hfin
        · exact .inr (.inl ⟨_, List.mem_set hi _, hstill⟩)
        · exact .inr (.inr hqueued)
      · refine .inr (.inl ⟨user, List.mem_of_getElem? (i := j) ?_, hat⟩)
        rw [List.getElem?_set_ne hij]
        exact hj
    · exact .inr (.inl ⟨user, huser, hat⟩)
  | acquire key | release key | report notice => exact .inr (.inl ⟨user, huser, hat⟩)

/-- **One access records at most one failure**, or opens the next slot for a call that is issued. -/
theorem Closing.ledger_act (x : Closing) (act : Act) :
    (∃ response, (x.act act).1.pool.ledger = x.pool.ledger.issue x.pool.nextCall response
        ∧ (x.act act).1.pool.nextCall = x.pool.nextCall + 1
        ∧ ∃ user ∈ (x.act act).1.users, user.isAt x.pool.nextCall)
      ∨ (x.act act).1.pool.nextCall = x.pool.nextCall
        ∧ ((x.act act).1.pool.ledger = x.pool.ledger
          ∨ ∃ id e, (x.act act).1.pool.ledger = x.pool.ledger.fail id e) := by
  have hsend : ∀ first, (x.pool.send first).1.nextCall = x.pool.nextCall
      ∧ (x.pool.send first).1.ledger = x.pool.ledger := by
    intro first
    unfold send
    split <;> exact ⟨rfl, rfl⟩
  cases act with
  | own =>
    refine .inr ?_
    show x.own.1.pool.nextCall = _ ∧ (x.own.1.pool.ledger = _ ∨ ∃ id e, x.own.1.pool.ledger = _)
    have howns := x.owns
    generalize x.own.1 = y at *
    generalize x.own.2 = sent at *
    cases howns with
    | tells => exact ⟨rfl, .inr ⟨_, _, rfl⟩⟩
    | @takes first rest =>
      cases first with
      | call key call => exact ⟨rfl, .inr ⟨_, _, rfl⟩⟩
      | _ => exact ⟨rfl, .inl rfl⟩
    | _ => exact ⟨rfl, .inl rfl⟩
  | issue key options request response =>
    refine .inl ⟨response, rfl, rfl,
      .issues x.pool.nextCall key options request .begun, ?_, rfl, nofun⟩
    exact List.mem_append_right _ (List.mem_singleton_self _)
  | user i =>
    refine .inr ?_
    unfold Closing.act
    dsimp only
    split
    · unfold User.access
      split
      · split
        · exact ⟨rfl, .inr ⟨_, _, rfl⟩⟩
        · exact ⟨rfl, .inl rfl⟩
      · exact (hsend _).imp_right .inl
      · exact ⟨rfl, .inr ⟨_, _, rfl⟩⟩
      · exact ⟨rfl, .inr ⟨_, _, Ledger.cancel_fst _ _ _⟩⟩
      · exact (hsend _).imp_right .inl
      · exact ⟨rfl, .inl rfl⟩
    · exact ⟨rfl, .inl rfl⟩
  | acquire key | release key => exact .inr ((hsend _).imp_right .inl)
  | withdraw id late | report notice => exact .inr ⟨rfl, .inl rfl⟩

/-- Numbers only grow. -/
theorem Closing.nextCall_le_act (x : Closing) (act : Act) :
    x.pool.nextCall ≤ (x.act act).1.pool.nextCall := by
  rcases x.ledger_act act with ⟨_, -, hnext, -⟩ | ⟨hnext, -⟩
  · rw [hnext]
    exact Nat.le_succ _
  · exact Nat.le_of_eq hnext.symm

theorem Closing.nextCall_le_after (x : Closing) (acts : List Act) :
    x.pool.nextCall ≤ (x.after acts).1.pool.nextCall := by
  induction acts generalizing x with
  | nil => exact Nat.le_refl _
  | cons act rest ih => exact Nat.le_trans (x.nextCall_le_act act) (ih _)

/-- **A call that is being issued** was so from the start, or has a new number. -/
theorem Closing.issues_after (x : Closing) (acts : List Act) {id : CallId} {key : ConnectionKey}
    {options : CallOptions} {request : Payload.Outgoing}
    (h : .issues id key options request .begun ∈ (x.after acts).1.tasks) :
    .issues id key options request .begun ∈ x.tasks ∨ x.pool.nextCall ≤ id := by
  induction acts generalizing x with
  | nil => exact .inl h
  | cons act rest ih =>
    rcases ih (x.act act).1 h with hmem | hle
    · rw [x.tasks_act act] at hmem
      rcases List.mem_append.mp hmem with hold | hnew
      · exact .inl hold
      · cases act with
        | issue key options request response =>
          cases List.mem_singleton.mp hnew
          exact .inr (Nat.le_refl _)
        | withdraw id late => cases List.mem_singleton.mp hnew
        | _ => exact absurd hnew List.not_mem_nil
    · exact .inr (Nat.le_trans (x.nextCall_le_act act) hle)

/-- The books of a pool that closes. -/
structure Closing.Sound (x : Closing) : Prop where
  /-- Numbers that were given out have slots. -/
  known : ∀ {id}, 0 < id → id < x.pool.nextCall → x.pool.ledger.knows id = true
  /-- Others have none. -/
  fresh : ∀ {id}, x.pool.nextCall ≤ id → x.pool.ledger.get? id = none
  /-- A pool that has stopped has nothing left. -/
  empty : x.pool.stopped = true →
    x.pool.accepting = false ∧ x.leaving = [] ∧ x.pool.connections = [] ∧ x.pool.commands = []

/-- **One access keeps the books.** -/
theorem Closing.Sound.act (h : x.Sound) (act : Act) : (x.act act).1.Sound := by
  have hledger := x.ledger_act act
  refine ⟨fun {id} hpos hlt => ?_, fun {id} hle => ?_, fun hstopped => ?_⟩
  · have hgrows := (x.tells_act act).grows
    rcases hledger with ⟨response, hissued, hnext, -⟩ | ⟨hnext, -⟩
    · rw [hnext] at hlt
      rcases Nat.lt_succ_iff_lt_or_eq.mp hlt with hold | rfl
      · exact hgrows.knows (h.known hpos hold)
      · rw [hissued]
        exact knows_issue _ _ _
    · exact hgrows.knows (h.known hpos (hnext ▸ hlt))
  · rcases hledger with ⟨response, hissued, hnext, -⟩ | ⟨hnext, hsame | ⟨other, e, hfailed⟩⟩
    · rw [hnext] at hle
      rw [hissued, Ledger.get?_issue_of_ne _ (Nat.ne_of_gt hle)]
      exact h.fresh (Nat.le_of_succ_le hle)
    · rw [hsame]
      exact h.fresh (hnext ▸ hle)
    · rw [hfailed]
      exact Ledger.get?_fail_of_none (h.fresh (hnext ▸ hle)) other e
  · cases hact : act.isOwn with
    | false =>
      obtain ⟨hused, hleaving, -⟩ := x.used_act hact
      rw [hused.stopped] at hstopped
      obtain ⟨haccepting, hnobody, hnone, hempty⟩ := h.empty hstopped
      refine ⟨hused.accepting.trans haccepting, hleaving.trans hnobody,
        hused.connections.trans hnone, ?_⟩
      rcases hused.queue with hsame | ⟨hopen, -⟩
      · exact hsame.trans hempty
      · rw [haccepting] at hopen
        cases hopen
    | true =>
      cases act with
      | own =>
        show x.own.1.pool.accepting = false ∧ x.own.1.leaving = [] ∧ _ ∧ _
        replace hstopped : x.own.1.pool.stopped = true := hstopped
        have howns := x.owns
        show _ ∧ _ ∧ x.own.1.pool.connections = [] ∧ x.own.1.pool.commands = []
        generalize x.own.1 = y at *
        generalize x.own.2 = sent at *
        cases howns with
        | rests hstopped => exact h.empty hstopped
        | ends _ haccepting hleaving hconnections hcommands =>
          exact ⟨haccepting, hleaving, hconnections, hcommands⟩
        | takes hrunning =>
          rw [tellCommand_eq] at hstopped
          cases hrunning.symm.trans hstopped
        | closes hrunning | tells hrunning | abandons hrunning =>
          cases hrunning.symm.trans hstopped
      | _ => cases hact

theorem Closing.Holds.of_eq {id : CallId} (h : x.Holds id)
    (hconnections : y.pool.connections = x.pool.connections) (hleaving : y.leaving = x.leaving)
    (hcommands : y.pool.commands = x.pool.commands) (husers : y.users = x.users) :
    y.Holds id := by
  cases h with
  | held hmem => exact .held (hconnections ▸ hmem)
  | leaving hmem => exact .leaving (hleaving ▸ hmem)
  | queued hmem => exact .queued (hcommands ▸ hmem)
  | issuing huser hat => exact .issuing (husers ▸ huser) hat

/-- **One access forgets no call.** -/
theorem Closing.holds_act (act : Act) {id : CallId} (hk : x.pool.ledger.knows id = true)
    (hholds : x.Holds id) :
    (x.act act).1.pool.ledger.isFinished id = true ∨ (x.act act).1.Holds id := by
  cases hact : act.isOwn with
  | false =>
    obtain ⟨hused, hleaving, -⟩ := x.used_act hact
    cases hholds with
    | held hmem =>
      rw [← hused.connections] at hmem
      exact .inr (.held hmem)
    | leaving hmem =>
      rw [← hleaving] at hmem
      exact .inr (.leaving hmem)
    | queued hmem =>
      refine .inr (.queued ?_)
      rcases hused.queue with hsame | ⟨-, first, hqueued⟩
      · rw [hsame]
        exact hmem
      · rw [hqueued, queued_append, List.map_append]
        exact List.mem_append_left _ hmem
    | issuing huser hat =>
      rcases isAt_act huser hat hk act with hfin | ⟨user, huser, hat⟩ | ⟨-, hqueued⟩
      · exact .inl hfin
      · exact .inr (.issuing huser hat)
      · exact .inr (.queued hqueued)
  | true =>
    cases act with
    | own =>
      show x.own.1.pool.ledger.isFinished id = true ∨ x.own.1.Holds id
      have howns := x.owns
      generalize x.own.1 = y at *
      generalize x.own.2 = sent at *
      cases howns with
      | rests | closes | ends => exact .inr (hholds.of_eq rfl rfl rfl rfl)
      | tells _ _ hleaving =>
        cases hholds with
        | held hmem => exact .inr (.held hmem)
        | leaving hmem =>
          rw [hleaving] at hmem
          rcases List.mem_cons.mp hmem with rfl | hrest
          · exact .inl (Ledger.isFinished_fail_of_knows hk _)
          · exact .inr (.leaving hrest)
        | queued hmem => exact .inr (.queued hmem)
        | issuing huser hat => exact .inr (.issuing huser hat)
      | @abandons c rest _ _ hleaving hconnections =>
        cases hholds with
        | held hmem =>
          rw [hconnections, held_cons, List.map_append] at hmem
          rcases List.mem_append.mp hmem with hown | hrest
          · -- the calls that the connection held leave it
            rw [List.map_map] at hown
            exact .inr (.leaving ((List.perm_append_comm.map _).subset hown))
          · exact .inr (.held hrest)
        | leaving hmem =>
          rw [hleaving] at hmem
          exact absurd hmem List.not_mem_nil
        | queued hmem => exact .inr (.queued hmem)
        | issuing huser hat => exact .inr (.issuing huser hat)
      | @takes first rest _ _ hleaving hconnections hcommands =>
        have hsame := tellCommand_eq { x.pool with commands := rest } first
        cases hholds with
        | held hmem =>
          rw [hconnections] at hmem
          exact absurd hmem List.not_mem_nil
        | leaving hmem => exact .inr (.leaving hmem)
        | queued hmem =>
          rw [hcommands] at hmem
          have hrest : id ∈ (Pool.queued rest).map (·.2.id) → Closing.Holds
              { x with pool := { x.pool with commands := rest }.tellCommand first } id := by
            intro hmem
            rw [hsame]
            exact .queued hmem
          cases first with
          | call key call =>
            rcases List.mem_cons.mp hmem with rfl | hmem
            · exact .inl (Ledger.isFinished_fail_of_knows hk _)
            · exact .inr (hrest hmem)
          | _ => exact .inr (hrest hmem)
        | issuing huser hat => exact .inr (.issuing huser hat)
    | _ => cases hact

theorem Closing.Sound.after (h : x.Sound) (acts : List Act) : (x.after acts).1.Sound := by
  induction acts generalizing x with
  | nil => exact h
  | cons act rest ih => exact ih (h.act act)

/-- What holds of each number as soon as it is given out, and is kept by each access as long as the
call has no outcome, holds of all numbers that have none. -/
theorem Closing.keeps_after (good : Closing → Prop) (keeps : Closing → CallId → Prop)
    {first : CallId} (hpos : 0 < first) (hsound : ∀ {y : Closing}, good y → y.Sound)
    (hgood : ∀ {y : Closing}, good y → ∀ act : Act, good (y.act act).1)
    (hact : ∀ {y : Closing}, good y → ∀ (act : Act) {id}, y.pool.ledger.knows id = true →
      keeps y id → (y.act act).1.pool.ledger.isFinished id = true ∨ keeps (y.act act).1 id)
    (hnew : ∀ {y : Closing} {user : User} {id : CallId}, user ∈ y.users → user.isAt id →
      keeps y id)
    (hx : good x) (hstart : ∀ {id}, first ≤ id → id < x.pool.nextCall →
      x.pool.ledger.isFinished id = true ∨ keeps x id)
    (acts : List Act) {id : CallId} (hle : first ≤ id)
    (hlt : id < (x.after acts).1.pool.nextCall) :
    (x.after acts).1.pool.ledger.isFinished id = true ∨ keeps (x.after acts).1 id := by
  induction acts generalizing x with
  | nil => exact hstart hle hlt
  | cons act rest ih =>
    refine ih (hgood hx act) (fun {id} hle hlt' => ?_) hlt
    replace hlt' : id < (x.act act).1.pool.nextCall := hlt'
    have hold : id < x.pool.nextCall →
        (x.act act).1.pool.ledger.isFinished id = true ∨ keeps (x.act act).1 id := by
      intro hlt
      rcases hstart hle hlt with hfin | hkeeps
      · exact .inl ((x.tells_act act).grows.isFinished hfin)
      · exact hact hx act ((hsound hx).known (Nat.lt_of_lt_of_le hpos hle) hlt) hkeeps
    rcases x.ledger_act act with ⟨_, -, hnext, user, huser, hat⟩ | ⟨hnext, -⟩
    · rw [hnext] at hlt'
      rcases Nat.lt_succ_iff_lt_or_eq.mp hlt' with hlt' | rfl
      · exact hold hlt'
      · exact .inr (hnew huser hat)
    · exact hold (hnext ▸ hlt')

/-! ## §5. It comes to an end. -/

/-- What is left to do for a pool whose queue is closed. -/
def Closing.work (x : Closing) : Nat :=
  if x.pool.stopped then 0
  else x.leaving.length + (x.pool.connections.map (·.calls.length + 1)).sum
    + x.pool.commands.length + 1

theorem Closing.work_of_running (hrunning : x.pool.stopped = false) :
    x.work = x.leaving.length + (x.pool.connections.map (·.calls.length + 1)).sum
      + x.pool.commands.length + 1 := by
  unfold work
  rw [hrunning, if_neg Bool.false_ne_true]

/-- A pool with nothing left to do has stopped. -/
theorem Closing.stopped_of_work (h : x.work = 0) : x.pool.stopped = true := by
  cases hstopped : x.pool.stopped with
  | true => rfl
  | false =>
    rw [work_of_running hstopped] at h
    cases h

/-- **Each access of the pool** leaves less to do, and no other access makes it more. -/
theorem Closing.work_act (hclosed : x.pool.accepting = false) (act : Act) :
    (x.act act).1.pool.accepting = false
      ∧ (x.act act).1.work = x.work - if act.isOwn then 1 else 0 := by
  cases hact : act.isOwn with
  | false =>
    obtain ⟨hused, hleaving, -⟩ := x.used_act hact
    refine ⟨hused.accepting.trans hclosed, ?_⟩
    have hcommands : (x.act act).1.pool.commands = x.pool.commands := by
      rcases hused.queue with hsame | ⟨hopen, -⟩
      · exact hsame
      · rw [hclosed] at hopen
        cases hopen
    unfold work
    rw [hused.stopped, hleaving, hused.connections, hcommands]
    rfl
  | true =>
    cases act with
    | own =>
      show x.own.1.pool.accepting = false ∧ x.own.1.work = x.work - 1
      have howns := x.owns
      generalize x.own.1 = y at *
      generalize x.own.2 = sent at *
      cases howns with
      | rests hstopped =>
        refine ⟨hclosed, ?_⟩
        unfold work
        rw [if_pos hstopped]
      | closes _ haccepting =>
        rw [hclosed] at haccepting
        cases haccepting
      | tells hrunning _ hleaving =>
        refine ⟨hclosed, ?_⟩
        simp only [work, fail, hrunning, hleaving, Bool.false_eq_true, if_false, List.length_cons]
        omega
      | abandons hrunning _ hleaving hconnections =>
        -- a connection counts for one more than the calls that leave it
        refine ⟨hclosed, ?_⟩
        simp only [work, hrunning, hleaving, hconnections, Bool.false_eq_true, if_false,
          List.map_cons, List.sum_cons, List.length_nil, List.length_append, Connection.calls]
        omega
      | takes hrunning _ hleaving hconnections hcommands =>
        rw [tellCommand_eq]
        refine ⟨hclosed, ?_⟩
        simp only [work, hrunning, hleaving, hconnections, hcommands, Bool.false_eq_true, if_false,
          List.length_cons]
        omega
      | ends hrunning _ hleaving hconnections hcommands =>
        refine ⟨hclosed, ?_⟩
        simp [work, hrunning, hleaving, hconnections, hcommands]
    | _ => cases hact

theorem Closing.work_after (hclosed : x.pool.accepting = false) (acts : List Act) :
    (x.after acts).1.work = x.work - acts.countP (·.isOwn) := by
  induction acts generalizing x with
  | nil => rfl
  | cons act rest ih =>
    obtain ⟨hstill, hwork⟩ := work_act hclosed act
    rw [after_cons]
    rw [ih hstill, hwork, List.countP_cons]
    omega

end RemoteCall.Pool
