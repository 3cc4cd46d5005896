/-
  RemoteCall.Proofs.Pool.Handles
  ──────────────────────────────
  **HANDLES THAT ARE TAKEN AND DROPPED.**

  A handle says to the pool that it was taken before it can be used, whether it
  comes from connecting or from another handle, and says when it is dropped.
  The pool hears of it later, and in between the connection may have been
  removed and made anew.  Nothing is lost all the same:

      number of handles  ──  commands in the queue  ──▶  handles alive
              3              taken, dropped, dropped           2

  Going through the queue from the number that the connection has never passes
  below zero, and ends at the number of the handles that are alive
  (`Run.handles_counted`).  Below zero a drop would go unnoticed, since the pool
  lets it pass.

  Main statements:
    • `Run.handles_counted`       — the queue leads to the handles alive,
    • `Run.acquired_eq`           — what has been heard of adds up,
    • `handle_references_balance` — the whole.
-/
import RemoteCall.Proofs.Pool.Reaping

namespace RemoteCall

namespace Command

variable {key : ConnectionKey} {first : Command} {n count : Nat}

/-! ## §1. Counting along the queue. -/

/-- The number of handles on the connection for a key after a command.  There is none if a handle is
dropped that was not counted. -/
def counts (key : ConnectionKey) (n : Nat) : Command → Option Nat
  | .acquire other => some (if other = key then n + 1 else n)
  | .release other => if other = key then if n = 0 then none else some (n - 1) else some n
  | _ => some n

theorem counts_acquire (key other : ConnectionKey) (handles : List ConnectionKey) :
    counts key (handles.count key) (.acquire other) = some ((other :: handles).count key) := by
  dsimp only [counts]
  by_cases heq : other = key
  · rw [if_pos heq, heq, List.count_cons_self]
  · rw [if_neg heq, List.count_cons_of_ne heq]

theorem counts_release (key : ConnectionKey) {other : ConnectionKey} {handles : List ConnectionKey}
    (halive : other ∈ handles) :
    counts key (handles.count key) (.release other) = some ((handles.erase other).count key) := by
  dsimp only [counts]
  by_cases heq : other = key
  · subst heq
    have hpos : 0 < handles.count other := List.count_pos_iff.mpr halive
    rw [if_pos rfl, if_neg (Nat.ne_of_gt hpos), List.count_erase_self]
  · rw [if_neg heq, List.count_erase_of_ne (Ne.symm heq)]

theorem pos_of_counts_release (h : counts key n (.release key) = some count) : 0 < n := by
  dsimp only [counts] at h
  rw [if_pos rfl] at h
  split at h
  · cases h
  · next hpos => exact Nat.pos_of_ne_zero hpos

end Command

open Connection

namespace Pool

variable {config : PoolConfig} {history earlier later : List Moment} {p : Pool} {m : Moment}
  {event : Event} {key : ConnectionKey} {first : Command} {handles : List ConnectionKey}
  {env : Surroundings} {now : Time} {c : Connection} {u : Usage}

/-- Where counting goes on, the pool counts the same. -/
theorem handles_uses_of_counts {n : Nat} (h : first.counts key u.handles = some n) :
    ((Event.look env now (.command first)).uses key u).handles = n := by
  cases first with
  | call _ _ | abort _ => exact Option.some.inj h
  | acquire other =>
    rw [← Option.some.inj h]
    dsimp only [Event.uses]
    split <;> rfl
  | release other =>
    dsimp only [Command.counts] at h
    dsimp only [Event.uses]
    split at h
    · next heq =>
      split at h
      · cases h
      · rw [if_pos heq]
        exact Option.some.inj h
    · next hne =>
      rw [if_neg hne]
      exact Option.some.inj h

/-! ## §2. The handles that are alive. -/

/-- The handles that are alive after a moment, each by the key of its connection.  Only a handle
that is alive can be dropped. -/
def Moment.alive? (handles : List ConnectionKey) (m : Moment) : Option (List ConnectionKey) :=
  match m.event with
  | .send (.acquire key) => some (key :: handles)
  | .send (.release key) => if key ∈ handles then some (handles.erase key) else none
  | _ => some handles

/-- **The handles that are alive**, if each was taken before it was dropped, and dropped once. -/
def alive? (history : List Moment) : Option (List ConnectionKey) :=
  history.foldlM Moment.alive? []

theorem alive?_concat (history : List Moment) (m : Moment) :
    alive? (history ++ [m]) = (alive? history).bind fun handles => m.alive? handles := by
  unfold alive?
  rw [List.foldlM_append]
  refine congrArg (Option.bind _) (funext fun handles => ?_)
  exact bind_pure (m.alive? handles)

/-- Up to any moment, too, each handle was taken before it was dropped. -/
theorem alive?_of_append {more : List Moment} (h : alive? (history ++ more) = some handles) :
    ∃ before, alive? history = some before := by
  unfold alive? at h
  rw [List.foldlM_append] at h
  obtain ⟨before, hbefore, -⟩ := Option.bind_eq_some_iff.mp h
  exact ⟨before, hbefore⟩

/-- What is sent keeps the count at the handles that are alive. -/
theorem counts_of_alive? {command : Command} {before : List ConnectionKey}
    (h : Moment.alive? before ⟨p, .send command⟩ = some handles) (key : ConnectionKey) :
    command.counts key (before.count key) = some (handles.count key) := by
  cases command with
  | call _ _ | abort _ =>
    cases h
    rfl
  | acquire other =>
    cases h
    exact Command.counts_acquire key other before
  | release other =>
    unfold Moment.alive? at h
    dsimp only at h
    split at h
    · next halive =>
      cases h
      exact Command.counts_release key halive
    · cases h

/-! ## §3. Along a run. -/

/-- A pool that has not stopped takes commands. -/
theorem Run.accepting (run : Run config history p) (hrunning : p.stopped = false) :
    p.accepting = true := by
  induction run with
  | start h => rw [eq_of_new h]
  | @next history p run event hadmits ih =>
    have hstop : ∀ env now, event ≠ .look env now .stop := by
      rintro env now rfl
      cases hrunning
    have haccepting := ih ((stopped_after p hstop).symm.trans hrunning)
    cases event with
    | issue _ | settle _ _ | report _ | stop | advance _ _ => exact haccepting
    | send command =>
      show (p.send command).1.accepting = true
      unfold send
      rw [if_pos haccepting]
      exact haccepting
    | look env now subject =>
      cases subject with
      | stop => exact absurd rfl (hstop env now)
      | directory _ | timer => exact haccepting
      | notice first =>
        exact (steady_notice { p with notices := p.notices.tail } first).accepting.trans haccepting
      | command first =>
        exact (steady_command env now { p with commands := p.commands.tail } first).accepting.trans
          haccepting

/-- **Going through the queue leads to the handles that are alive**, and never below zero. -/
theorem Run.handles_counted (run : Run config history p) (halive : alive? history = some handles)
    (hrunning : p.stopped = false) (key : ConnectionKey) :
    p.commands.foldlM (Command.counts key) (p.usage key).handles = some (handles.count key) := by
  induction run generalizing handles with
  | start h =>
    rw [eq_of_new h]
    cases halive
    rfl
  | @next history p run event hadmits ih =>
    have hstop : ∀ env now, event ≠ .look env now .stop := by
      rintro env now rfl
      cases hrunning
    have hbefore : p.stopped = false := (stopped_after p hstop).symm.trans hrunning
    rw [alive?_concat] at halive
    obtain ⟨before, hold, hmoment⟩ := Option.bind_eq_some_iff.mp halive
    have hcounted := ih hold hbefore
    -- whatever neither queues nor looks at a command leaves the count and the handles alone
    have hsame : (∀ command, event ≠ .send command) →
        (∀ env now first, event ≠ .look env now (.command first)) →
        (p.after event).1.commands = p.commands →
        (p.after event).1.commands.foldlM (Command.counts key) ((p.after event).1.usage key).handles
          = some (handles.count key) := by
      intro hsend hlook hcommands
      have huses : event.uses key (p.usage key) = p.usage key := by
        unfold Event.uses
        split
        · exact absurd rfl (hlook _ _ _)
        · exact absurd rfl (hlook _ _ _)
        · rfl
      have hhandles : handles = before := by
        unfold Moment.alive? at hmoment
        dsimp only at hmoment
        split at hmoment
        · exact absurd rfl (hsend _)
        · exact absurd rfl (hsend _)
        · exact (Option.some.inj hmoment).symm
      rw [run.accounts.tidy.handles_after key hstop, hcommands, huses, hhandles]
      exact hcounted
    cases event with
    | issue _ | settle _ _ | report _ | stop | advance _ _ =>
      exact hsame (fun _ => by simp) (fun _ _ _ => by simp) rfl
    | send command =>
      rw [run.accounts.tidy.handles_after key hstop]
      have hqueued : (p.after (.send command)).1.commands = p.commands ++ [command] := by
        show (p.send command).1.commands = _
        unfold send
        rw [if_pos (run.accepting hbefore)]
      rw [hqueued, List.foldlM_append]
      show (p.commands.foldlM (Command.counts key) (p.usage key).handles).bind _ = _
      rw [hcounted]
      exact (bind_pure _).trans (counts_of_alive? hmoment key)
    | look env now subject =>
      cases subject with
      | stop => exact absurd rfl (hstop env now)
      | directory _ | timer => exact hsame (fun _ => by simp) (fun _ _ _ => by simp) rfl
      | notice first =>
        exact hsame (fun _ => by simp) (fun _ _ _ => by simp)
          (steady_notice { p with notices := p.notices.tail } first).commands
      | command first =>
        obtain ⟨rest, hrest⟩ := List.head?_eq_some_iff.mp hadmits.2
        have hcommands : (p.after (.look env now (.command first))).1.commands = rest := by
          have hsteady := steady_command env now { p with commands := p.commands.tail } first
          refine hsteady.commands.trans ?_
          show p.commands.tail = rest
          rw [hrest]
          rfl
        -- the head of the queue was counted already
        rw [hrest, List.foldlM_cons] at hcounted
        obtain ⟨n, hfirst, hcounted⟩ := Option.bind_eq_some_iff.mp hcounted
        cases hmoment
        rw [run.accounts.tidy.handles_after key hstop, hcommands, handles_uses_of_counts hfirst]
        exact hcounted

/-- **A handle that is dropped was there.** -/
theorem Run.pos_of_release (run : Run config history p) (halive : alive? history = some handles)
    (hrunning : p.stopped = false) (hhead : p.commands.head? = some (.release key)) :
    0 < (p.usage key).handles := by
  obtain ⟨rest, hrest⟩ := List.head?_eq_some_iff.mp hhead
  have hcounted := run.handles_counted halive hrunning key
  rw [hrest, List.foldlM_cons] at hcounted
  obtain ⟨n, hfirst, -⟩ := Option.bind_eq_some_iff.mp hcounted
  exact Command.pos_of_counts_release hfirst

/-- One event more, when a handle that is dropped is there. -/
theorem handles_uses_eq (p : Pool) (event : Event) (key : ConnectionKey)
    (hpos : Moment.releases key ⟨p, event⟩ = true → 0 < u.handles) :
    u.handles + acquired key [⟨p, event⟩]
      = (event.uses key u).handles + released key [⟨p, event⟩] := by
  refine Nat.le_antisymm (handles_uses p event key u) ?_
  unfold acquired released
  rw [List.countP_singleton, List.countP_singleton]
  cases event with
  | look env now subject =>
    cases subject with
    | command first =>
      cases first with
      | acquire other =>
        by_cases heq : other = key <;> simp [Event.uses, Moment.acquires, Moment.releases, heq]
      | release other =>
        by_cases heq : other = key
        · have hhandles : 0 < u.handles := hpos (beq_iff_eq.mpr heq)
          simp [Event.uses, Moment.acquires, Moment.releases, heq]
          omega
        · simp [Event.uses, Moment.acquires, Moment.releases, heq]
      | call _ _ | abort _ => exact Nat.le_refl _
    | stop | notice _ | directory _ | timer => exact Nat.le_refl _
  | issue _ | settle _ _ | send _ | report _ | stop | advance _ _ => exact Nat.le_refl _

/-- Only a look at a command hears of a drop. -/
theorem eq_look_of_releases (h : m.releases key = true) :
    ∃ env now, m.event = .look env now (.command (.release key)) := by
  unfold Moment.releases at h
  split at h
  · next env now other hevent =>
    rw [beq_iff_eq.mp h] at hevent
    exact ⟨env, now, hevent⟩
  · cases h

/-- **What the pool has heard of adds up.** -/
theorem Run.acquired_eq (run : Run config history p) (halive : alive? history = some handles)
    (hrunning : p.stopped = false) (key : ConnectionKey) :
    acquired key history = released key history + (p.usage key).handles := by
  induction run generalizing handles with
  | start h =>
    rw [eq_of_new h]
    rfl
  | @next history p run event hadmits ih =>
    have hstop : ∀ env now, event ≠ .look env now .stop := by
      rintro env now rfl
      cases hrunning
    have hbefore : p.stopped = false := (stopped_after p hstop).symm.trans hrunning
    obtain ⟨before, hold⟩ := alive?_of_append halive
    have heq := ih hold hbefore
    have hmore := handles_uses_eq (u := p.usage key) p event key fun hreleases => by
      obtain ⟨env, now, rfl⟩ := eq_look_of_releases hreleases
      exact run.pos_of_release hold hbefore hadmits.2
    rw [run.accounts.tidy.handles_after key hstop]
    unfold acquired released at *
    rw [List.countP_append, List.countP_append]
    omega

/-! ## §4. The balance. -/

/-- A handle that is dropped is one less on a connection that is there. -/
theorem connection?_release (hc : p.connection? key = some c) (env : Surroundings) (now : Time) :
    (p.after (.look env now (.command (.release key)))).1.connection? key
      = some { c with handles := c.handles - 1 } := by
  obtain ⟨-, rfl⟩ := mem_of_connection? hc
  refine (connection?_modify { p with commands := p.commands.tail } c.key c.key
    (f := fun c => { c with handles := c.handles - 1 }) fun _ hkey => hkey).trans ?_
  show (p.connection? c.key).map _ = _
  rw [hc, Option.map_some, if_pos rfl]

/-- How the handles on the connection for a key stand after a history, and stood on the way. -/
structure HandlesBalance (key : ConnectionKey) (history : List Moment) (p : Pool) : Prop where
  /-- The number of handles of the connection is that of those heard to be taken, less those heard
  to be dropped. -/
  counted : ∀ c, p.connection? key = some c →
    released key history + c.handles = acquired key history
  /-- No more are heard to be dropped than to be taken, and as long as it is fewer, the connection
  is there. -/
  kept : released key history ≤ acquired key history
    ∧ (released key history < acquired key history → p.stopped = false →
      (p.connection? key).isSome = true)
  /-- Whenever the pool hears of a drop, the connection is there, has a handle, and has one less
  afterwards. -/
  noticed : ∀ earlier m later, history = earlier ++ m :: later → m.releases key = true →
    ∃ c, m.before.connection? key = some c ∧ 0 < c.handles
      ∧ m.after.connection? key = some { c with handles := c.handles - 1 }

/-- No drop goes unnoticed. -/
theorem Run.noticed (run : Run config history p) (halive : alive? history = some handles)
    (hsplit : history = earlier ++ m :: later) (hreleases : m.releases key = true) :
    ∃ c, m.before.connection? key = some c ∧ 0 < c.handles
      ∧ m.after.connection? key = some { c with handles := c.handles - 1 } := by
  obtain ⟨hrun, hadmits⟩ := run.at_split hsplit
  rw [hsplit] at halive
  obtain ⟨before, hold⟩ := alive?_of_append halive
  obtain ⟨env, now, hevent⟩ := eq_look_of_releases hreleases
  rw [hevent] at hadmits
  have hpos := hrun.pos_of_release hold hadmits.1 hadmits.2
  cases hc : m.before.connection? key with
  | none =>
    rw [usage_of_none hc] at hpos
    exact absurd hpos (Nat.lt_irrefl 0)
  | some c =>
    rw [usage_of_connection? hc] at hpos
    refine ⟨c, rfl, hpos, ?_⟩
    unfold Moment.after
    rw [hevent]
    exact connection?_release hc env now

/-- No more handles are heard to be dropped than to be taken. -/
theorem Run.released_le (run : Run config history p) (halive : alive? history = some handles)
    (key : ConnectionKey) : released key history ≤ acquired key history := by
  induction run generalizing handles with
  | start _ => exact Nat.le_refl _
  | @next history p run event hadmits ih =>
    obtain ⟨before, hold⟩ := alive?_of_append halive
    have hle := ih hold
    have hevent : released key [⟨p, event⟩]
        ≤ acquired key [⟨p, event⟩] + (acquired key history - released key history) := by
      unfold released
      rw [List.countP_singleton]
      split
      · next hreleases =>
        -- a pool that hears of a drop has not stopped, so what was heard adds up
        obtain ⟨env, now, rfl⟩ := eq_look_of_releases hreleases
        have hpos := run.pos_of_release hold hadmits.1 hadmits.2
        have heq := run.acquired_eq hold hadmits.1 key
        unfold released at heq
        omega
      · exact Nat.zero_le _
    unfold acquired released at *
    rw [List.countP_append, List.countP_append]
    omega

/-- **Handles balance.**  In every run in which handles are taken before they are dropped, however
this is interleaved with calls, notices, changes of the directory and the removal of idle
connections: the number of handles of a connection is what the pool has heard of, a connection that
is kept by a handle is there, and every drop finds its connection with a handle to drop. -/
theorem handle_references_balance (run : Run config history p)
    (halive : alive? history = some handles) (key : ConnectionKey) :
    HandlesBalance key history p := by
  refine ⟨fun c hc => ?_, ⟨run.released_le halive key, fun hlt hrunning => ?_⟩,
    fun earlier m later hsplit => run.noticed halive hsplit⟩
  · -- a pool that has a connection has not stopped
    have hrunning : p.stopped = false := by
      by_contra hstopped
      have hnone := run.connections_of_stopped (Bool.not_eq_false _ ▸ hstopped)
      have hmem := (mem_of_connection? hc).1
      rw [hnone] at hmem
      cases hmem
    have heq := run.acquired_eq halive hrunning key
    rw [usage_of_connection? hc] at heq
    exact heq.symm
  · have heq := run.acquired_eq halive hrunning key
    cases hc : p.connection? key with
    | some _ => rfl
    | none =>
      rw [usage_of_none hc] at heq
      exact absurd hlt (Nat.not_lt.mpr (Nat.le_of_eq heq))

/-- A handle is taken, its clone outlives it, the connection is removed for want of use, and a
handle is taken again: three were taken, two were dropped, and the new connection has one. -/
theorem handle_references_balance_after_a_removal :
    ∃ (history : List Moment) (p : Pool) (c : Connection),
      Run { expiryTime := 10 } history p ∧ alive? history = some [oneAgent]
        ∧ acquired oneAgent history = 3 ∧ released oneAgent history = 2
        ∧ p.connection? oneAgent = some c ∧ c.handles = 1
        ∧ HandlesBalance oneAgent history p := by
  have start : Run { expiryTime := 10 } []
      { config := { expiryTime := 10 }, subscription := ⟨0⟩ } :=
    Run.start (show Pool.new { expiryTime := 10 } {} = _ from rfl)
  have cloned := (start.next (.send (.acquire oneAgent)) trivial).next
    (.send (.acquire oneAgent)) trivial
  have both := (cloned.next (.look oneAddress 0 (.command (.acquire oneAgent))) ⟨rfl, rfl⟩).next
    (.look oneAddress 0 (.command (.acquire oneAgent))) ⟨rfl, rfl⟩
  have connecting := both.next (.advance oneAddress 0) trivial
  have dropped := (connecting.next (.send (.release oneAgent)) trivial).next
    (.send (.release oneAgent)) trivial
  have spent := (dropped.next (.look oneAddress 5 (.command (.release oneAgent))) ⟨rfl, rfl⟩).next
    (.look oneAddress 5 (.command (.release oneAgent))) ⟨rfl, rfl⟩
  have removed := (spent.next (.advance oneAddress 5) trivial).next
    (.advance oneAddress 15) trivial
  have again := (removed.next (.send (.acquire oneAgent)) trivial).next
    (.look oneAddress 20 (.command (.acquire oneAgent))) ⟨rfl, rfl⟩
  exact ⟨_, _, _, again, rfl, rfl, rfl, rfl, rfl, handle_references_balance again rfl oneAgent⟩

end Pool

end RemoteCall
