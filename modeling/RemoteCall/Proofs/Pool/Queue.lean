/-
  RemoteCall.Proofs.Pool.Queue
  ────────────────────────────
  **THE QUEUE OF COMMANDS.**

  The pool looks at commands in the order in which they were sent, so no call
  is taken up twice; and a call that it takes up has been issued
  (`Pool.Queued`).

  Main statements:
    • `Queued.next`          — one step keeps the queue in order,
    • `Queued.takenUp_nodup` — each call is taken up at most once.
-/
import RemoteCall.Proofs.Pool.Looking

namespace RemoteCall.Pool

variable {history : List Moment} {p : Pool}

/-! ## §1. The queue. -/

/-- The calls that a caller has asked for and the pool has not looked at. -/
def queued (commands : List Command) : List (ConnectionKey × PendingCall) :=
  commands.filterMap fun
    | .call key call => some (key, call)
    | _ => none

theorem queued_append (xs ys : List Command) : queued (xs ++ ys) = queued xs ++ queued ys :=
  List.filterMap_append

/-- Calls are taken up in the order in which they were asked for, each at most once; they have been
issued, and no call is let go of that has no outcome. -/
structure Queued (history : List Moment) (p : Pool) : Prop where
  inOrder : (takenUp history ++ queued p.commands).Sublist (askedFor history)
  distinct : ((askedFor history).map (·.2.id)).Nodup
  asked : ∀ x ∈ askedFor history, (0 < x.2.id ∧ x.2.id < p.nextCall) ∧ x.2.retries = 0
  issued : ∀ {id}, 0 < id → id < p.nextCall → p.ledger.knows id = true
  aborts : ∀ {id}, Command.abort id ∈ p.commands → p.ledger.isFinished id = true

/-- No call is taken up twice. -/
theorem Queued.takenUp_nodup (h : Queued history p) : ((takenUp history).map (·.2.id)).Nodup :=
  h.distinct.sublist (((List.sublist_append_left _ _).trans h.inOrder).map _)

/-- A queue from which nothing but the head may be missing. -/
theorem Queued.keep (h : Queued history p) {m : Moment} {q : Pool}
    (hasked : m.askedFor? = none)
    (horder : (takenUp history ++ m.takenUp?.toList ++ queued q.commands).Sublist
      (takenUp history ++ queued p.commands))
    (hcommands : ∀ c ∈ q.commands, c ∈ p.commands) (hnext : q.nextCall = p.nextCall)
    (hgrows : p.ledger.Grows q.ledger) : Queued (history ++ [m]) q := by
  have hsame : askedFor (history ++ [m]) = askedFor history := by simp [hasked]
  refine ⟨?_, ?_, ?_, ?_, ?_⟩
  · -- what is taken up was at the head of the queue
    rw [takenUp_concat, hsame]
    exact horder.trans h.inOrder
  · rw [hsame]
    exact h.distinct
  · rw [hsame, hnext]
    exact h.asked
  · rw [hnext]
    exact fun hpos hlt => hgrows.knows (h.issued hpos hlt)
  · exact fun hmem => hgrows.isFinished (h.aborts (hcommands _ hmem))

theorem knows_issue (l : Ledger) (id : CallId) (shape : Payload.Shape) :
    (l.issue id shape).knows id = true := by
  unfold Ledger.knows Ledger.get? Ledger.issue
  rw [List.find?_append]
  cases l.entries.find? (·.1 == id) with
  | some _ => rfl
  | none => simp

/-- The slot of a new call is opened. -/
theorem Queued.issue (h : Queued history p) (shape : Payload.Shape) :
    Queued (history ++ [⟨p, .issue shape⟩]) (p.after (.issue shape)).1 := by
  have hgrows : p.ledger.Grows (p.ledger.issue p.nextCall shape) := Ledger.grows_issue _ _ _
  have hasked : askedFor (history ++ [⟨p, .issue shape⟩]) = askedFor history := by
    simp [Moment.askedFor?]
  have htaken : takenUp (history ++ [⟨p, .issue shape⟩]) = takenUp history := by
    simp [Moment.takenUp?]
  refine ⟨?_, ?_, ?_, ?_, ?_⟩
  · rw [hasked, htaken]
    exact h.inOrder
  · rw [hasked]
    exact h.distinct
  · rw [hasked]
    intro x hx
    obtain ⟨⟨hpos, hlt⟩, hretries⟩ := h.asked x hx
    exact ⟨⟨hpos, Nat.lt_succ_of_lt hlt⟩, hretries⟩
  · -- the last number is the new one
    intro id hpos hlt
    rcases Nat.lt_succ_iff_lt_or_eq.mp hlt with hold | rfl
    · exact hgrows.knows (h.issued hpos hold)
    · exact knows_issue _ _ _
  · exact fun hmem => hgrows.isFinished (h.aborts hmem)

/-- A caller asks for something. -/
theorem Queued.send (h : Queued history p) {command : Command}
    (hadmits : p.Admits history (.send command)) :
    Queued (history ++ [⟨p, .send command⟩]) (p.after (.send command)).1 := by
  have htaken : takenUp (history ++ [⟨p, .send command⟩]) = takenUp history := by
    simp [Moment.takenUp?]
  -- a queue that is closed refuses the command
  have hqueue : (p.send command).1.ledger = p.ledger
      ∧ (p.send command).1.nextCall = p.nextCall
      ∧ ((p.send command).1.commands = p.commands ++ [command]
        ∨ (p.send command).1.commands = p.commands) := by
    unfold Pool.send
    split
    · exact ⟨rfl, rfl, .inl rfl⟩
    · exact ⟨rfl, rfl, .inr rfl⟩
  obtain ⟨hledger, hnext, hcommands⟩ := hqueue
  have hq : (p.after (.send command)).1 = (p.send command).1 := rfl
  rw [hq]
  have horder : (takenUp history ++ queued (p.send command).1.commands).Sublist
      (askedFor history ++ (Moment.askedFor? ⟨p, .send command⟩).toList) := by
    rcases hcommands with hqueued | hrefused
    · rw [hqueued, queued_append, ← List.append_assoc]
      refine h.inOrder.append ?_
      cases command <;> exact List.Sublist.refl _
    · rw [hrefused]
      exact h.inOrder.trans (List.sublist_append_left _ _)
  refine ⟨by rw [htaken, askedFor_concat]; exact horder, ?_, ?_, ?_, ?_⟩
  · rw [askedFor_concat, List.map_append, List.nodup_append]
    refine ⟨h.distinct, ?_, ?_⟩
    · cases command <;> simp [Moment.askedFor?]
    · intro id hid other hother heq
      -- no call is asked for twice
      cases command with
      | call key call =>
        have hcall : other = call.id := by simpa [Moment.askedFor?] using hother
        exact hadmits.2.1 (hcall ▸ heq ▸ hid)
      | _ => exact absurd hother (by simp [Moment.askedFor?])
  · rw [askedFor_concat, hnext]
    intro x hx
    rcases List.mem_append.mp hx with hx | hx
    · exact h.asked x hx
    · cases command with
      | call key call =>
        have hcall : x = (key, call) := by simpa [Moment.askedFor?] using hx
        rw [hcall]
        exact ⟨hadmits.1, hadmits.2.2⟩
      | _ => exact absurd hx (by simp [Moment.askedFor?])
  · rw [hledger, hnext]
    exact h.issued
  · intro id hmem
    rw [hledger]
    rcases hcommands with hqueued | hrefused
    · rw [hqueued] at hmem
      rcases List.mem_append.mp hmem with hold | hnew
      · exact h.aborts hold
      · cases List.mem_singleton.mp hnew
        exact hadmits
    · exact h.aborts (hrefused ▸ hmem)

/-- The pool looks at something. -/
theorem Queued.look (h : Queued history p) {env : Surroundings} {now : Time} {subject : Subject}
    (hadmits : p.Admits history (.look env now subject))
    (hgrows : p.ledger.Grows (p.look env now subject).1.ledger) :
    Queued (history ++ [⟨p, .look env now subject⟩]) (p.look env now subject).1 := by
  have hnext := (config_look env now p subject).2
  cases subject with
  | stop =>
    refine h.keep (by rfl) ?_ (fun c hc => absurd hc (List.not_mem_nil)) hnext hgrows
    rw [show (p.look env now .stop).1.commands = [] from rfl]
    show (takenUp history ++ [] ++ []).Sublist _
    rw [List.append_nil, List.append_nil]
    exact List.sublist_append_left _ _
  | command first =>
    -- only the head of the queue is looked at
    have hhead : p.commands.head? = some first := hadmits.2
    have hsplit : p.commands = first :: p.commands.tail := by
      cases hcommands : p.commands with
      | nil => rw [hcommands] at hhead; exact absurd hhead (by simp)
      | cons c rest => rw [hcommands] at hhead; rw [Option.some.inj hhead]; rfl
    have hrest : (p.look env now (.command first)).1.commands = p.commands.tail :=
      (steady_command env now { p with commands := p.commands.tail } first).commands
    refine h.keep (by rfl) ?_ ?_ hnext hgrows
    · rw [hrest, hsplit, List.append_assoc]
      refine List.Sublist.append_left ?_ _
      cases first <;> exact List.Sublist.refl _
    · rw [hrest]
      exact fun c hc => List.mem_of_mem_tail hc
  | notice first =>
    have hsame : (p.look env now (.notice first)).1.commands = p.commands :=
      (steady_notice { p with notices := p.notices.tail } first).commands
    refine h.keep (by rfl) ?_ (fun c hc => hsame ▸ hc) hnext hgrows
    rw [hsame]
    show (takenUp history ++ [] ++ _).Sublist _
    rw [List.append_nil]
  | directory directory =>
    refine h.keep (by rfl) ?_ (fun c hc => hc) hnext hgrows
    show (takenUp history ++ [] ++ queued p.commands).Sublist _
    rw [List.append_nil]
  | timer =>
    refine h.keep (by rfl) ?_ (fun c hc => hc) hnext hgrows
    show (takenUp history ++ [] ++ queued p.commands).Sublist _
    rw [List.append_nil]

/-- **One step keeps the queue in order.** -/
theorem Queued.next (h : Queued history p) {event : Event} (hadmits : p.Admits history event)
    (hgrows : p.ledger.Grows (p.after event).1.ledger) :
    Queued (history ++ [⟨p, event⟩]) (p.after event).1 := by
  have hsame : ∀ {m : Moment} {q : Pool}, m.askedFor? = none → m.takenUp? = none →
      q.commands = p.commands → q.nextCall = p.nextCall → p.ledger.Grows q.ledger →
      Queued (history ++ [m]) q := by
    intro m q hasked htaken hcommands hnext hgrows
    refine h.keep hasked ?_ (fun c hc => hcommands ▸ hc) hnext hgrows
    rw [htaken, hcommands]
    show (takenUp history ++ [] ++ _).Sublist _
    rw [List.append_nil]
  cases event with
  | issue shape => exact h.issue shape
  | send command => exact h.send hadmits
  | look env now subject => exact h.look hadmits hgrows
  | _ => exact hsame rfl rfl rfl rfl hgrows

/-- Only by looking at its command does the pool take up a call. -/
theorem eq_of_takenUp? {event : Event} {x : ConnectionKey × PendingCall}
    (h : Moment.takenUp? ⟨p, event⟩ = some x) :
    ∃ env now, event = .look env now (.command (.call x.1 x.2)) := by
  unfold Moment.takenUp? at h
  dsimp only at h
  split at h
  · cases h
    exact ⟨_, _, rfl⟩
  · cases h

end RemoteCall.Pool
