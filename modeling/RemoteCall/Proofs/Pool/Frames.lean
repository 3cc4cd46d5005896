/-
  RemoteCall.Proofs.Pool.Frames
  ─────────────────────────────
  **EVERY FRAME TAKES ITS CALL OUT OF A QUEUE.**

  As long as calls are not sent twice on purpose, a call that is sent leaves the
  queue in which it waits; and a call comes back to a queue only when it is
  charged a retry or refused:

      sent  +  waiting afterwards  ≤  waiting before  +  charged  +  refused

  This is shown of one connection for each transition (`Connection.Returns`).
  It does not matter what is in flight, so it holds also when the sequence
  numbers run out.

  Main statements:
    • `Live.sent_flush`      — each frame that is taken,
    • `returns_lose`, `returns_respond`, `returns_reconsider` — which calls come back,
    • `returns_moveAll`, `returns_settle` — connections among others.
-/
import RemoteCall.Proofs.Pool.Meter

namespace RemoteCall

/-! ## §1. Frames that are sent. -/

/-- Whether an effect is that the writer takes a call frame of a call. -/
def Effect.isSent (id : CallId) : Effect → Bool
  | .send _ call frame taken => call.id == id && frame.kind == .call && taken
  | _ => false

theorem Effect.isSent_call (id : CallId) (link : LinkId) (call : PendingCall) (version : UInt32)
    (n : SequenceNumber) (request : Bytes) (taken : Bool) :
    (Effect.send link call (.call version n request) taken).isSent id
      = (call.id == id && taken) := by
  show (call.id == id && true && taken) = _
  rw [Bool.and_true]

/-- How many call frames of a call the writers have taken. -/
def sentFor (id : CallId) (effects : List Effect) : Nat :=
  effects.countP (·.isSent id)

/-- How often a call occurs in a list. -/
def occurrences (id : CallId) (calls : List PendingCall) : Nat :=
  calls.countP (·.id == id)

variable {id : CallId}

@[simp] theorem sentFor_nil (id : CallId) : sentFor id [] = 0 := rfl

@[simp] theorem sentFor_append (id : CallId) (xs ys : List Effect) :
    sentFor id (xs ++ ys) = sentFor id xs + sentFor id ys := by
  simp [sentFor]

@[simp] theorem occurrences_nil (id : CallId) : occurrences id [] = 0 := rfl

@[simp] theorem occurrences_append (id : CallId) (xs ys : List PendingCall) :
    occurrences id (xs ++ ys) = occurrences id xs + occurrences id ys := by
  simp [occurrences]

theorem occurrences_perm {xs ys : List PendingCall} (h : xs.Perm ys) :
    occurrences id xs = occurrences id ys :=
  h.countP_eq _

theorem occurrences_le_of_sublist {xs ys : List PendingCall} (h : xs.Sublist ys) :
    occurrences id xs ≤ occurrences id ys :=
  h.countP_le

theorem occurrences_unsettled_le (id : CallId) (l : Ledger) (calls : List PendingCall) :
    occurrences id (l.unsettled calls) ≤ occurrences id calls :=
  occurrences_le_of_sublist List.filter_sublist

/-- A call that is charged is the same call. -/
@[simp] theorem occurrences_charged (id : CallId) (call : PendingCall) :
    occurrences id [call.charged] = occurrences id [call] := rfl

/-- Charging several calls gives none of them back twice. -/
theorem occurrences_chargeAll_le (id : CallId) (limit : UInt32) (e : Failure)
    (calls : List PendingCall) (l : Ledger) :
    occurrences id (Ledger.chargeAll limit e calls l).1 ≤ occurrences id calls := by
  induction calls generalizing l with
  | nil => exact Nat.le_refl _
  | cons call rest ih =>
    have hskip : ∀ l : Ledger, occurrences id (Ledger.chargeAll limit e rest l).1
        ≤ occurrences id (call :: rest) := fun l =>
      Nat.le_trans (ih l) (occurrences_le_of_sublist (List.sublist_cons_self call rest))
    unfold Ledger.chargeAll
    split
    · exact hskip l
    · split
      · exact hskip _
      · show occurrences id (call.charged :: (Ledger.chargeAll limit e rest l).1) ≤ _
        have hrest := ih l
        unfold occurrences at hrest ⊢
        rw [List.countP_cons, List.countP_cons, PendingCall.id_charged]
        omega

theorem sentFor_eq_zero {effects : List Effect} (h : ∀ effect ∈ effects, effect.isCall = false) :
    sentFor id effects = 0 := by
  unfold sentFor
  rw [List.countP_eq_zero]
  intro effect hmem hsent
  have hcall := h effect hmem
  cases effect with
  | send link call frame taken =>
    have hkind : (frame.kind == .call) = false := hcall
    have hboth : (call.id == id && frame.kind == .call && taken) = true := hsent
    rw [hkind, Bool.and_false, Bool.false_and] at hboth
    cases hboth
  | _ => cases hsent

theorem sentFor_of_isQuiet {effects : List Effect}
    (h : ∀ effect ∈ effects, effect.isQuiet = true) : sentFor id effects = 0 :=
  sentFor_eq_zero fun effect hmem => Effect.isCall_of_isQuiet (h effect hmem)

/-! ## §2. A queue that is flushed. -/

/-- A call is not sent twice on purpose. -/
theorem Surroundings.duplicates_eq_false {config : PoolConfig} (h : ¬ 0.0 < config.dupeCalls)
    (env : Surroundings) (link : LinkId) (n : SequenceNumber) :
    env.duplicates config link n = false := by
  unfold duplicates
  rw [decide_eq_false h]
  rfl

variable {env : Surroundings} {config : PoolConfig} {now : Time}

/-- **Each frame that is taken takes its call out of the queue.** -/
theorem Live.sent_flush (hdupe : ¬ 0.0 < config.dupeCalls) (env : Surroundings)
    (interface : UInt32) (ledger : Ledger) (waiting : List PendingCall) (live : Live)
    (id : CallId) :
    sentFor id (live.flush env config interface ledger waiting).effects
        + occurrences id (live.flush env config interface ledger waiting).waiting
      ≤ occurrences id waiting := by
  induction waiting generalizing live with
  | nil => exact Nat.le_refl _
  | cons call rest ih =>
    have hcons : occurrences id (call :: rest) = occurrences id [call] + occurrences id rest :=
      occurrences_append id [call] rest
    cases hfin : ledger.isFinished call.id with
    | true =>
      rw [flush_finished hfin, hcons]
      exact Nat.le_trans (ih live) (Nat.le_add_left _ _)
    | false =>
      cases htakes : env.takes live.link (.call interface live.next call.request) with
      | true =>
        rw [flush_taken hfin htakes]
        dsimp only
        have hone : sentFor id (live.transmit env config interface call).2
            = occurrences id [call] := by
          rw [transmit_once (env.duplicates_eq_false hdupe live.link live.next)]
          unfold handOver sentFor occurrences
          rw [htakes, List.countP_singleton, List.countP_singleton, Effect.isSent_call,
            Bool.and_true]
        have hmore := ih (live.transmit env config interface call).1
        rw [sentFor_append, hone, hcons]
        omega
      | false =>
        -- the frame is not taken, and its call stays at the head of the queue
        rw [flush_refused hfin htakes]
        dsimp only
        have hnone : sentFor id [live.handOver env call (.call interface live.next call.request)]
            = 0 := by
          unfold handOver sentFor
          rw [htakes, List.countP_singleton, Effect.isSent_call, Bool.and_false]
          rfl
        rewrite [hnone, Nat.zero_add]
        exact Nat.le_refl _

/-! ## §3. Calls that come back to a connection. -/

/-- The calls that a refusal gives back. -/
def Connection.refusedBy (frame : ResponseFrame) (c : Connection) : List PendingCall :=
  match c.phase with
  | .connected live =>
    if live.discarded.contains frame.sequence then []
    else
      match live.callAt? frame.sequence, frame.result with
      | some call, .error e => if e.isRefusal then [call] else []
      | _, _ => []
  | _ => []

/-- The calls that the response in a notice gives back. -/
def Connection.refusedByNotice (c : Connection) : Notice → List PendingCall
  | .response _ _ frame => c.refusedBy frame
  | _ => []

namespace Connection

variable {c c' : Connection} {l : Ledger}

/-- Each frame takes its call out of the queue, and only calls of `back` come back to it. -/
def Returns (back : List PendingCall) (effects : List Effect) (c c' : Connection) : Prop :=
  ∀ id, sentFor id effects + occurrences id c'.waiting
    ≤ occurrences id c.waiting + occurrences id back

/-- No call is sent, and none comes back. -/
theorem returns_of_waiting_le {back : List PendingCall} {sent : List Effect}
    (hsent : ∀ effect ∈ sent, effect.isQuiet = true)
    (h : ∀ id, occurrences id c'.waiting ≤ occurrences id c.waiting) : Returns back sent c c' := by
  intro id
  rw [sentFor_of_isQuiet hsent, Nat.zero_add]
  exact Nat.le_trans (h id) (Nat.le_add_right _ _)

/-- **A failure** sends back the calls that pay for it. -/
theorem returns_lose (config : PoolConfig) (e : Failure) (c : Connection) (l : Ledger) :
    Returns (c.paysForLoss e) (c.lose config e l).effects c (c.lose config e l).connection := by
  have hsilent : ∀ effect ∈ (c.lose config e l).effects, effect.isQuiet = true :=
    fun _ hmem => isQuiet_lose hmem
  cases hlive? : c.live? with
  | none =>
    refine returns_of_waiting_le hsilent fun id => ?_
    rw [lose_attempt hlive?]
    exact occurrences_chargeAll_le _ _ e c.waiting l
  | some live =>
    have hlive := phase_of_live? hlive?
    cases he : e.isProtocol || e.isVersionRejection with
    | true =>
      refine returns_of_waiting_le hsilent fun id => ?_
      rw [lose_at_fault hlive he]
      exact occurrences_unsettled_le _ _ c.waiting
    | false =>
      intro id
      rw [sentFor_of_isQuiet hsilent, lose_link hlive he, paysForLoss_of_connected hlive,
        if_neg (by simp [he])]
      have hkept := occurrences_chargeAll_le id config.callRetries e c.inFlightByAge l
      rw [occurrences_perm c.inFlightByAge_perm] at hkept
      have hwaiting := occurrences_unsettled_le id
        (Ledger.chargeAll config.callRetries e c.inFlightByAge l).2 c.waiting
      rw [occurrences_append]
      omega

/-- A response that finds a call gives it back if the agent is shutting down. -/
theorem refusedBy_of_finds {frame : ResponseFrame} {live : Live} {call : PendingCall}
    (h : c.Finds frame live call) {e : Failure} (hresult : frame.result = .error e)
    (he : e.isRefusal = true) : c.refusedBy frame = [call] := by
  unfold refusedBy
  rw [h.phase]
  dsimp only
  rw [h.fresh, h.found, hresult]
  exact if_pos he

/-- **A response** sends back the call that pays for it or is refused. -/
theorem returns_respond (config : PoolConfig) (frame : ResponseFrame) (c : Connection)
    (l : Ledger) :
    Returns (c.paysForResponse config frame l ++ c.refusedBy frame)
      (c.respond config frame l).effects c (c.respond config frame l).connection := by
  have hsilent : ∀ effect ∈ (c.respond config frame l).effects, effect.isQuiet = true :=
    fun _ hmem => isQuiet_respond hmem
  have hresponded := responded config frame c l
  generalize c.respond config frame l = moved at *
  have hstay : moved.connection.waiting = c.waiting →
      Returns (c.paysForResponse config frame l ++ c.refusedBy frame) moved.effects c
        moved.connection :=
    fun h => returns_of_waiting_le hsilent fun id => Nat.le_of_eq (congrArg _ h)
  cases hresponded with
  | retried hfinds hresult hreads hbudget =>
    -- the call pays
    intro id
    rw [sentFor_of_isQuiet hsilent, paysForResponse_of_not_reads config hfinds hresult hreads,
      if_pos hbudget, occurrences_append, occurrences_append, occurrences_charged]
    omega
  | refused hfinds hresult hrefusal =>
    -- the call is refused
    intro id
    rw [sentFor_of_isQuiet hsilent, refusedBy_of_finds hfinds hresult hrefusal, occurrences_append,
      occurrences_append]
    omega
  | rejected _ _ _ hversion =>
    -- the whole link fails, and no call pays
    refine returns_of_waiting_le hsilent fun id => ?_
    rw [lose_at_fault rfl (by rw [hversion, Bool.or_true])]
    exact occurrences_unsettled_le _ _ c.waiting
  | _ => exact hstay rfl

/-- **A call that is let go of** does not come back. -/
theorem returns_cancel {other : CallId} {sent : List Effect}
    (hcancel : c.cancel? env other = some (c', sent)) : Returns [] sent c c' := by
  refine returns_of_waiting_le (fun _ hmem => isQuiet_cancel hcancel hmem) fun id => ?_
  cases letGo hcancel with
  | waiting => exact occurrences_le_of_sublist List.eraseP_sublist
  | inFlight _ _ _ => exact Nat.le_refl _

/-- **A peer that is withdrawn** sends back the calls in flight. -/
theorem returns_reconsider (env : Surroundings) (config : PoolConfig) (now : Time)
    (c : Connection) (l : Ledger) :
    Returns (c.paysForDirectory env) (c.reconsider env config now l).effects c
      (c.reconsider env config now l).connection := by
  have hsilent : ∀ effect ∈ (c.reconsider env config now l).effects, effect.isQuiet = true :=
    fun _ hmem => isQuiet_reconsider hmem
  have hreconsidered := reconsidered env config now c l
  generalize c.reconsider env config now l = moved at *
  cases hreconsidered with
  | kept _ => exact returns_of_waiting_le hsilent fun id => Nat.le_refl _
  | @withdrawn live hphase hgone =>
    have hlost := returns_lose config
      (.connectionFailed s!"{c.key.agent.text} no longer advertised at {live.peer.text}")
      { c with looking := false } l
    rw [paysForLoss_of_withdrawn hphase] at hlost
    rw [paysForDirectory_of_connected hphase, if_neg (by simp [hgone])]
    exact hlost
  | restarted _ => exact returns_of_waiting_le hsilent fun id => Nat.le_refl _

/-- **Doing what is due** sends calls, each with one frame. -/
theorem returns_advance (hdupe : ¬ 0.0 < config.dupeCalls) (env : Surroundings) (now : Time)
    (c : Connection) (l : Ledger) :
    Returns [] (c.advance env config now l).effects c (c.advance env config now l).connection := by
  intro id
  rw [advance_eq]
  dsimp only
  have hnoted : ∀ d : Connection, (d.noteDemand now).waiting = d.waiting := by
    intro d
    unfold noteDemand
    split
    · rfl
    · split <;> rfl
  rw [sentFor_append, sentFor_append, sentFor_of_isQuiet fun _ hmem => isQuiet_expire hmem,
    sentFor_eq_zero fun _ hmem => isCall_sought hmem, Nat.zero_add, occurrences_nil, Nat.add_zero,
    hnoted]
  have hwaiting :
      occurrences id (c.sought env config now l).1.waiting ≤ occurrences id c.waiting := by
    rw [waiting_sought]
    exact occurrences_unsettled_le id _ c.waiting
  refine Nat.le_trans ?_ hwaiting
  generalize (c.sought env config now l).1 = d
  cases hlive? : d.live? with
  | none =>
    rewrite [flush_of_live?_eq_none hlive?, sentFor_nil, Nat.zero_add]
    exact Nat.le_refl _
  | some live =>
    have hlive := phase_of_live? hlive?
    cases hd : live.draining with
    | true =>
      rewrite [flush_of_draining hlive hd, sentFor_nil, Nat.zero_add]
      exact Nat.le_refl _
    | false =>
      rw [flush_of_connected hlive hd]
      exact Live.sent_flush hdupe env d.key.interface _ d.waiting live id

end Connection

namespace Pool

variable {p : Pool} {id : CallId}

/-! ## §4. Several connections. -/

/-- How often a call waits in the queues of connections. -/
def inQueue (id : CallId) (cs : List Connection) : Nat :=
  occurrences id (cs.flatMap (·.waiting))

@[simp] theorem inQueue_append (id : CallId) (cs ds : List Connection) :
    inQueue id (cs ++ ds) = inQueue id cs + inQueue id ds := by
  simp [inQueue]

theorem inQueue_cons (id : CallId) (c : Connection) (cs : List Connection) :
    inQueue id (c :: cs) = occurrences id c.waiting + inQueue id cs :=
  occurrences_append id c.waiting _

theorem inQueue_filter_le (keep : Connection → Bool) (cs : List Connection) :
    inQueue id (cs.filter keep) ≤ inQueue id cs := by
  induction cs with
  | nil => exact Nat.le_refl _
  | cons c rest ih =>
    rw [List.filter_cons]
    split
    · rw [inQueue_cons, inQueue_cons]
      omega
    · rw [inQueue_cons]
      omega

/-- Connections that move one after the other. -/
theorem returns_moveAll {f : Connection → Ledger → Moved} (back : Connection → List PendingCall)
    (hf : ∀ (c : Connection) (l : Ledger), c.Returns (back c) (f c l).effects (f c l).connection)
    (cs : List Connection) (l : Ledger) (id : CallId) :
    sentFor id (moveAll f cs l).2.2 + inQueue id (moveAll f cs l).1
      ≤ inQueue id cs + occurrences id (cs.flatMap back) := by
  induction cs generalizing l with
  | nil => exact Nat.zero_le _
  | cons c rest ih =>
    rw [moveAll_cons]
    dsimp only
    have hfirst := hf c l id
    have hrest := ih (f c l).ledger
    rw [sentFor_append, inQueue_cons, inQueue_cons, List.flatMap_cons, occurrences_append]
    omega

/-- One connection moves, and its neighbours do not. -/
theorem returns_settle (hkeys : (p.connections.map (·.key)).Nodup) {c : Connection}
    (hc : c ∈ p.connections) (moved : Moved) (hkey : moved.connection.key = c.key)
    {back : List PendingCall} (h : c.Returns back moved.effects moved.connection) (id : CallId) :
    sentFor id (p.settle moved).2 + inQueue id (p.settle moved).1.connections
      ≤ inQueue id p.connections + occurrences id back := by
  obtain ⟨before, after, hsplit, hmodify⟩ := modify_between hkeys hc (fun _ => moved.connection)
  have hconnections : (p.settle moved).1.connections = before ++ moved.connection :: after := by
    show (p.modify moved.connection.key (fun _ => moved.connection)).connections = _
    rw [hkey]
    exact hmodify
  have hone := h id
  rw [hconnections, hsplit, inQueue_append, inQueue_append, inQueue_cons, inQueue_cons]
  show sentFor id moved.effects + _ ≤ _
  omega

/-- The calls that a refusal gives back, if it belongs to the current attempt. -/
def refusedBy (first : Notice) (p : Pool) : List PendingCall :=
  match p.connection? first.key with
  | some c => if c.generation = first.generation then c.refusedByNotice first else []
  | none => []

/-- The calls that are refused. -/
def Moment.refused (m : Moment) : List PendingCall :=
  match m.event with
  | .look _ _ (.notice first) => m.before.refusedBy first
  | _ => []

theorem occurrences_map_key (id : CallId) (key : ConnectionKey) (calls : List PendingCall) :
    ((calls.map (key, ·)).countP fun x => x.2.id == id) = occurrences id calls := by
  unfold occurrences
  rw [List.countP_map]
  rfl

end Pool

end RemoteCall
