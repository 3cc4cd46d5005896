/-
  RemoteCall.Proofs.Link.Onward
  ─────────────────────────────
  **HOW AN EXCHANGE GOES ON.**

  Whatever the caller of an exchange does, the ledger grows, and only calls
  without an outcome are sent.  So a call that is settled keeps its outcome and
  is not sent again, for as long as the observers of calls undo no outcome:

      settled now   →   settled the same way later,  sent no more

  The numbers of the link stay in order all the time, so that no number in
  flight is discarded.

  Main statements:
    • `grows_act`, `sentFor_act`, `becomes_act`  — one act,
    • `Onward.settled`                           — whatever comes,
    • `Run.numbered`, `Run.finds`                — the numbers of the link.
-/
import RemoteCall.Proofs.Link.Delivery
import RemoteCall.Proofs.Pool.Frames
import RemoteCall.Proofs.Pool.Succession

namespace RemoteCall

/-! ## §1. One connection. -/

namespace Connection

variable {env : Surroundings} {config : PoolConfig} {now : Time} {c : Connection} {l : Ledger}
  {id : CallId}

/-- **A call that has an outcome is not sent** when a queue is. -/
theorem sentFor_flush (hfin : l.isFinished id = true) :
    sentFor id (c.flush env config l).2 = 0 := by
  unfold sentFor
  rw [List.countP_eq_zero]
  intro effect hmem hsent
  unfold flush at hmem
  split at hmem
  · split at hmem
    · exact absurd hmem List.not_mem_nil
    · obtain ⟨call, -, hopen, n, taken, rfl⟩ := Live.of_mem_flush hmem
      rw [Effect.isSent_call, Bool.and_eq_true, beq_iff_eq] at hsent
      rw [hsent.1, hfin] at hopen
      cases hopen
  · exact absurd hmem List.not_mem_nil

/-- The same when a connection does what is due. -/
theorem sentFor_advance (hfin : l.isFinished id = true) :
    sentFor id (c.advance env config now l).effects = 0 := by
  unfold sentFor
  rw [List.countP_eq_zero]
  intro effect hmem hsent
  cases hcall : effect.isCall with
  | false =>
    have hnone : sentFor id [effect] = 0 := sentFor_eq_zero (by simp [hcall])
    unfold sentFor at hnone
    exact List.countP_eq_zero.mp hnone effect (List.mem_singleton_self effect) hsent
  | true =>
    obtain ⟨call, -, hopen, link, n, taken, rfl⟩ := of_mem_advance hmem hcall
    rw [Effect.isSent_call, Bool.and_eq_true, beq_iff_eq] at hsent
    -- deadlines undo no outcome
    rw [hsent.1, advance_eq, (grows_expire env now c l).isFinished hfin] at hopen
    cases hopen

/-- The waiting calls are sent. -/
theorem moves_flush (env : Surroundings) (config : PoolConfig) (c : Connection) (l : Ledger) :
    c.Moves (c.flush env config l).2 (c.flush env config l).1 := by
  have hquiet : ∀ effect ∈ (c.flush env config l).2, effect.attempt? = none :=
    fun _ hmem => attempt?_flush hmem
  cases hlive? : c.live? with
  | none =>
    rw [flush_of_live?_eq_none hlive?] at hquiet ⊢
    exact moves_of_phase_eq rfl rfl rfl hquiet
  | some live =>
    have hlive := phase_of_live? hlive?
    cases hdraining : live.draining with
    | true =>
      rw [flush_of_draining hlive hdraining] at hquiet ⊢
      exact moves_of_phase_eq rfl rfl rfl hquiet
    | false =>
      rw [flush_of_connected hlive hdraining] at hquiet ⊢
      exact moves_of_follows hlive rfl rfl rfl hquiet (Live.follows_flush env config _ _ _ _)

/-- Calls time out. -/
theorem moves_expire (env : Surroundings) (now : Time) (c : Connection) (l : Ledger) :
    c.Moves (c.expire env now l).effects (c.expire env now l).connection := by
  have hquiet : ∀ effect ∈ (c.expire env now l).effects, effect.attempt? = none :=
    fun _ hmem => attempt?_expire hmem
  unfold expire at hquiet ⊢
  dsimp only at hquiet ⊢
  split
  · next live hlive =>
    rw [hlive] at hquiet
    exact moves_of_follows hlive rfl rfl rfl hquiet
      (Live.follows_of_sublist rfl rfl List.filter_sublist (List.Sublist.refl _))
  · exact moves_of_phase_eq rfl rfl rfl fun _ hmem => absurd hmem List.not_mem_nil

end Connection

namespace Exchange

variable {σ : Type} {service : Service σ} {limits : EndpointConfig} {config : PoolConfig}
  {effects more : List Effect} {history : List (Worker.Moment σ)} {x y : Exchange σ}
  {id : CallId}

/-! ## §2. One act. -/

/-- Observers undo no outcome. -/
def Keeps (x : Exchange σ) : Act → Prop
  | .observed ledger => x.ledger.Grows ledger
  | _ => True

/-- The move of the connection that an act of the caller is. -/
def moveOf (config : PoolConfig) (x : Exchange σ) : Act → Moved
  | .queued call =>
    { connection := { x.caller with waiting := x.caller.waiting ++ [call] }, ledger := x.ledger }
  | .observed ledger => { connection := x.caller, ledger }
  | .flushed env =>
    { connection := (x.caller.flush env config x.ledger).1
      ledger := x.ledger
      effects := (x.caller.flush env config x.ledger).2 }
  | .expired env now => x.caller.expire env now x.ledger
  | .advanced env now => x.caller.advance env config now x.ledger
  | .canceled env id =>
    match x.caller.cancel? env id with
    | some (connection, effects) => { connection, ledger := x.ledger, effects }
    | none => { connection := x.caller, ledger := x.ledger }
  | .looked =>
    match x.responses with
    | frame :: _ => x.caller.respond config frame x.ledger
    | [] => { connection := x.caller, ledger := x.ledger }
  | .lost e => x.caller.lose config e x.ledger
  | .read _ => { connection := x.caller, ledger := x.ledger }

/-- The connection, the ledger and the effects of an act are those of its move: what is written or
read is nothing to them. -/
theorem act_eq (config : PoolConfig) (x : Exchange σ) (act : Act) :
    (x.act config act).1.caller = (x.moveOf config act).connection
      ∧ (x.act config act).1.ledger = (x.moveOf config act).ledger
      ∧ (x.act config act).2 = (x.moveOf config act).effects := by
  have hmove : ∀ (x : Exchange σ) (moved : Moved), (x.move config moved).1.caller = moved.connection
      ∧ (x.move config moved).1.ledger = moved.ledger
      ∧ (x.move config moved).2 = moved.effects :=
    fun x moved => ⟨caller_move config x moved, ledger_move config x moved, rfl⟩
  cases act with
  | queued call => exact ⟨rfl, rfl, rfl⟩
  | observed ledger => exact ⟨rfl, rfl, rfl⟩
  | flushed env => exact hmove x _
  | expired env now => exact hmove x _
  | advanced env now => exact hmove x _
  | canceled env id =>
    unfold Exchange.act moveOf
    dsimp only
    cases x.caller.cancel? env id with
    | none => exact ⟨rfl, rfl, rfl⟩
    | some letGo => exact hmove x _
  | looked =>
    unfold Exchange.act moveOf
    dsimp only
    cases hnext : x.responses with
    | nil => exact ⟨rfl, rfl, rfl⟩
    | cons frame later => exact hmove { x with responses := later } _
  | lost e => exact hmove x _
  | read count =>
    show (x.read config.maxMessageSize count).caller = x.caller
      ∧ (x.read config.maxMessageSize count).ledger = x.ledger ∧ [] = []
    unfold Exchange.read
    split <;> exact ⟨rfl, rfl, rfl⟩

/-- **Whatever the caller does, the ledger grows.** -/
theorem grows_act {act : Act} (hkeeps : x.Keeps act) :
    x.ledger.Grows (x.act config act).1.ledger := by
  rw [(act_eq config x act).2.1]
  cases act with
  | observed ledger => exact hkeeps
  | expired env now => exact Connection.grows_expire env now x.caller x.ledger
  | advanced env now => exact Connection.grows_expire env now x.caller x.ledger
  | canceled env id =>
    unfold moveOf
    dsimp only
    split <;> exact Ledger.Grows.refl _
  | looked =>
    unfold moveOf
    dsimp only
    split
    · exact Connection.grows_respond config _ x.caller x.ledger
    · exact Ledger.Grows.refl _
  | lost e => exact Connection.grows_lose config e x.caller x.ledger
  | queued _ | flushed _ | read _ => exact Ledger.Grows.refl _

/-- **A call that has an outcome is not sent**, whatever the caller does. -/
theorem sentFor_act (hfin : x.ledger.isFinished id = true) (act : Act) :
    sentFor id (x.act config act).2 = 0 := by
  rw [(act_eq config x act).2.2]
  cases act with
  | flushed env => exact Connection.sentFor_flush hfin
  | expired env now => exact sentFor_of_isQuiet fun _ hmem => Connection.isQuiet_expire hmem
  | advanced env now => exact Connection.sentFor_advance hfin
  | canceled env id =>
    unfold moveOf
    dsimp only
    split
    · next hcancel => exact sentFor_of_isQuiet fun _ hmem => Connection.isQuiet_cancel hcancel hmem
    · rfl
  | looked =>
    unfold moveOf
    dsimp only
    split
    · exact sentFor_of_isQuiet fun _ hmem => Connection.isQuiet_respond hmem
    · rfl
  | lost e => exact sentFor_of_isQuiet fun _ hmem => Connection.isQuiet_lose hmem
  | queued _ | observed _ | read _ => rfl

/-- **What becomes of the connection**, whatever the caller does. -/
theorem becomes_act (config : PoolConfig) (x : Exchange σ) (act : Act) :
    x.caller.Becomes (x.act config act).2 (x.act config act).1.caller := by
  obtain ⟨hcaller, -, heffects⟩ := act_eq config x act
  rw [hcaller, heffects]
  have hself : x.caller.Becomes [] x.caller :=
    Connection.becomes_self fun _ hmem => absurd hmem List.not_mem_nil
  cases act with
  | queued call => exact hself.of_eq rfl rfl rfl
  | flushed env => exact (Connection.moves_flush env config x.caller x.ledger).toBecomes
  | expired env now => exact (Connection.moves_expire env now x.caller x.ledger).toBecomes
  | advanced env now => exact (Connection.moves_advance env config now x.caller x.ledger).toBecomes
  | canceled env id =>
    unfold moveOf
    dsimp only
    split
    · next hcancel => exact (Connection.moves_cancel hcancel).toBecomes
    · exact hself
  | looked =>
    unfold moveOf
    dsimp only
    split
    · exact (Connection.moves_respond config _ x.caller x.ledger).toBecomes
    · exact hself
  | lost e => exact (Connection.moves_lose config e x.caller x.ledger).toBecomes
  | observed _ | read _ => exact hself

/-! ## §3. Whatever comes. -/

/-- An exchange goes on, with these effects at the caller. -/
inductive Onward (service : Service σ) (limits : EndpointConfig) (config : PoolConfig)
    (x : Exchange σ) : List Effect → Exchange σ → Prop where
  /-- Nothing has happened yet. -/
  | here : Onward service limits config x [] x
  /-- The caller does something. -/
  | caller {more : List Effect} {y : Exchange σ} (onward : Onward service limits config x more y)
    (act : Act) : y.Keeps act →
    Onward service limits config x (more ++ (y.act config act).2) (y.act config act).1
  /-- Something happens at the agent. -/
  | agent {more : List Effect} {y : Exchange σ} (onward : Onward service limits config x more y)
    (occurrence : Worker.Occurrence) :
    Onward service limits config x more (y.serve service limits occurrence)

/-- **A call that is settled** keeps its outcome and is not sent again. -/
theorem Onward.settled (onward : Onward service limits config x more y)
    (hfin : x.ledger.isFinished id = true) :
    y.ledger.get? id = x.ledger.get? id ∧ sentFor id more = 0 := by
  induction onward with
  | here => exact ⟨rfl, rfl⟩
  | @caller more y onward act hkeeps ih =>
    obtain ⟨hsame, hnone⟩ := ih
    have hstill : y.ledger.isFinished id = true := by
      rw [Ledger.isFinished_eq, hsame, ← Ledger.isFinished_eq]
      exact hfin
    refine ⟨((grows_act hkeeps).get?_of_isFinished hstill).trans hsame, ?_⟩
    rw [sentFor_append, hnone, sentFor_act hstill act]
  | agent onward occurrence ih => exact ih

/-! ## §4. The numbers of the link. -/

/-- A link is handed no more call frames than there are. -/
theorem handedOut_le (link : LinkId) (effects : List Effect) :
    handedOut link effects ≤ (callsIn (handedIn effects)).length := by
  induction effects with
  | nil => exact Nat.le_refl _
  | cons effect effects ih =>
    have hcons : handedIn (effect :: effects) = handedIn [effect] ++ handedIn effects :=
      handedIn_append [effect] effects
    have hfirst : handedOut link [effect] ≤ (callsIn (handedIn [effect])).length := by
      cases effect with
      | send target call frame taken =>
        show handedOut link [.send target call frame taken] ≤ (callsIn [frame]).length
        unfold handedOut callsIn Effect.isCallOn
        cases hkind : frame.kind == .call <;> simp [hkind, List.countP_singleton]
        split <;> omega
      | _ => exact Nat.zero_le _
    rw [hcons, callsIn_append, List.length_append]
    have hsplit := handedOut_append link [effect] effects
    rw [List.singleton_append] at hsplit
    omega

/-- **The numbers of the link stay in order**, as long as they suffice. -/
theorem Run.numbered (run : Run service limits config effects history x)
    (hroom : Suffices effects) {live : Live} (hlive : x.caller.phase = .connected live) :
    live.Numbered := by
  induction run generalizing live with
  | start c ledger peer link origin =>
    cases hlive
    exact Live.numbered_new peer link
  | @caller effects history x run act ih =>
    obtain ⟨-, ⟨before, hbefore, hfollows⟩ | ⟨peer, link, rfl, -⟩⟩ :=
      (becomes_act config x act).connected live hlive
    · -- the next number is the number of frames so far, and there is room for those of this act
      have hnext := ((run.dealt hroom.of_append).live before hbefore).next
      have hhanded := handedOut_le before.link (x.act config act).2
      unfold Suffices at hroom
      rw [handedIn_append, callsIn_append, List.length_append] at hroom
      have hsmall : before.next.toNat + handedOut before.link (x.act config act).2 < 2 ^ 64 := by
        omega
      exact (hfollows.later (ih (by unfold Suffices; omega) hbefore) hsmall).numbered
    · exact Live.numbered_new peer link
  | agent run occurrence _ _ ih => exact ih hroom hlive

/-- A call that is in flight is found by the response under its number. -/
theorem Run.finds (run : Run service limits config effects history x) (hroom : Suffices effects)
    {frame : ResponseFrame} {live : Live} {call : PendingCall}
    (hlive : x.caller.phase = .connected live) (hcall : live.callAt? frame.sequence = some call) :
    x.caller.Finds frame live call := by
  refine ⟨hlive, ?_, hcall⟩
  have hapart := (run.numbered hroom hlive).apart _ (mem_of_find?_key hcall)
  simpa using hapart

end Exchange

end RemoteCall
