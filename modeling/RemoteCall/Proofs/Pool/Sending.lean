/-
  RemoteCall.Proofs.Pool.Sending
  ──────────────────────────────
  **WHAT IS HANDED TO THE WRITERS.**

  Only by doing what is due does a pool hand a call frame to a writer.  Such a
  frame carries the request of a call that waited and has no outcome, not even
  when all connections have done what is due: a call that is open is held by
  one connection only, so no other can have settled it in the meantime.

  Main statements:
    • `Live.of_mem_flush`        — which frames sending comes to,
    • `of_mem_advance`           — which frames one connection sends,
    • `Accounts.of_mem_effects`  — which frames a pool sends, and when.
-/
import RemoteCall.Proofs.Pool.Conservation

namespace RemoteCall

/-! ## §1. One connection. -/

variable {env : Surroundings} {config : PoolConfig} {now : Time}

theorem mem_transmit {live : Live} {interface : UInt32} {call : PendingCall} {effect : Effect}
    (h : effect ∈ (live.transmit env config interface call).2) :
    ∃ n taken, effect = .send live.link call (.call interface n call.request) taken := by
  cases hdup : env.duplicates config live.link live.next with
  | true =>
    rw [Live.transmit_twice hdup] at h
    rcases List.mem_cons.mp h with rfl | h
    · exact ⟨_, _, rfl⟩
    · rw [List.mem_singleton.mp h]
      exact ⟨_, _, rfl⟩
  | false =>
    rw [Live.transmit_once hdup] at h
    rw [List.mem_singleton.mp h]
    exact ⟨_, _, rfl⟩

/-- **Sending hands over the requests of open calls that wait.** -/
theorem Live.of_mem_flush {interface : UInt32} {ledger : Ledger} {waiting : List PendingCall}
    {live : Live} {effect : Effect}
    (h : effect ∈ (live.flush env config interface ledger waiting).effects) :
    ∃ call ∈ waiting, ledger.isFinished call.id = false
      ∧ ∃ n taken, effect = .send live.link call (.call interface n call.request) taken := by
  induction waiting generalizing live with
  | nil => exact absurd h (List.not_mem_nil)
  | cons call rest ih =>
    cases hfin : ledger.isFinished call.id with
    | true =>
      rw [flush_finished hfin] at h
      obtain ⟨other, hmem, hother⟩ := ih h
      exact ⟨other, List.mem_cons_of_mem _ hmem, hother⟩
    | false =>
      cases htakes : env.takes live.link (.call interface live.next call.request) with
      | true =>
        rw [flush_taken hfin htakes] at h
        rcases List.mem_append.mp h with hfirst | hmore
        · -- the frame of the first call
          exact ⟨call, List.mem_cons_self, hfin, mem_transmit hfirst⟩
        · obtain ⟨other, hmem, hopen, hother⟩ := ih hmore
          rw [link_transmit] at hother
          exact ⟨other, List.mem_cons_of_mem _ hmem, hopen, hother⟩
      | false =>
        rw [flush_refused hfin htakes] at h
        rw [List.mem_singleton.mp h]
        exact ⟨call, List.mem_cons_self, hfin, _, _, rfl⟩

/-- Whether an effect hands a call frame to a writer. -/
def Effect.isCall : Effect → Bool
  | .send _ _ frame _ => frame.kind == .call
  | _ => false

/-- Whether an effect neither hands over a call frame nor starts an attempt. -/
def Effect.isQuiet : Effect → Bool
  | .send _ _ frame _ => frame.kind != .call
  | .seek _ _ _ => false
  | _ => true

theorem Effect.isCall_of_isQuiet {effect : Effect} (h : effect.isQuiet = true) :
    effect.isCall = false := by
  cases effect with
  | send link call frame taken => exact Bool.not_eq_true' _ |>.mp h
  | _ => rfl

namespace Connection

variable {c : Connection} {l : Ledger}

theorem isQuiet_expire {effect : Effect} (h : effect ∈ (c.expire env now l).effects) :
    effect.isQuiet = true := by
  unfold expire at h
  dsimp only at h
  split at h
  · obtain ⟨sent, -, rfl⟩ := List.mem_map.mp h
    rfl
  · exact absurd h (List.not_mem_nil)

theorem isCall_sought {effect : Effect} (h : effect ∈ (c.sought env config now l).2) :
    effect.isCall = false := by
  unfold sought at h
  dsimp only at h
  split at h
  · unfold seek at h
    split at h
    · exact absurd h (List.not_mem_nil)
    · rw [List.mem_singleton.mp h]
      rfl
  · exact absurd h (List.not_mem_nil)

/-- Deadlines and connecting leave in the queue the calls that have no outcome. -/
theorem waiting_sought (env : Surroundings) (config : PoolConfig) (now : Time) (c : Connection)
    (l : Ledger) :
    (c.sought env config now l).1.waiting = (c.expire env now l).ledger.unsettled c.waiting := by
  have hrested : ((c.expire env now l).connection.backOff config now).waiting
      = (c.expire env now l).ledger.unsettled c.waiting := by
    rw [ledger_expire]
    unfold backOff expire
    dsimp only
    split <;> split <;> rfl
  have hsought : (c.sought env config now l).1.waiting
      = ((c.expire env now l).connection.backOff config now).waiting := by
    unfold sought seek
    dsimp only
    split
    · split <;> rfl
    · rfl
  exact hsought.trans hrested

theorem grows_advance (env : Surroundings) (config : PoolConfig) (now : Time) (c : Connection)
    (l : Ledger) : l.Grows (c.advance env config now l).ledger :=
  grows_expire env now c l

theorem get?_advance (c : Connection) (l : Ledger) {id : CallId} (h : id ∉ c.calls.map (·.id)) :
    (c.advance env config now l).ledger.get? id = l.get? id :=
  get?_expire h l

/-- **A call frame that a connection sends** is for one of its calls, which is open. -/
theorem of_mem_advance {effect : Effect} (h : effect ∈ (c.advance env config now l).effects)
    (hcall : effect.isCall = true) :
    ∃ call ∈ c.calls, (c.advance env config now l).ledger.isFinished call.id = false
      ∧ ∃ link n taken,
        effect = .send link call (.call c.key.interface n call.request) taken := by
  rw [advance_eq] at h ⊢
  dsimp only at h ⊢
  rw [List.mem_append, List.mem_append] at h
  rcases h with (hexpire | hsought) | hflush
  · rw [Effect.isCall_of_isQuiet (isQuiet_expire hexpire)] at hcall
    exact absurd hcall (by simp)
  · rw [isCall_sought hsought] at hcall
    exact absurd hcall (by simp)
  · have hsought : Conserves True [] c l _ _ := conserves_sought env config now c l
    have hkey := hsought.key
    cases hlive? : (c.sought env config now l).1.live? with
    | none =>
      rw [flush_of_live?_eq_none hlive?] at hflush
      exact absurd hflush (List.not_mem_nil)
    | some live =>
      have hlive := phase_of_live? hlive?
      cases hd : live.draining with
      | true =>
        rw [flush_of_draining hlive hd] at hflush
        exact absurd hflush (List.not_mem_nil)
      | false =>
        rw [flush_of_connected hlive hd] at hflush
        obtain ⟨call, hwaiting, hopen, n, taken, heq⟩ := Live.of_mem_flush hflush
        rw [hkey] at heq
        rw [waiting_sought] at hwaiting
        exact ⟨call, List.mem_append_right _ (Ledger.mem_unsettled.mp hwaiting).1, hopen, live.link,
          n, taken, heq⟩

theorem isQuiet_leave {effect : Effect} (h : effect ∈ c.leave) : effect.isQuiet = true := by
  unfold leave at h
  split at h
  · rw [List.mem_singleton.mp h]
    rfl
  · rw [List.mem_singleton.mp h]
    rfl
  · exact absurd h (List.not_mem_nil)

theorem effects_lose (e : Failure) (l : Ledger) : (c.lose config e l).effects = c.leave := by
  unfold lose
  split
  · split <;> rfl
  · rfl

theorem isQuiet_lose {e : Failure} {effect : Effect} (h : effect ∈ (c.lose config e l).effects) :
    effect.isQuiet = true :=
  isQuiet_leave (effects_lose e l ▸ h)

theorem isQuiet_respond {frame : ResponseFrame} {effect : Effect}
    (h : effect ∈ (c.respond config frame l).effects) : effect.isQuiet = true := by
  have hresponded := responded config frame c l
  generalize c.respond config frame l = moved at *
  cases hresponded with
  | rejected => exact isQuiet_lose h
  | _ => exact absurd h (List.not_mem_nil)

theorem isQuiet_reconsider {effect : Effect}
    (h : effect ∈ (c.reconsider env config now l).effects) : effect.isQuiet = true := by
  have hreconsidered := reconsidered env config now c l
  generalize c.reconsider env config now l = moved at *
  cases hreconsidered with
  | kept _ => exact absurd h (List.not_mem_nil)
  | withdrawn _ _ => exact isQuiet_lose h
  | restarted _ => exact isQuiet_leave h

theorem isQuiet_cancel {id : CallId} {c' : Connection} {sent : List Effect} {effect : Effect}
    (hcancel : c.cancel? env id = some (c', sent)) (h : effect ∈ sent) :
    effect.isQuiet = true := by
  cases letGo hcancel with
  | waiting => exact absurd h (List.not_mem_nil)
  | inFlight _ _ _ =>
    rw [List.mem_singleton.mp h]
    rfl

end Connection

/-! ## §2. The whole pool. -/

namespace Pool

variable {history : List Moment} {p : Pool}

/-- An effect of several connections is an effect of one of them, at the time of its move. -/
theorem of_mem_moveAll {f : Connection → Ledger → Moved} {cs : List Connection} {l : Ledger}
    {effect : Effect} (h : effect ∈ (moveAll f cs l).2.2) :
    ∃ before c after, cs = before ++ c :: after
      ∧ effect ∈ (f c (moveAll f before l).2.1).effects
      ∧ (moveAll f cs l).2.1 = (moveAll f after (f c (moveAll f before l).2.1).ledger).2.1 := by
  induction cs generalizing l with
  | nil => exact absurd h (List.not_mem_nil)
  | cons c rest ih =>
    rcases List.mem_append.mp h with hfirst | hrest
    · exact ⟨[], c, rest, rfl, hfirst, rfl⟩
    · obtain ⟨before, d, after, hsplit, hmem, hledger⟩ := ih hrest
      exact ⟨c :: before, d, after, congrArg (c :: ·) hsplit, hmem, hledger⟩

theorem isQuiet_moveAll {f : Connection → Ledger → Moved}
    (hf : ∀ {c l effect}, effect ∈ (f c l).effects → effect.isQuiet = true)
    {cs : List Connection} {l : Ledger} {effect : Effect} (h : effect ∈ (moveAll f cs l).2.2) :
    effect.isQuiet = true := by
  obtain ⟨_, _, _, -, hmem, -⟩ := of_mem_moveAll h
  exact hf hmem

/-- When all connections move, the ledger grows if each of them lets it grow. -/
theorem grows_moveAll {f : Connection → Ledger → Moved}
    (hf : ∀ (c : Connection) (l : Ledger), l.Grows (f c l).ledger) (cs : List Connection)
    (l : Ledger) : l.Grows (moveAll f cs l).2.1 := by
  induction cs generalizing l with
  | nil => exact Ledger.Grows.refl l
  | cons c rest ih => exact (hf c l).trans (ih _)

/-- When all connections move, no call is touched that none of them holds. -/
theorem get?_moveAll {f : Connection → Ledger → Moved}
    (hf : ∀ (c : Connection) (l : Ledger) {id : CallId}, id ∉ c.calls.map (·.id) →
      (f c l).ledger.get? id = l.get? id)
    {cs : List Connection} {id : CallId} (h : id ∉ (held cs).map (·.2.id)) (l : Ledger) :
    (moveAll f cs l).2.1.get? id = l.get? id := by
  induction cs generalizing l with
  | nil => rfl
  | cons c rest ih =>
    rw [held_cons, List.map_append, List.mem_append, not_or, List.map_map] at h
    exact (ih h.2 _).trans (hf c l h.1)

/-- Open calls that are held have distinct numbers. -/
theorem Accounts.held_nodup (h : Accounts history p) :
    ((stillOpen p.ledger (held p.connections)).map (·.2.id)).Nodup := by
  have htaken : ((stillOpen p.ledger (takenUp history)).map (·.2.id)).Nodup :=
    h.queue.takenUp_nodup.sublist (List.filter_sublist.map _)
  have hids := h.same.map (fun x : ConnectionKey × PendingCall => x.2.id)
  rw [List.map_map] at hids
  exact hids.nodup htaken

/-- **A call frame is for a call that is open when all connections have done what is due.** -/
theorem Accounts.of_mem_advance (h : Accounts history p) {env : Surroundings} {now : Time}
    {effect : Effect} (hmem : effect ∈ (p.advance env now).2) (hcall : effect.isCall = true) :
    ∃ x ∈ held p.connections, (p.advance env now).1.ledger.isFinished x.2.id = false
      ∧ ∃ link n taken,
        effect = .send link x.2 (.call x.1.interface n x.2.request) taken := by
  rcases List.mem_append.mp hmem with hmoved | hspent
  · obtain ⟨before, c, after, hsplit, heffect, hledger⟩ := of_mem_moveAll hmoved
    obtain ⟨call, hheld, hopen, link, n, taken, heq⟩ :=
      Connection.of_mem_advance heffect hcall
    -- ledgers only grow, so the call was open at first
    have hopen' : p.ledger.isOpen call.id = true := by
      refine ((grows_moveAll (Connection.grows_advance env p.config now) before p.ledger).trans
        (Connection.grows_expire env now c _)).isOpen ?_
      exact Ledger.isOpen_iff.mpr hopen
    -- no other connection holds the call, so none of them settles it
    have halone : call.id ∉ (held after).map (·.2.id) := by
      intro hother
      obtain ⟨x, hx, hid⟩ := List.mem_map.mp hother
      have hnodup := h.held_nodup
      rw [hsplit, held_append, held_cons, stillOpen_append, stillOpen_append, List.map_append,
        List.map_append] at hnodup
      have hlater := (List.nodup_append.mp (List.nodup_append.mp hnodup).2.1).2.2
      refine hlater call.id ?_ call.id ?_ rfl
      · exact List.mem_map.mpr ⟨(c.key, call),
          mem_stillOpen.mpr ⟨List.mem_map_of_mem hheld, hopen'⟩, rfl⟩
      · exact List.mem_map.mpr ⟨x, mem_stillOpen.mpr ⟨hx, hid ▸ hopen'⟩, hid⟩
    refine ⟨(c.key, call), mem_held.mpr ⟨c, ?_, rfl, hheld⟩, ?_, link, n, taken, heq⟩
    · rw [hsplit]
      exact List.mem_append_right _ List.mem_cons_self
    · show (moveAll (Connection.advance env p.config now) p.connections
        p.ledger).2.1.isFinished call.id = false
      rw [hledger, Ledger.isFinished_eq, get?_moveAll Connection.get?_advance halone,
        ← Ledger.isFinished_eq]
      exact hopen
  · obtain ⟨c, -, hleave⟩ := List.mem_flatMap.mp hspent
    rw [Effect.isCall_of_isQuiet (Connection.isQuiet_leave hleave)] at hcall
    exact absurd hcall (by simp)

theorem isQuiet_dropNotice {notice : Notice} {effect : Effect} (h : effect ∈ dropNotice notice) :
    effect.isQuiet = true := by
  unfold dropNotice at h
  split at h
  · rw [List.mem_singleton.mp h]
    rfl
  · exact absurd h (List.not_mem_nil)

theorem isQuiet_cancelIn {env : Surroundings} {id : CallId} {cs : List Connection}
    {effect : Effect} (h : effect ∈ (cancelIn env id cs).2) : effect.isQuiet = true := by
  induction cs with
  | nil => exact absurd h (List.not_mem_nil)
  | cons c rest ih =>
    unfold cancelIn at h
    split at h
    · next hcancel => exact Connection.isQuiet_cancel hcancel h
    · exact ih h

theorem isQuiet_teardown {effect : Effect} (h : effect ∈ p.teardown.2) :
    effect.isQuiet = true := by
  rcases List.mem_append.mp h with habandoned | hdropped
  · -- connections leave their links, and notices are dropped
    have hfold : ∀ (cs : List Connection) (acc : Ledger × List Effect),
        (∀ effect ∈ acc.2, effect.isQuiet = true) →
        ∀ effect ∈ (cs.foldl (fun acc c =>
          ((c.abandon acc.1).1, acc.2 ++ (c.abandon acc.1).2)) acc).2, effect.isQuiet = true := by
      intro cs
      induction cs with
      | nil => exact fun acc hacc => hacc
      | cons c rest ih =>
        intro acc hacc
        refine ih _ fun effect hmem => ?_
        rcases List.mem_append.mp hmem with hold | hnew
        · exact hacc effect hold
        · exact Connection.isQuiet_leave hnew
    exact hfold _ _ (fun effect hmem => absurd hmem (List.not_mem_nil)) _ habandoned
  · obtain ⟨_, -, hmem⟩ := List.mem_flatMap.mp hdropped
    exact isQuiet_dropNotice hmem

theorem isQuiet_attend {c : Connection} {first : Notice} {effect : Effect}
    (h : effect ∈ (p.attend c first).2) : effect.isQuiet = true := by
  have hattended := attended p c first
  generalize p.attend c first = stepped at *
  generalize c.paysForNotice p.config p.ledger first = paying at *
  cases hattended with
  | attached _ =>
    rw [List.mem_singleton.mp h]
    rfl
  | attemptFailed _ => exact Connection.isQuiet_lose h
  | responded => exact Connection.isQuiet_respond h
  | linkFailed _ => exact Connection.isQuiet_lose h
  | dropped => exact isQuiet_dropNotice h

theorem isQuiet_notice {first : Notice} {effect : Effect} (h : effect ∈ (p.notice first).2) :
    effect.isQuiet = true := by
  unfold notice at h
  split at h
  · split at h
    · exact isQuiet_attend h
    · exact isQuiet_dropNotice h
  · exact isQuiet_dropNotice h

theorem isQuiet_look {env : Surroundings} {now : Time} {subject : Subject} {effect : Effect}
    (h : effect ∈ (p.look env now subject).2) : effect.isQuiet = true := by
  cases subject with
  | stop => exact isQuiet_teardown h
  | command first =>
    cases first with
    | call key call =>
      unfold look command at h
      dsimp only at h
      split at h <;> exact absurd h (List.not_mem_nil)
    | abort id => exact isQuiet_cancelIn h
    | acquire key => exact absurd h (List.not_mem_nil)
    | release key => exact absurd h (List.not_mem_nil)
  | notice first => exact isQuiet_notice h
  | directory directory => exact isQuiet_moveAll (fun hmem => Connection.isQuiet_reconsider hmem) h
  | timer => exact absurd h (List.not_mem_nil)

/-- **Every call frame** is for a call that the pool holds, and that is open afterwards. -/
theorem Accounts.of_mem_effects (h : Accounts history p) {event : Event} {effect : Effect}
    (hmem : effect ∈ (p.after event).2) (hcall : effect.isCall = true) :
    ∃ x ∈ held p.connections, (p.after event).1.ledger.isFinished x.2.id = false
      ∧ ∃ link n taken,
        effect = .send link x.2 (.call x.1.interface n x.2.request) taken := by
  cases event with
  | advance env now => exact h.of_mem_advance hmem hcall
  | look env now subject =>
    rw [Effect.isCall_of_isQuiet (isQuiet_look hmem)] at hcall
    exact absurd hcall (by simp)
  | _ => exact absurd hmem (List.not_mem_nil)

end Pool

end RemoteCall
