/-
  RemoteCall.Proofs.Pool.Timers
  ─────────────────────────────
  **TIMERS NEITHER SPIN NOR OVERSLEEP.**

  When a pool has done what is due, it sleeps until something is brought before
  it or the next of its timers comes:

      deadline   of a call that is held
      retry      of a connection that may connect and has demand
      expiry     of a connection without demand

  Whatever was due has been done, so none of them has come yet: calls past their
  deadline have an outcome and are let go of, an attempt that was due has been
  started or waits for the directory, and a connection that has been idle for
  long enough is removed.  Sending and connecting come after deadlines and move
  no call out of sight of them (`Connection.NumberedIn.sublist_advance`).

  Main statements:
    • `Connection.lt_of_mem_wakeups` — one connection has nothing left to do,
    • `Run.onTime`                   — the whole pool, at any time,
    • `Verdict.of_timeout`           — which calls time out, and how,
    • `timers_neither_spin_nor_oversleep` — the whole.
-/
import RemoteCall.Proofs.Frame.Format
import RemoteCall.Proofs.Pool.Reaping

namespace RemoteCall

/-- A call whose deadline has not come is not past it. -/
theorem PendingCall.isExpired_iff {call : PendingCall} {now : Time} :
    call.isExpired now = true ↔ ∃ deadline, call.deadline = some deadline ∧ deadline ≤ now := by
  unfold isExpired
  cases call.deadline with
  | none => simp
  | some deadline => simp

namespace Connection

variable {env : Surroundings} {config : PoolConfig} {now t : Time} {c c' : Connection} {l : Ledger}
  {call : PendingCall} {effects : List Effect}

/-! ## §1. The timers of a connection. -/

/-- **The timers of a connection.** -/
theorem mem_wakeups :
    t ∈ c.wakeups config
      ↔ (∃ call ∈ c.calls, call.deadline = some t)
        ∨ (c.phase = .disconnected t ∧ c.looking = false ∧ c.hasDemand = true)
        ∨ ∃ since, c.idleSince = some since ∧ t = since + config.expiryTime := by
  have hdeadline : t ∈ (c.waiting ++ c.inFlight).filterMap (·.deadline)
      ↔ ∃ call ∈ c.calls, call.deadline = some t := by
    rw [List.mem_filterMap]
    exact exists_congr fun call => and_congr_left' List.perm_append_comm.mem_iff
  unfold wakeups
  dsimp only
  rw [List.mem_append, List.mem_append, hdeadline, or_assoc]
  refine or_congr_right (or_congr ?_ ?_)
  · cases c.phase with
    | disconnected retryAt =>
      cases hlooking : c.looking <;> cases hdemand : c.hasDemand <;> simp [eq_comm]
    | connecting _ | connected _ | errored _ => simp
  · cases c.idleSince <;> simp

/-! ## §2. What is due has been done. -/

/-- **No deadline of a call that is kept has come.** -/
theorem lt_deadline (hknown : ∀ call ∈ c.calls, l.knows call.id = true)
    (hcall : call ∈ (c.expire env now l).connection.calls) (ht : call.deadline = some t) :
    now < t := by
  rw [calls_expire, ledger_expire] at hcall
  obtain ⟨hheld, hopen⟩ := Ledger.mem_unsettled.mp hcall
  by_contra hcome
  -- the call would have timed out
  have hexpired : call.isExpired now = true :=
    PendingCall.isExpired_iff.mpr ⟨t, ht, Nat.not_lt.mp hcome⟩
  have hfin : (l.timeOut now (c.waiting ++ c.inFlight)).isFinished call.id = true := by
    refine Ledger.isFinished_failAll ?_ .timeout (hknown call hheld)
    exact List.mem_map_of_mem
      (List.mem_filter.mpr ⟨List.perm_append_comm.subset hheld, hexpired⟩)
  rw [hopen] at hfin
  cases hfin

/-- A connection that looks for no peer and is without a link is not due for another attempt: if it
was, the attempt has been started, or there is no peer. -/
theorem isDue_sought (env : Surroundings) (config : PoolConfig) (now : Time) (c : Connection)
    (l : Ledger) : (c.sought env config now l).1.isDue now = false := by
  unfold sought
  dsimp only
  split
  · next hdue =>
    unfold seek
    split
    · -- there is no peer, and the connection looks for one
      unfold isDue
      dsimp only
      split
      · rw [Bool.not_true, Bool.and_false, Bool.false_and]
      · rfl
    · rfl
  · next hrested => exact Bool.eq_false_iff.mpr hrested

/-- **No attempt is due that might be started.** -/
theorem lt_retryAt (hphase : (c.advance env config now l).connection.phase = .disconnected t)
    (hlooking : (c.advance env config now l).connection.looking = false)
    (hdemand : (c.advance env config now l).connection.hasDemand = true) : now < t := by
  obtain ⟨idleSince, hnoted⟩ :=
    noteDemand_eq ((c.sought env config now l).1.flush env config (c.expire env now l).ledger).1 now
  rw [advance_eq, hnoted] at hphase hlooking hdemand
  have hdue := isDue_sought env config now c l
  -- a connection that has a link keeps it when calls are sent
  have hnone : (c.sought env config now l).1.live? = none := by
    cases hlive? : (c.sought env config now l).1.live? with
    | none => rfl
    | some live =>
      have hlive := phase_of_live? hlive?
      cases hd : live.draining with
      | true =>
        rw [flush_of_draining hlive hd] at hphase
        rw [hlive] at hphase
        cases hphase
      | false =>
        rw [flush_of_connected hlive hd] at hphase
        cases hphase
  rw [flush_of_live?_eq_none hnone] at hphase hlooking hdemand
  unfold isDue at hdue
  rw [show (c.sought env config now l).1.phase = _ from hphase,
    show (c.sought env config now l).1.looking = _ from hlooking,
    show (c.sought env config now l).1.hasDemand = _ from hdemand] at hdue
  simpa using hdue

/-- A connection that is kept has not been idle for the expiry time. -/
theorem lt_expiry {since : Time} (hkept : c.isSpent config now = false)
    (hsince : c.idleSince = some since) : now < since + config.expiryTime := by
  unfold isSpent at hkept
  rw [hsince] at hkept
  exact Nat.lt_of_not_le fun hcome =>
    of_decide_eq_false hkept (Nat.le_sub_of_add_le' hcome)

/-- **A connection that has done what is due, and is kept, has nothing to do at once.** -/
theorem lt_of_mem_wakeups (h : c.NumberedIn effects)
    (hknown : ∀ call ∈ c.calls, l.knows call.id = true)
    (hkept : (c.advance env config now l).connection.isSpent config now = false)
    (ht : t ∈ (c.advance env config now l).connection.wakeups config) : now < t := by
  rcases mem_wakeups.mp ht with ⟨call, hcall, hdeadline⟩ | ⟨hphase, hlooking, hdemand⟩
    | ⟨since, hsince, rfl⟩
  · exact lt_deadline hknown ((h.sublist_advance env config now l).subset hcall) hdeadline
  · exact lt_retryAt hphase hlooking hdemand
  · exact lt_expiry hkept hsince

end Connection

namespace Pool

variable {config : PoolConfig} {history earlier later : List Moment} {p : Pool} {m : Moment}
  {event : Event} {now t : Time} {c : Connection} {id : CallId} {e : Failure}

/-! ## §3. The timers of a pool. -/

/-- The next timer is one of the timers of the connections. -/
theorem of_wakeup? (h : p.wakeup? = some t) :
    ∃ c ∈ p.connections, t ∈ c.wakeups p.config :=
  List.mem_flatMap.mp (List.min?_mem h)

/-- **No timer is overslept**: the next one is no later. -/
theorem wakeup?_le (hc : c ∈ p.connections) (ht : t ∈ c.wakeups p.config) :
    ∃ next, p.wakeup? = some next ∧ next ≤ t := by
  have hmem : t ∈ p.connections.flatMap (·.wakeups p.config) := List.mem_flatMap.mpr ⟨c, hc, ht⟩
  unfold wakeup?
  cases hmin : (p.connections.flatMap (·.wakeups p.config)).min? with
  | none =>
    rw [List.min?_eq_none_iff.mp hmin] at hmem
    cases hmem
  | some next => exact ⟨next, rfl, (List.min?_eq_some_iff.mp hmin).2 t hmem⟩

/-- The pool has done what is due, and wakes up in time for what comes next. -/
structure OnTime (q : Pool) (now : Time) : Prop where
  /-- No deadline of a call that is held has come. -/
  ahead : ∀ x ∈ held q.connections, ∀ t, x.2.deadline = some t → now < t
  /-- There is nothing to wake up for at once. -/
  rests : ∀ t, q.wakeup? = some t → now < t
  deadline : ∀ x ∈ held q.connections, ∀ t, x.2.deadline = some t →
    ∃ next, q.wakeup? = some next ∧ next ≤ t
  retry : ∀ c ∈ q.connections, ∀ retryAt, c.phase = .disconnected retryAt →
    c.looking = false → c.hasDemand = true → ∃ next, q.wakeup? = some next ∧ next ≤ retryAt
  expiry : ∀ c ∈ q.connections, ∀ since, c.idleSince = some since →
    ∃ next, q.wakeup? = some next ∧ next ≤ since + q.config.expiryTime

/-- A connection that is left when a pool has done what is due has nothing to do at once. -/
theorem Tidy.lt_of_mem_wakeups {effects : List Effect} (h : Tidy effects p) {env : Surroundings}
    (hc : c ∈ (p.advance env now).1.connections) (ht : t ∈ c.wakeups p.config) : now < t := by
  obtain ⟨hmoved, hkept⟩ := List.mem_filter.mp hc
  obtain ⟨before, d, after, hsplit, rfl⟩ := of_mem_moved hmoved
  have hd : d ∈ p.connections := by
    rw [hsplit]
    exact List.mem_append_right _ List.mem_cons_self
  have hgrows := grows_moveAll (Connection.grows_advance env p.config now) before p.ledger
  refine Connection.lt_of_mem_wakeups (h.numbered d hd) (fun call hcall => ?_)
    (by simpa using hkept) ht
  exact hgrows.knows (h.known (d.key, call) (mem_held.mpr ⟨d, hd, rfl, hcall⟩))

/-- **A pool that has done what is due is on time.** -/
theorem Run.onTime (run : Run config history p) (env : Surroundings) (now : Time) :
    OnTime (p.advance env now).1 now := by
  have htidy := run.accounts.tidy
  have hlt : ∀ c ∈ (p.advance env now).1.connections, ∀ t ∈ c.wakeups p.config, now < t :=
    fun c hc t ht => htidy.lt_of_mem_wakeups hc ht
  refine ⟨?_, ?_, ?_, ?_, ?_⟩
  · intro x hx t ht
    obtain ⟨c, hc, -, hcall⟩ := mem_held.mp hx
    exact hlt c hc t (Connection.mem_wakeups.mpr (.inl ⟨x.2, hcall, ht⟩))
  · intro t ht
    obtain ⟨c, hc, hmem⟩ := of_wakeup? ht
    exact hlt c hc t hmem
  · intro x hx t ht
    obtain ⟨c, hc, -, hcall⟩ := mem_held.mp hx
    exact wakeup?_le hc (Connection.mem_wakeups.mpr (.inl ⟨x.2, hcall, ht⟩))
  · intro c hc retryAt hphase hlooking hdemand
    exact wakeup?_le hc (Connection.mem_wakeups.mpr (.inr (.inl ⟨hphase, hlooking, hdemand⟩)))
  · intro c hc since hsince
    exact wakeup?_le hc (Connection.mem_wakeups.mpr (.inr (.inr ⟨since, hsince, rfl⟩)))

end Pool

/-! ## §4. Calls that time out. -/

/-- What attempts and links report.  An attempt has found no peer or has taken too long; a link is
closed or broken, its peer has sent what is no frame, or a frame could not be written. -/
inductive Notice.IsGenuine : Notice → Prop where
  | connected (key : ConnectionKey) (generation : Nat) (peer : PeerName) (link : LinkId) :
    IsGenuine (.connected key generation peer link)
  | unreached (key : ConnectionKey) (generation : Nat) (detail : String) :
    IsGenuine (.connectFailed key generation (.connectionFailed detail))
  | slow (key : ConnectionKey) (generation : Nat) (limit : Duration) :
    IsGenuine (.connectFailed key generation (.connectTimeout limit))
  | response (key : ConnectionKey) (generation : Nat) (frame : ResponseFrame) :
    IsGenuine (.response key generation frame)
  | closed (key : ConnectionKey) (generation : Nat) :
    IsGenuine (.failed key generation .connectionClosed)
  | broken (key : ConnectionKey) (generation : Nat) (kind : IoKind) (message : String) :
    IsGenuine (.failed key generation (.ofIo kind message))
  | unreadable (key : ConnectionKey) (generation : Nat) {max : Nat} {src rest : Bytes}
      {e : Failure} :
    ResponseFrame.decode max src = .fault e rest → IsGenuine (.failed key generation e)
  | unwritable (key : ConnectionKey) (generation : Nat) {max : Nat} {frame : RequestFrame}
      {e : Failure} :
    RequestFrame.encode max frame = .error e → IsGenuine (.failed key generation e)

/-- The failure that is reported. -/
def Notice.failure? : Notice → Option Failure
  | .connectFailed _ _ e | .failed _ _ e => some e
  | _ => none

/-- What is no frame breaks the protocol. -/
theorem ResponseFrame.isProtocol_of_fault {max : Nat} {src rest : Bytes} {e : Failure}
    (h : ResponseFrame.decode max src = .fault e rest) : e.isProtocol = true := by
  have hdecodes := ResponseFrame.format.decodes max src
  rw [show ResponseFrame.format.decode max src = .fault e rest from h] at hdecodes
  cases hdecodes with
  | undersized | oversized | unknown => rfl

/-- **Attempts and links report no deadline.** -/
theorem Notice.IsGenuine.failure?_ne {notice : Notice} (h : notice.IsGenuine) :
    notice.failure? ≠ some .timeout := by
  intro htimeout
  cases h with
  | connected | unreached | slow | response | closed => cases htimeout
  | broken key generation kind message => cases kind <;> cases htimeout
  | unreadable key generation hfault =>
    cases htimeout
    cases ResponseFrame.isProtocol_of_fault hfault
  | @unwritable key generation max frame e hrefused =>
    cases htimeout
    unfold RequestFrame.encode at hrefused
    dsimp only at hrefused
    split at hrefused <;> cases hrefused

namespace Pool

variable {config : PoolConfig} {history earlier later : List Moment} {p : Pool} {m : Moment}
  {event : Event} {id : CallId}

/-- What an attempt or a link reports at a moment. -/
def Moment.reported? (m : Moment) : Option Notice :=
  match m.event with
  | .report notice => some notice
  | _ => none

/-- What attempts and links have reported, in order. -/
def reportsOf (history : List Moment) : List Notice :=
  history.filterMap (·.reported?)

@[simp] theorem reportsOf_append (earlier later : List Moment) :
    reportsOf (earlier ++ later) = reportsOf earlier ++ reportsOf later :=
  List.filterMap_append

/-- A notice that comes before the pool has just been reported. -/
theorem of_mem_notices_after {notice : Notice} (hmem : notice ∈ (p.after event).1.notices) :
    notice ∈ p.notices ∨ event = .report notice := by
  cases event with
  | issue _ | settle _ _ | stop | advance _ _ => exact .inl hmem
  | report other =>
    rcases List.mem_append.mp hmem with hold | hnew
    · exact .inl hold
    · exact .inr (by rw [List.mem_singleton.mp hnew])
  | send command =>
    unfold after send at hmem
    dsimp only at hmem
    split at hmem <;> exact .inl hmem
  | look env now subject =>
    refine .inl ?_
    cases subject with
    | stop => exact absurd hmem List.not_mem_nil
    | command first =>
      have hsame : (p.after (.look env now (.command first))).1.notices = p.notices :=
        (steady_command env now { p with commands := p.commands.tail } first).notices
      exact hsame ▸ hmem
    | notice first =>
      have hsame : (p.after (.look env now (.notice first))).1.notices = p.notices.tail :=
        (steady_notice { p with notices := p.notices.tail } first).notices
      exact List.mem_of_mem_tail (hsame ▸ hmem)
    | directory _ | timer => exact hmem

/-- What is before the pool has been reported. -/
theorem Run.mem_reportsOf (run : Run config history p) :
    ∀ notice ∈ p.notices, notice ∈ reportsOf history := by
  induction run with
  | start h =>
    rw [eq_of_new h]
    simp
  | @next history p run event hadmits ih =>
    intro notice hmem
    rw [reportsOf_append]
    rcases of_mem_notices_after hmem with hold | rfl
    · exact List.mem_append_left _ (ih notice hold)
    · exact List.mem_append_right _ List.mem_cons_self

/-- **A call that times out, other than by the word of its caller, is held and past its deadline**,
when the pool does what is due. -/
theorem Verdict.of_timeout (h : Verdict p event id .timeout)
    (hown : ∀ id e, event ≠ .settle id e)
    (hgenuine : ∀ env now notice, event = .look env now (.notice notice) →
      notice.failure? ≠ some .timeout) :
    ∃ env now, event = .advance env now
      ∧ ∃ x ∈ held p.connections, x.2.id = id ∧ x.2.isExpired now = true := by
  cases h with
  | settled => exact absurd rfl (hown id .timeout)
  | @expired env now x hx hexpired => exact ⟨env, now, rfl, x, hx, rfl, hexpired⟩
  | @charged event x _ hcharges _ =>
    cases hcharges with
    | attempt | link => exact absurd rfl (hgenuine _ _ _ rfl)
    | unreadable _ _ _ _ _ he =>
      obtain ⟨detail, hdecode⟩ := Ledger.eq_decode_of_deliver he
      cases hdecode
  | fault => exact absurd rfl (hgenuine _ _ _ rfl)
  | reported _ hresult =>
    rcases ResponseFrame.result_eq_error hresult with ⟨_, heq⟩ | ⟨_, _, heq⟩ <;> cases heq

/-- Only the pool's own timer lets a call time out, and only past its deadline, unless it is told so
from outside. -/
theorem Run.times_out (run : Run config history p)
    (hreports : ∀ notice ∈ reportsOf history, notice.IsGenuine)
    {event : Event} (hadmits : p.Admits history event) (hown : ∀ id e, event ≠ .settle id e)
    (hopen : p.ledger.isFinished id = false)
    (htimeout : (p.after event).1.ledger.failure? id = some .timeout) :
    ∃ env now, event = .advance env now
      ∧ ∃ x ∈ takenUp history, x.2.id = id ∧ x.2.isExpired now = true := by
  have hverdict := (records_after p event).only (Ledger.isOpen_iff.mpr hopen) htimeout
  obtain ⟨env, now, rfl, x, hx, rfl, hexpired⟩ := hverdict.of_timeout hown (by
    rintro env now notice rfl
    have hreported := run.mem_reportsOf notice (List.mem_of_mem_head? hadmits.2)
    exact (hreports notice hreported).failure?_ne)
  -- a call that is held has been taken up, with the deadline that it has
  have hstill : x ∈ stillOpen p.ledger (held p.connections) :=
    mem_stillOpen.mpr ⟨hx, Ledger.isOpen_iff.mpr hopen⟩
  have hissued := run.accounts.same.subset (List.mem_map_of_mem hstill)
  exact ⟨env, now, rfl, issued x, (mem_stillOpen.mp hissued).1, rfl, hexpired⟩

/-! ## §5. The whole. -/

/-- **Timers neither spin nor oversleep.**  Whatever a pool has come to, when it has done what is
due, no call that it holds is past its deadline, it does not wake up at once, and it wakes up no
later than a deadline, the next attempt of a connection that may start one, and the end of a
connection that is idle.  Unless it is told so from outside, a call times out only when the pool
does what is due, and not before the deadline under which it was taken up. -/
theorem timers_neither_spin_nor_oversleep (run : Run config history p)
    (hreports : ∀ notice ∈ reportsOf history, notice.IsGenuine) :
    (∀ env now, OnTime (p.advance env now).1 now)
      ∧ ∀ earlier m later id, history = earlier ++ m :: later →
        (∀ id e, m.event ≠ .settle id e) → m.before.ledger.isFinished id = false →
        m.after.ledger.failure? id = some .timeout →
        ∃ env now, m.event = .advance env now
          ∧ ∃ x ∈ takenUp earlier, x.2.id = id
            ∧ ∃ deadline, x.2.deadline = some deadline ∧ deadline ≤ now := by
  refine ⟨run.onTime, ?_⟩
  intro earlier m later id hsplit hown hopen htimeout
  obtain ⟨hrun, hadmits⟩ := run.at_split hsplit
  have hearlier : ∀ notice ∈ reportsOf earlier, notice.IsGenuine := by
    intro notice hmem
    refine hreports notice ?_
    rw [hsplit, reportsOf_append]
    exact List.mem_append_left _ hmem
  obtain ⟨env, now, hevent, x, hx, hid, hexpired⟩ :=
    hrun.times_out hearlier hadmits hown hopen htimeout
  exact ⟨env, now, hevent, x, hx, hid, PendingCall.isExpired_iff.mp hexpired⟩

section OneDeadline

/-- The first attempt has reached no peer, so the pool wakes up for the next one; when the deadline
of the call has come, it times out. -/
theorem timers_neither_spin_nor_oversleep_when_nobody_is_reached :
    ∃ (earlier : List Moment) (m : Moment) (p : Pool), Run {} (earlier ++ [m]) p
      ∧ (∀ notice ∈ reportsOf (earlier ++ [m]), notice.IsGenuine)
      ∧ reportsOf earlier = [.connectFailed oneAgent 1 (.connectionFailed "refused")]
      ∧ m.before.wakeup? = some 100 ∧ m.after.ledger.failure? oneCall.id = some .timeout
      ∧ OnTime (p.advance oneAddress 500).1 500
      ∧ ∃ env now, m.event = .advance env now
        ∧ ∃ x ∈ takenUp earlier, x.2.id = oneCall.id
          ∧ ∃ deadline, x.2.deadline = some deadline ∧ deadline ≤ now := by
  have start : Run {} [] { config := {}, subscription := ⟨0⟩ } :=
    Run.start (show Pool.new {} {} = _ from rfl)
  have asked := (start.next (.issue .unit) trivial).next (.send (.call oneAgent oneCall))
    ⟨by decide, by decide, rfl⟩
  have sought := (asked.next (.look oneAddress 0 (.command (.call oneAgent oneCall)))
    ⟨rfl, rfl⟩).next (.advance oneAddress 0) trivial
  have unreached := (sought.next (.report (.connectFailed oneAgent 1 (.connectionFailed "refused")))
    trivial).next (.look oneAddress 0
      (.notice (.connectFailed oneAgent 1 (.connectionFailed "refused")))) ⟨rfl, rfl⟩
  have rested := unreached.next (.advance oneAddress 0) trivial
  have late := rested.next (.advance oneAddress 500) trivial
  have hreports : ∀ notice ∈ [Notice.connectFailed oneAgent 1 (.connectionFailed "refused")],
      notice.IsGenuine := by
    intro notice hmem
    rw [List.mem_singleton.mp hmem]
    exact .unreached oneAgent 1 "refused"
  obtain ⟨honTime, htimeouts⟩ := timers_neither_spin_nor_oversleep late hreports
  exact ⟨_, _, _, late, hreports, rfl, rfl, rfl, honTime oneAddress 500,
    htimeouts _ _ [] oneCall.id rfl (fun _ _ heq => by cases heq) rfl rfl⟩

end OneDeadline

end Pool

end RemoteCall
