/-
  RemoteCall.Proofs.Pool.Faults
  ─────────────────────────────
  **FAULTS OF A PEER.**

  A peer that breaks the protocol, or refuses the interface version, would do so
  again, so nothing that it was sent is sent once more:

      in flight   →  failed, with the fault itself
      waiting     →  waiting, uncharged and in order
      the link    →  closed; the next attempt is one interval later at least

  The fault is reported for the link, or the version is refused in the response
  to a call in flight (`Faults`).  A response that finds no call is no such
  fault, whatever it says: the pool cannot tell it from one that comes too late.

  Main statements:
    • `Faults.rejects`   — the step in which the fault is taken note of,
    • `Run.rests`        — no attempt until the interval is over,
    • `faults_are_final` — the whole,
    • `rejection_of_a_cancelled_call_finds_nobody` — a response that is no fault.
-/
import RemoteCall.Proofs.Pool.Stepping

namespace RemoteCall

/-- A rejection of the version does not announce a shutdown. -/
theorem Failure.isRefusal_of_isVersionRejection {e : Failure} (h : e.isVersionRejection = true) :
    e.isRefusal = false := by
  cases e with
  | remote code message =>
    rcases Bool.or_eq_true _ _ |>.mp h with hcode | hcode
    · rw [beq_iff_eq.mp hcode]
      rfl
    · rw [beq_iff_eq.mp hcode]
      rfl
  | _ => rfl

/-! ## §1. Without a link. -/

/-- What is left of a phase when it is time to do what is due: a failure is slept off. -/
def Phase.rested (config : PoolConfig) (now : Time) : Phase → Phase
  | .errored _ => .disconnected (now + config.reconnectInterval)
  | phase => phase

namespace Connection

variable {env : Surroundings} {config : PoolConfig} {now : Time} {c : Connection} {l : Ledger}

theorem phase_backOff (config : PoolConfig) (now : Time) (c : Connection) :
    (c.backOff config now).phase = c.phase.rested config now := by
  unfold backOff Phase.rested
  split <;> simp_all

theorem phase_expire (h : c.live? = none) (env : Surroundings) (now : Time) (l : Ledger) :
    (c.expire env now l).connection.phase = c.phase := by
  unfold expire
  dsimp only
  split
  · next hphase =>
    rw [live?_of_phase hphase] at h
    cases h
  · rfl

/-- **Without a link, an attempt is started when its time has come**, or nothing happens. -/
theorem sought_cases (h : c.live? = none) (env : Surroundings) (config : PoolConfig) (now : Time)
    (l : Ledger) :
    (∃ t peers, c.phase.rested config now = .disconnected t ∧ t ≤ now
        ∧ (c.sought env config now l).2 = [.seek c.key (c.generation + 1) peers])
      ∨ (c.sought env config now l).1.phase = c.phase.rested config now
        ∧ (c.sought env config now l).2 = [] := by
  obtain ⟨waiting, phase, hrested, -⟩ := rested_eq h env config now l
  have hphase : phase = c.phase.rested config now := by
    rw [← phase_expire h env now l, ← phase_backOff, hrested]
  unfold sought
  rw [hrested]
  dsimp only
  split
  · next hdue =>
    obtain ⟨t, ht, hle⟩ : ∃ t, phase = .disconnected t ∧ t ≤ now := by
      unfold isDue at hdue
      split at hdue
      · next t hdisconnected =>
        simp only [Bool.and_eq_true, decide_eq_true_eq] at hdue
        exact ⟨t, hdisconnected, hdue.1.1⟩
      · cases hdue
    unfold seek
    split
    · exact .inr ⟨hphase, rfl⟩
    · exact .inl ⟨t, _, hphase.symm.trans ht, hle, rfl⟩
  · exact .inr ⟨hphase, rfl⟩

/-- The same when the connection does all that is due. -/
theorem advance_cases (h : c.live? = none) (env : Surroundings) (config : PoolConfig) (now : Time)
    (l : Ledger) :
    (∃ t peers, c.phase.rested config now = .disconnected t ∧ t ≤ now
        ∧ .seek c.key (c.generation + 1) peers ∈ (c.advance env config now l).effects)
      ∨ (c.advance env config now l).connection.phase = c.phase.rested config now
        ∧ ∀ effect ∈ (c.advance env config now l).effects, effect.isQuiet = true := by
  obtain ⟨idleSince, hnoted⟩ :=
    noteDemand_eq ((c.sought env config now l).1.flush env config (c.expire env now l).ledger).1 now
  obtain ⟨-, hnone⟩ := moves_sought h env config now l
  rw [advance_eq, hnoted, flush_of_live?_eq_none hnone, List.append_nil]
  dsimp only
  rcases sought_cases h env config now l with ⟨t, peers, hrested, hle, hseek⟩ | ⟨hphase, hnothing⟩
  · refine .inl ⟨t, peers, hrested, hle, ?_⟩
    rw [hseek]
    exact List.mem_append_right _ (List.mem_singleton_self _)
  · rw [hnothing, List.append_nil]
    exact .inr ⟨hphase, fun effect hmem => isQuiet_expire hmem⟩

end Connection

namespace Pool

variable {config : PoolConfig} {history earlier since : List Moment} {p : Pool} {m : Moment}
  {key : ConnectionKey} {c c' : Connection} {live : Live} {e : Failure}
  {env : Surroundings} {now : Time}

/-! ## §2. Resting. -/

/-- Only by doing what is due does the pool start an attempt. -/
theorem eq_advance_of_seek {event : Event} {generation : Nat} {candidates : List PeerName}
    (hmem : .seek key generation candidates ∈ (p.after event).2) :
    ∃ env now, event = .advance env now
      ∧ ∃ c ∈ p.connections, ∃ l, InTurn (Connection.advance env p.config now) p c l
        ∧ .seek key generation candidates ∈ (c.advance env p.config now l).effects := by
  cases event with
  | advance env now =>
    refine ⟨env, now, rfl, ?_⟩
    rcases List.mem_append.mp hmem with hmoved | hspent
    · obtain ⟨before, c, after, hsplit, heffect, -⟩ := of_mem_moveAll hmoved
      refine ⟨c, ?_, _, ⟨before, after, hsplit, rfl⟩, heffect⟩
      rw [hsplit]
      exact List.mem_append_right _ List.mem_cons_self
    · obtain ⟨c, -, hleave⟩ := List.mem_flatMap.mp hspent
      cases Connection.isQuiet_leave hleave
  | look env now subject => cases isQuiet_look hmem
  | _ => exact absurd hmem List.not_mem_nil

/-- The connection has failed, and if its failure has been slept off, the next attempt has to wait
for the interval. -/
def Rests (config : PoolConfig) (since : List Moment) (c : Connection) : Prop :=
  (∃ e, c.phase = .errored e)
    ∨ ∃ m ∈ since, ∃ env now, m.event = .advance env now
      ∧ c.phase = .disconnected (now + config.reconnectInterval)

theorem Rests.live? (h : Rests config since c) : c.live? = none := by
  refine Connection.live?_of_ne fun live hlive => ?_
  rcases h with ⟨e, hphase⟩ | ⟨_, -, _, _, -, hphase⟩
  · rw [hphase] at hlive
    cases hlive
  · rw [hphase] at hlive
    cases hlive

theorem Rests.ne_connecting (h : Rests config since c) (candidates : List PeerName) :
    c.phase ≠ .connecting candidates := by
  intro hconnecting
  rcases h with ⟨e, hphase⟩ | ⟨_, -, _, _, -, hphase⟩
  · rw [hphase] at hconnecting
    cases hconnecting
  · rw [hphase] at hconnecting
    cases hconnecting

/-- What is due is done. -/
theorem Rests.rested (h : Rests config since c) (hevent : m.event = .advance env now)
    (hphase : c'.phase = c.phase.rested config now) : Rests config (since ++ [m]) c' := by
  rcases h with ⟨e, herrored⟩ | ⟨m₀, hm₀, env₀, now₀, hevent₀, hdisconnected⟩
  · rw [herrored] at hphase
    exact .inr ⟨m, List.mem_append_right _ (List.mem_singleton_self m), env, now, hevent, hphase⟩
  · rw [hdisconnected] at hphase
    exact .inr ⟨m₀, List.mem_append_left _ hm₀, env₀, now₀, hevent₀, hphase⟩

/-- **One step further**, if it is not the one that starts an attempt. -/
theorem Rests.next (h : Rests config since c) (hconfig : m.before.config = config)
    (hsteps : c.Steps m.before m.event c')
    (hnone : ∀ generation candidates, Effect.seek c.key generation candidates ∉ m.effects) :
    Rests config (since ++ [m]) c' := by
  have hsame : ∀ {d : Connection}, d.phase = c.phase → Rests config (since ++ [m]) d := by
    intro d hphase
    unfold Rests
    rw [hphase]
    exact h.imp_right fun ⟨m₀, hm₀, hrest⟩ => ⟨m₀, List.mem_append_left _ hm₀, hrest⟩
  have hunlinked : ∀ {live : Live}, c.phase ≠ .connected live := by
    intro live hphase
    have hlive := h.live?
    rw [Connection.live?_of_phase hphase] at hlive
    cases hlive
  cases hsteps with
  | stays | kept _ | asked _ _ => exact hsame rfl
  | letGo _ hcancel =>
    cases Connection.letGo hcancel with
    | waiting => exact hsame rfl
    | inFlight hphase _ _ => exact absurd hphase hunlinked
  | attached _ hphase => exact absurd hphase (h.ne_connecting _)
  | @responded _ _ frame _ _ =>
    have hresponded := Connection.responded m.before.config frame c m.before.ledger
    generalize c.respond m.before.config frame m.before.ledger = moved at *
    cases hresponded with
    | ignored _ => exact hsame rfl
    | dropped hphase _ => exact absurd hphase hunlinked
    | delivered hfinds | retried hfinds | unreadable hfinds | refused hfinds | rejected hfinds
      | failed hfinds => exact absurd hfinds.phase hunlinked
  | attemptFailed _ hphase _ => exact absurd hphase (h.ne_connecting _)
  | linkFailed _ hphase _ => exact absurd hphase hunlinked
  | @reconsidered env now _ l _ _ =>
    have hreconsidered := Connection.reconsidered env m.before.config now c l
    generalize c.reconsider env m.before.config now l = moved at *
    cases hreconsidered with
    | kept _ => exact hsame rfl
    | withdrawn hphase _ => exact absurd hphase hunlinked
    | restarted hphase => exact absurd hphase (h.ne_connecting _)
  | @advanced env now l hevent hturn =>
    obtain ⟨before, after, hsplit, rfl⟩ := hturn
    have hsub : (c.advance env m.before.config now _).effects.Sublist _ :=
      sublist_of_advances ⟨before, after, hsplit, rfl⟩
    rcases Connection.advance_cases h.live? env m.before.config now
      (moveAll (Connection.advance env m.before.config now) before m.before.ledger).2.1
      with ⟨t, peers, -, -, hseek⟩ | ⟨hphase, -⟩
    · refine absurd (hsub.subset hseek) ?_
      have hnone := hnone (c.generation + 1) peers
      unfold Moment.effects at hnone
      rw [hevent] at hnone
      exact hnone
    · exact h.rested hevent (hconfig ▸ hphase)

/-- **No attempt is started until the interval is over**, for as long as the connection is there. -/
theorem Run.rests (run : Run config history p) (hsplit : history = earlier ++ m :: since)
    (hstart : ∀ c, m.after.connection? key = some c → ∃ e, c.phase = .errored e)
    (hkept : ∀ m ∈ since, (m.before.connection? key).isSome = true)
    (hnone : ∀ generation candidates, Effect.seek key generation candidates ∉ effectsOf since)
    (hc : p.connection? key = some c) : Rests config since c := by
  refine run.follow_steps key (fun since c =>
    (∀ m ∈ since, (m.before.connection? key).isSome = true) →
      (∀ generation candidates, Effect.seek key generation candidates ∉ effectsOf since) →
        Rests config since c) ?_ ?_ ?_ hsplit hc hkept hnone
  · exact fun c hc _ _ => .inl (hstart c hc)
  · intro since m c c' hrun _ hc _ hholds hsteps hkept hnone
    obtain ⟨-, rfl⟩ := mem_of_connection? hc
    rw [effectsOf_concat] at hnone
    have hrests := hholds (fun m hm => hkept m (List.mem_append_left _ hm))
      fun generation candidates hmem => hnone generation candidates (List.mem_append_left _ hmem)
    exact hrests.next hrun.config_eq hsteps
      fun generation candidates hmem => hnone generation candidates (List.mem_append_right _ hmem)
  · intro since m c' hnew _ hkept
    have hsome := hkept m (List.mem_append_right _ (List.mem_singleton_self m))
    rw [hnew] at hsome
    cases hsome

/-! ## §3. The fault. -/

/-- A notice that the peer at the other end of a link is at fault. -/
inductive Faults (c : Connection) (live : Live) (e : Failure) : Notice → Prop where
  /-- A breach of the protocol, or a version that is refused, is reported for the link. -/
  | reported : (e.isProtocol || e.isVersionRejection) = true →
    Faults c live e (.failed c.key c.generation e)
  /-- The version is refused in the response to a call in flight. -/
  | rejected {frame : ResponseFrame} {call : PendingCall} :
    c.Finds frame live call → frame.result = .error e → e.isVersionRejection = true →
      Faults c live e (.response c.key c.generation frame)

/-- **When the fault is taken note of**, the link is lost, and all calls in flight on it fail. -/
theorem Faults.rejects {effects : List Effect} (h : Tidy effects p) {first : Notice}
    (hfaults : Faults c live e first) (hphase : c.phase = .connected live)
    (hfind : p.connection? c.key = some c) :
    ∃ q, Rejects e c live p q ∧ p.notice first = (q, [.close live.link]) := by
  cases hfaults with
  | reported he =>
    obtain ⟨q, hrejects, hsettle⟩ := rejects_lose h hfind hphase he
    refine ⟨q, hrejects, ?_⟩
    have hattend : p.attend c (.failed c.key c.generation e)
        = p.settle (c.lose p.config e p.ledger) := by
      unfold attend
      rw [hphase]
    unfold Pool.notice
    dsimp only [Notice.key, Notice.generation]
    rw [hfind]
    exact (if_pos rfl).trans (hattend.trans hsettle)
  | @rejected frame call hfinds hresult he =>
    obtain ⟨q, hrejects, hsettle⟩ := rejects_settle h hfind hfinds he
    refine ⟨q, hrejects, ?_⟩
    rw [notice_response hfind, if_pos rfl, hfinds.respond_of_error hresult,
      Failure.isRefusal_of_isVersionRejection he, if_neg Bool.false_ne_true, if_pos he]
    exact hsettle

/-- The peer of a link was found to be at fault at a moment of a run. -/
structure Faulted (config : PoolConfig) (key : ConnectionKey) (c : Connection) (live : Live)
    (e : Failure) (m : Moment) (later : List Moment) (p : Pool) : Prop where
  /-- Each open call in flight fails with the fault, and keeps it; no call frame is sent for it any
  more. -/
  failed : ∀ call ∈ live.calls, m.before.ledger.isFinished call.id = false →
    m.after.ledger.failure? call.id = some e ∧ p.ledger.failure? call.id = some e
      ∧ ∀ link other frame taken, .send link other frame taken ∈ effectsOf later →
        frame.kind = .call → other.id ≠ call.id
  /-- The link is lost; the open calls that wait go on waiting, in order and as they were. -/
  own : m.after.connection? key
    = some { c with phase := .errored e, waiting := m.before.ledger.unsettled c.waiting }
  /-- The stream is closed, and nothing else is done. -/
  closed : m.effects = [.close live.link]
  /-- Outcomes stay. -/
  settled : ∀ id, m.before.ledger.isFinished id = true →
    m.after.ledger.get? id = m.before.ledger.get? id ∧ p.ledger.get? id = m.before.ledger.get? id
  /-- Nothing is recorded for those that wait. -/
  waiting : ∀ call ∈ c.waiting, m.after.ledger.get? call.id = m.before.ledger.get? call.id
  /-- The other connections and their calls are left alone. -/
  others : ∀ other, other ≠ key → m.after.connection? other = m.before.connection? other
    ∧ ∀ d, m.before.connection? other = some d → ∀ call ∈ d.calls,
      m.after.ledger.get? call.id = m.before.ledger.get? call.id
  /-- The first attempt after the fault is started one interval later at least than something that
  was due was done, for as long as the pool keeps the connection. -/
  rests : ∀ between m' rest, later = between ++ m' :: rest →
    (∀ m ∈ between ++ [m'], (m.before.connection? key).isSome = true) →
      (∀ generation candidates, Effect.seek key generation candidates ∉ effectsOf between) →
        ∀ generation candidates, .seek key generation candidates ∈ m'.effects →
          ∃ env now, m'.event = .advance env now ∧ ∃ m₀ ∈ between ++ [m'], ∃ env₀ now₀,
            m₀.event = .advance env₀ now₀ ∧ now₀ + config.reconnectInterval ≤ now

/-- The first attempt after a fault. -/
theorem Run.sought_of_faulted (run : Run config history p) {between rest : List Moment}
    {m' : Moment} (hsplit : history = earlier ++ m :: (between ++ m' :: rest))
    (hstart : ∀ c, m.after.connection? key = some c → ∃ e, c.phase = .errored e)
    (hkept : ∀ m ∈ between ++ [m'], (m.before.connection? key).isSome = true)
    (hnone : ∀ generation candidates, Effect.seek key generation candidates ∉ effectsOf between)
    {generation : Nat} {candidates : List PeerName}
    (hseek : .seek key generation candidates ∈ m'.effects) :
    ∃ env now, m'.event = .advance env now ∧ ∃ m₀ ∈ between ++ [m'], ∃ env₀ now₀,
      m₀.event = .advance env₀ now₀ ∧ now₀ + config.reconnectInterval ≤ now := by
  have hsplit' : history = (earlier ++ m :: between) ++ m' :: rest := by
    rw [hsplit, List.append_assoc, List.cons_append]
  obtain ⟨hrun, -⟩ := run.at_split hsplit'
  obtain ⟨env, now, hevent, c, hc, l, -, heffect⟩ := eq_advance_of_seek hseek
  refine ⟨env, now, hevent, ?_⟩
  -- the attempt is that of the connection for the key
  have hkey := (Connection.moves_advance env m'.before.config now c l).own _ heffect _ rfl
  have hfind : m'.before.connection? key = some c := by
    rw [hkey]
    exact connection?_of_mem hrun.accounts.tidy.keys hc
  have hrests : Rests config between c := hrun.rests rfl hstart
    (fun m hm => hkept m (List.mem_append_left _ hm)) hnone hfind
  rw [hrun.config_eq] at heffect
  rcases Connection.advance_cases hrests.live? env config now l
    with ⟨t, peers, hrested, hle, -⟩ | ⟨-, hquiet⟩
  · rcases hrests with ⟨e, hphase⟩ | ⟨m₀, hm₀, env₀, now₀, hevent₀, hphase⟩
    · rw [hphase] at hrested
      cases hrested
      exact ⟨m', List.mem_append_right _ (List.mem_singleton_self m'), env, now, hevent, hle⟩
    · rw [hphase] at hrested
      cases hrested
      exact ⟨m₀, List.mem_append_left _ hm₀, env₀, now₀, hevent₀, hle⟩
  · cases hquiet _ heffect

/-- **Faults of a peer are final.**  Whatever breach of the protocol is reported for a link, and
whichever call in flight is told that the version is refused, nothing that was in flight is sent
again, and no other call pays for it. -/
theorem faults_are_final (run : Run config history p) {later : List Moment}
    (hsplit : history = earlier ++ m :: later) {first : Notice}
    (hevent : m.event = .look env now (.notice first))
    (hc : m.before.connection? key = some c) (hphase : c.phase = .connected live)
    (hfaults : Faults c live e first) : Faulted config key c live e m later p := by
  obtain ⟨hbefore, hadmits⟩ := run.at_split hsplit
  have haccounts := hbefore.accounts
  have hgrows : m.before.ledger.Grows m.after.ledger := (haccounts.balances hadmits).grows
  obtain ⟨hmem, rfl⟩ := mem_of_connection? hc
  have hread : Tidy (effectsOf earlier) { m.before with notices := m.before.notices.tail } :=
    ⟨haccounts.tidy.keys, haccounts.tidy.known, haccounts.tidy.numbered⟩
  obtain ⟨q, hrejects, hnotice⟩ := hfaults.rejects hread hphase hc
  have hafter : m.before.after m.event = (q, [.close live.link]) := by
    rw [hevent]
    exact hnotice
  obtain rfl : m.after = q := congrArg Prod.fst hafter
  -- a call that is not in flight on the link is left alone
  have haway : ∀ call : PendingCall,
      (m.before.ledger.isFinished call.id = false → call.id ∉ live.calls.map (·.id)) →
      m.after.ledger.get? call.id = m.before.ledger.get? call.id := by
    intro call haway
    cases hfin : m.before.ledger.isFinished call.id with
    | true => exact hgrows.get?_of_isFinished hfin
    | false => exact hrejects.ledger (haway hfin)
  have hwaiting : ∀ call ∈ c.waiting,
      m.after.ledger.get? call.id = m.before.ledger.get? call.id :=
    fun call hcall => haway call (haccounts.notMem_of_waiting hmem hphase hcall)
  exact
    { failed := by
        intro call hcall hopen
        have hfailed := hrejects.failed call hcall hopen
        obtain ⟨hstays, hsilent⟩ := run.settled_since hsplit (Ledger.isFinished_of_failure? hfailed)
        exact ⟨hfailed, (congrArg (·.bind Entry.failure?) hstays).trans hfailed, hsilent⟩
      own := by
        have hsame : m.after.ledger.unsettled c.waiting = m.before.ledger.unsettled c.waiting := by
          refine List.filter_congr fun call hcall => ?_
          rw [Ledger.isFinished_eq, hwaiting call hcall, ← Ledger.isFinished_eq]
        rw [hrejects.own, hsame]
      closed := congrArg Prod.snd hafter
      settled := by
        intro id hfin
        obtain ⟨hstays, -⟩ := run.settled_since hsplit (hgrows.isFinished hfin)
        have hsame := hgrows.get?_of_isFinished hfin
        exact ⟨hsame, hstays.trans hsame⟩
      waiting := hwaiting
      others := by
        intro other hother
        refine ⟨hrejects.others other hother, fun d hd call hcall => haway call ?_⟩
        obtain ⟨hother', rfl⟩ := mem_of_connection? hd
        intro hopen hflight
        obtain ⟨own, hown, hid⟩ := List.mem_map.mp hflight
        have hheld : own ∈ c.calls := by
          rw [Connection.calls_of_connected hphase]
          exact List.mem_append_left _ hown
        have heq := haccounts.eq_of_id (mem_held.mpr ⟨d, hother', rfl, hcall⟩)
          (mem_held.mpr ⟨c, hmem, rfl, hheld⟩) (x := (d.key, call)) (y := (c.key, own)) hopen hid
        exact hother (Prod.mk.inj heq).1.symm
      rests := by
        rintro between m' rest rfl hkept hnone generation candidates hseek
        refine run.sought_of_faulted hsplit (fun d hd => ?_) hkept hnone hseek
        rw [hrejects.own] at hd
        cases hd
        exact ⟨e, rfl⟩ }

section TwoCalls

/-- Two calls are in flight, and the agent refuses the version in its response to the first. -/
theorem faults_are_final_when_the_version_is_refused :
    ∃ (earlier later : List Moment) (m : Moment) (p : Pool) (c : Connection) (live : Live),
      Run {} (earlier ++ m :: later) p ∧ m.before.connection? oneAgent = some c
        ∧ c.phase = .connected live ∧ live.calls = [oneCall, otherCall]
        ∧ Faults c live (.remote 22 "") (.response oneAgent 1 oneRejection)
        ∧ Faulted {} oneAgent c live (.remote 22 "") m later p := by
  have reported := run_twoCallsSent.next (.report (.response oneAgent 1 oneRejection)) trivial
  have rejected := reported.next
    (.look oneAddress 0 (.notice (.response oneAgent 1 oneRejection))) ⟨rfl, rfl⟩
  have rested := rejected.next (.advance oneAddress 0) trivial
  rw [List.append_assoc] at rested
  obtain ⟨earlier, later, m, p, c, live, run, hevent, hc, hphase, hcalls, hfaults⟩ :
      ∃ (earlier later : List Moment) (m : Moment) (p : Pool) (c : Connection) (live : Live),
        Run {} (earlier ++ m :: later) p
          ∧ m.event = .look oneAddress 0 (.notice (.response oneAgent 1 oneRejection))
          ∧ m.before.connection? oneAgent = some c ∧ c.phase = .connected live
          ∧ live.calls = [oneCall, otherCall]
          ∧ Faults c live (.remote 22 "") (.response oneAgent 1 oneRejection) := by
    refine ⟨_, _, _, _, _, _, rested, rfl, rfl, rfl, rfl, ?_⟩
    exact .rejected ⟨rfl, rfl, rfl⟩ rfl rfl
  exact ⟨earlier, later, m, p, c, live, run, hc, hphase, hcalls, hfaults,
    faults_are_final run rfl hevent hc hphase hfaults⟩

/-- **A response that is no fault.**  The first of two calls in flight is cancelled, and then the
agent refuses the version in its response to it: the response finds no call, so the other one stays
in flight and has no outcome, and the link stays. -/
theorem rejection_of_a_cancelled_call_finds_nobody :
    ∃ (history : List Moment) (p : Pool) (c : Connection) (live : Live), Run {} history p
      ∧ p.Admits history (.look oneAddress 0 (.notice (.response oneAgent 1 oneRejection)))
      ∧ p.connection? oneAgent = some c ∧ c.generation = 1 ∧ c.phase = .connected live
      ∧ oneRejection.result = .error (.remote 22 "")
      ∧ (Failure.remote 22 "").isVersionRejection = true
      ∧ live.calls = [otherCall] ∧ p.ledger.isFinished otherCall.id = false
      ∧ (p.after (.look oneAddress 0
          (.notice (.response oneAgent 1 oneRejection)))).1.ledger.isFinished otherCall.id = false
      ∧ (p.after (.look oneAddress 0
          (.notice (.response oneAgent 1 oneRejection)))).1.connection? oneAgent = some c := by
  have settled := (run_twoCallsSent.next (.settle 1 .aborted) fun _ => .inr (.inl rfl)).next
    (.send (.abort 1)) rfl
  have canceled := settled.next (.look oneAddress 0 (.command (.abort 1))) ⟨rfl, rfl⟩
  have rejected := canceled.next (.report (.response oneAgent 1 oneRejection)) trivial
  exact ⟨_, _, _, _, rejected, ⟨rfl, rfl⟩, rfl, rfl, rfl, rfl, rfl, rfl, rfl, rfl, rfl⟩

end TwoCalls

end Pool

end RemoteCall
