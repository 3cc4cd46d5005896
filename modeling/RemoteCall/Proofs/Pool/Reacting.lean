/-
  RemoteCall.Proofs.Pool.Reacting
  ───────────────────────────────
  **WHAT COMES FROM OUTSIDE, AND WHAT BECOMES OF THE CONNECTION.**

  A response arrives, a caller gives up, the directory changes.  For each there
  is a list of all that may become of the connection, with what has been found
  and with the connection and the ledger afterwards:

      Responded     — a response is ignored, dropped, delivered, refused, …
      LetGo         — a call is let go of that waits or is in flight
      Reconsidered  — the connection is kept, lost or started again

  What is said about these transitions elsewhere is proved from the lists; the
  transitions themselves are not opened again.

  Main statements:
    • `responded`, `letGo`, `reconsidered` — the lists are complete.
-/
import RemoteCall.Proofs.Pool.Holding

namespace RemoteCall

/-! ## §1. Reading a payload. -/

namespace Ledger

/-- Whether a payload can be read as the response to a call. -/
def reads (l : Ledger) (id : CallId) (payload : Bytes) : Bool :=
  (l.get? id).all fun entry => (Payload.decode entry.shape payload).toBool

theorem snd_deliver_of_reads {l : Ledger} {id : CallId} {payload : Bytes}
    (h : l.reads id payload = true) : (l.deliver id payload).2 = .ok () := by
  unfold reads at h
  unfold deliver
  cases hget : l.get? id with
  | none => rfl
  | some entry =>
    rw [hget] at h
    show entry.deliver payload = .ok ()
    unfold Entry.deliver Slot.deliver
    cases hdecode : Payload.decode entry.shape payload with
    | ok v => rfl
    | error e => rw [Option.all_some, hdecode] at h; exact absurd h (by simp [Except.toBool])

theorem snd_deliver_of_not_reads {l : Ledger} {id : CallId} {payload : Bytes}
    (h : l.reads id payload = false) : ∃ e, (l.deliver id payload).2 = .error e := by
  unfold reads at h
  unfold deliver
  cases hget : l.get? id with
  | none => rw [hget] at h; exact absurd h (by simp)
  | some entry =>
    rw [hget, Option.all_some] at h
    show ∃ e, entry.deliver payload = .error e
    unfold Entry.deliver Slot.deliver
    cases hdecode : Payload.decode entry.shape payload with
    | ok v => rw [hdecode] at h; exact absurd h (by simp [Except.toBool])
    | error e => exact ⟨e, rfl⟩

theorem reads_eq_false {l : Ledger} {id : CallId} {payload : Bytes} :
    l.reads id payload = false ↔ ∃ e, (l.deliver id payload).2 = .error e := by
  refine ⟨snd_deliver_of_not_reads, ?_⟩
  rintro ⟨e, he⟩
  cases hreads : l.reads id payload with
  | false => rfl
  | true => rw [snd_deliver_of_reads hreads] at he; cases he

/-- A response that can be read settles its call. -/
theorem isFinished_deliver {l : Ledger} {id : CallId} {payload : Bytes} (hk : l.knows id = true)
    (h : l.reads id payload = true) : (l.deliver id payload).1.isFinished id = true := by
  obtain ⟨entry, hget⟩ := Option.isSome_iff_exists.mp hk
  unfold reads at h
  rw [hget, Option.all_some] at h
  unfold deliver
  rw [hget]
  dsimp only
  rw [isFinished_eq, get?_update_self, hget]
  show (entry.slot.deliver (Payload.decode entry.shape) payload).1.isFinished = true
  unfold Slot.deliver
  cases hdecode : Payload.decode entry.shape payload with
  | error e => rw [hdecode] at h; exact absurd h (by simp [Except.toBool])
  | ok v => simp [Slot.isFinished]

end Ledger

namespace Connection

variable {config : PoolConfig} {frame : ResponseFrame} {c : Connection} {l : Ledger}

theorem answer_of_reads {payload : Bytes} {call : PendingCall}
    (h : l.reads call.id payload = true) :
    c.answer config payload call l
      = { connection := c, ledger := (l.deliver call.id payload).1 } := by
  have hok := Ledger.snd_deliver_of_reads h
  unfold answer
  split
  · next heq => rw [heq]
  · next heq => rw [heq] at hok; exact absurd hok (by simp)

/-- What becomes of a call whose response cannot be read. -/
theorem answer_of_not_reads (config : PoolConfig) (c : Connection) {payload : Bytes}
    {call : PendingCall} (h : l.reads call.id payload = false) :
    ∃ e, (l.deliver call.id payload).2 = .error e
      ∧ c.answer config payload call l
        = if call.idempotent && call.retries < config.callRetries then
            { connection :=
                { c with
                  waiting := c.waiting ++ [call.charged]
                  retries := c.retries + 1 }
              ledger := (l.deliver call.id payload).1 }
          else
            { connection := c
              ledger := (l.deliver call.id payload).1.fail call.id e } := by
  obtain ⟨e, he⟩ := Ledger.snd_deliver_of_not_reads h
  refine ⟨e, he, ?_⟩
  unfold answer
  split
  · next heq => rw [heq] at he; exact absurd he (by simp)
  · next heq =>
    rw [heq] at he ⊢
    cases he
    rfl

/-! ## §2. Responses. -/

/-- A response finds the call that is in flight under its number. -/
structure Finds (frame : ResponseFrame) (c : Connection) (live : Live) (call : PendingCall) :
    Prop where
  phase : c.phase = .connected live
  fresh : live.discarded.contains frame.sequence = false
  found : live.callAt? frame.sequence = some call

/-- **A response that carries a failure** and finds its call. -/
theorem Finds.respond_of_error {live : Live} {call : PendingCall} (h : c.Finds frame live call)
    {e : Failure} (hresult : frame.result = .error e) (config : PoolConfig) (l : Ledger) :
    c.respond config frame l
      = if e.isRefusal then
          { connection :=
              { c with
                phase := .connected { live.takeOut frame.sequence with draining := true }
                waiting := c.waiting ++ [call] }
            ledger := l }
        else if e.isVersionRejection then
          lose config e { c with phase := .connected (live.takeOut frame.sequence) }
            (l.fail call.id e)
        else
          { connection := { c with phase := .connected (live.takeOut frame.sequence) }
            ledger := l.fail call.id e } := by
  unfold respond
  rw [h.phase]
  dsimp only
  rw [h.fresh, h.found, hresult]
  rfl

/-- What may become of a response. -/
inductive Responded (config : PoolConfig) (frame : ResponseFrame) (c : Connection) (l : Ledger) :
    Moved → Prop where
  /-- There is no link, or no call is in flight under the number. -/
  | ignored :
    (∀ live, c.phase = .connected live →
      live.discarded.contains frame.sequence = false ∧ live.callAt? frame.sequence = none) →
      Responded config frame c l { connection := c, ledger := l }
  /-- It answers a duplicate. -/
  | dropped {live : Live} :
    c.phase = .connected live → live.discarded.contains frame.sequence = true →
      Responded config frame c l
        { connection :=
            { c with
              phase := .connected
                { live with discarded := live.discarded.filter (· != frame.sequence) } }
          ledger := l }
  /-- Its payload can be read. -/
  | delivered {live : Live} {call : PendingCall} {payload : Bytes} :
    c.Finds frame live call → frame.result = .ok payload → l.reads call.id payload = true →
      Responded config frame c l
        { connection := { c with phase := .connected (live.takeOut frame.sequence) }
          ledger := (l.deliver call.id payload).1 }
  /-- It cannot be read, and the call is sent again. -/
  | retried {live : Live} {call : PendingCall} {payload : Bytes} :
    c.Finds frame live call → frame.result = .ok payload → l.reads call.id payload = false →
      (call.idempotent && decide (call.retries < config.callRetries)) = true →
      Responded config frame c l
        { connection :=
            { c with
              phase := .connected (live.takeOut frame.sequence)
              waiting := c.waiting ++ [call.charged]
              retries := c.retries + 1 }
          ledger := (l.deliver call.id payload).1 }
  /-- It cannot be read, and the call fails. -/
  | unreadable {live : Live} {call : PendingCall} {payload : Bytes} {e : Failure} :
    c.Finds frame live call → frame.result = .ok payload →
      (l.deliver call.id payload).2 = .error e →
      (call.idempotent && decide (call.retries < config.callRetries)) = false →
      Responded config frame c l
        { connection := { c with phase := .connected (live.takeOut frame.sequence) }
          ledger := (l.deliver call.id payload).1.fail call.id e }
  /-- The agent is shutting down, and the call waits again. -/
  | refused {live : Live} {call : PendingCall} {e : Failure} :
    c.Finds frame live call → frame.result = .error e → e.isRefusal = true →
      Responded config frame c l
        { connection :=
            { c with
              phase := .connected { live.takeOut frame.sequence with draining := true }
              waiting := c.waiting ++ [call] }
          ledger := l }
  /-- The agent refuses the version, and the link is lost. -/
  | rejected {live : Live} {call : PendingCall} {e : Failure} :
    c.Finds frame live call → frame.result = .error e → e.isRefusal = false →
      e.isVersionRejection = true →
      Responded config frame c l
        (lose config e { c with phase := .connected (live.takeOut frame.sequence) }
          (l.fail call.id e))
  /-- The agent reports another failure. -/
  | failed {live : Live} {call : PendingCall} {e : Failure} :
    c.Finds frame live call → frame.result = .error e → e.isRefusal = false →
      e.isVersionRejection = false →
      Responded config frame c l
        { connection := { c with phase := .connected (live.takeOut frame.sequence) }
          ledger := l.fail call.id e }

/-- A payload is read, or the call is sent again, or it fails. -/
theorem responded_answer {live : Live} {call : PendingCall} {payload : Bytes}
    (h : c.Finds frame live call) (hresult : frame.result = .ok payload) :
    Responded config frame c l
      (answer config payload call { c with phase := .connected (live.takeOut frame.sequence) }
        l) := by
  cases hreads : l.reads call.id payload with
  | true =>
    rw [answer_of_reads hreads]
    exact .delivered h hresult hreads
  | false =>
    obtain ⟨e, he, hanswer⟩ := answer_of_not_reads config
      { c with phase := .connected (live.takeOut frame.sequence) } hreads
    rw [hanswer]
    cases hbudget : call.idempotent && decide (call.retries < config.callRetries) with
    | true =>
      rw [if_pos rfl]
      exact .retried h hresult hreads hbudget
    | false =>
      rw [if_neg Bool.false_ne_true]
      exact .unreadable h hresult he hbudget

/-- **Whatever arrives comes to one of these.** -/
theorem responded (config : PoolConfig) (frame : ResponseFrame) (c : Connection) (l : Ledger) :
    Responded config frame c l (c.respond config frame l) := by
  unfold respond
  split
  · next live hphase =>
    -- a discarded duplicate first, then the call in flight under the number
    dsimp only
    split
    · next hdisc => exact .dropped hphase hdisc
    · next hdisc =>
      have hfresh : live.discarded.contains frame.sequence = false := by simpa using hdisc
      split
      · next hnone =>
        refine .ignored fun other hother => ?_
        rw [hphase] at hother
        cases hother
        exact ⟨hfresh, hnone⟩
      · next call hcall =>
        have hfinds : c.Finds frame live call := ⟨hphase, hfresh, hcall⟩
        cases hresult : frame.result with
        | ok payload => exact responded_answer hfinds hresult
        | error e =>
          dsimp only
          split
          · next hrefusal => exact .refused hfinds hresult hrefusal
          · next hrefusal =>
            have hno : e.isRefusal = false := by simpa using hrefusal
            split
            · next hversion => exact .rejected hfinds hresult hno hversion
            · next hversion => exact .failed hfinds hresult hno (by simpa using hversion)
  · next hphase => exact .ignored fun live hlive => absurd hlive (hphase live)

/-! ## §3. Giving up. -/

/-- What may become of a call that a caller has given up, if it is held. -/
inductive LetGo (env : Surroundings) (id : CallId) (c : Connection) :
    Connection → List Effect → Prop where
  /-- It waits. -/
  | waiting : LetGo env id c { c with waiting := c.waiting.eraseP (·.id == id) } []
  /-- It is in flight, and the agent is told. -/
  | inFlight {live : Live} {n : SequenceNumber} {call : PendingCall} :
    c.phase = .connected live → (n, call) ∈ live.inFlight → call.id = id →
      LetGo env id c { c with phase := .connected (live.takeOut n) }
        [live.handOver env call (.cancel c.key.interface n)]

/-- **A call that is let go of** waits or is in flight. -/
theorem letGo {env : Surroundings} {id : CallId} {c' : Connection} {sent : List Effect}
    (h : c.cancel? env id = some (c', sent)) : LetGo env id c c' sent := by
  unfold cancel? at h
  split at h
  · cases h
    exact .waiting
  · split at h
    · next live hphase =>
      split at h
      · next n call hfind =>
        cases h
        have hid : call.id = id := by simpa using List.find?_some hfind
        exact .inFlight hphase (List.mem_of_find?_eq_some hfind) hid
      · cases h
    · cases h

/-! ## §4. The directory has changed. -/

/-- What may become of a connection when the directory has changed. -/
inductive Reconsidered (env : Surroundings) (config : PoolConfig) (now : Time) (c : Connection)
    (l : Ledger) : Moved → Prop where
  /-- Nothing that matters has changed. -/
  | kept :
    (∀ live, c.phase = .connected live →
      (env.lookup c.key.agent).any (·.same live.peer) = true) →
      Reconsidered env config now c l { connection := { c with looking := false }, ledger := l }
  /-- The peer of the link is withdrawn, and the link is lost. -/
  | withdrawn {live : Live} :
    c.phase = .connected live → (env.lookup c.key.agent).any (·.same live.peer) = false →
      Reconsidered env config now c l
        (lose config
          (.connectionFailed s!"{c.key.agent.text} no longer advertised at {live.peer.text}")
          { c with looking := false } l)
  /-- An attempt is dropped. -/
  | restarted {candidates : List PeerName} :
    c.phase = .connecting candidates →
      Reconsidered env config now c l
        { connection :=
            { c with looking := false, generation := c.generation + 1, phase := .disconnected now }
          ledger := l
          effects := c.leave }

theorem reconsider_of_withdrawn {env : Surroundings} {live : Live}
    (hphase : c.phase = .connected live)
    (hgone : (env.lookup c.key.agent).any (·.same live.peer) = false) (config : PoolConfig)
    (now : Time) (l : Ledger) :
    c.reconsider env config now l
      = lose config
          (.connectionFailed s!"{c.key.agent.text} no longer advertised at {live.peer.text}")
          { c with looking := false } l := by
  unfold reconsider
  dsimp only
  -- the phase is known, so one branch is left of three
  split
  · next other hother =>
    rw [hphase] at hother
    cases hother
    exact if_neg (by simp [hgone])
  · next hother =>
    rw [hphase] at hother
    cases hother
  · next hlink _ => exact absurd hphase (hlink live)

/-- **A connection is kept, lost or started again.** -/
theorem reconsidered (env : Surroundings) (config : PoolConfig) (now : Time) (c : Connection)
    (l : Ledger) : Reconsidered env config now c l (c.reconsider env config now l) := by
  unfold reconsider
  dsimp only
  split
  · next live hphase =>
    -- a link is kept as long as its peer is listed
    split
    · next hlisted =>
      refine .kept fun other hother => ?_
      rw [hphase] at hother
      cases hother
      exact hlisted
    · next hgone => exact .withdrawn hphase (by simpa using hgone)
  · next candidates hphase =>
    split
    · refine .kept fun live hlive => ?_
      rw [hphase] at hlive
      cases hlive
    · exact .restarted hphase
  · next hlink _ => exact .kept fun live hlive => absurd hlive (hlink live)

end Connection

end RemoteCall
