/-
  RemoteCall.Proofs.Pool.Acting
  ─────────────────────────────
  **THE CALL ON WHICH A RESPONSE ACTS.**

  A response names a connection, an attempt and a sequence number.  If the
  attempt is the current one and a call is in flight under the number, the
  response acts on that call, and on no other unless it rejects the interface
  version; otherwise it crosses off the number of a duplicate, or does nothing:

      ignored      no connection, another attempt, no link, no call in flight
      crossedOff   the number is that of a duplicate
      answered     the call is settled or waits again
      rejected     the link is lost, and all calls in flight on it fail

  Main statements:
    • `callFor?_eq_some`, `callFor?_of_mem` — the call on which a response acts,
    • `rejects_settle`, `rejects_lose`      — a response or a report that fails a link,
    • `reacts`                              — what may become of a response.
-/
import RemoteCall.Proofs.Pool.Succession

namespace RemoteCall

namespace Connection

/-- The response to a duplicate has come. -/
def crossOff (n : SequenceNumber) (c : Connection) : Connection :=
  match c.phase with
  | .connected live =>
    { c with phase := .connected { live with discarded := live.discarded.filter (· != n) } }
  | _ => c

/-- The call on which a response under a number acts. -/
def callFor? (n : SequenceNumber) (c : Connection) : Option PendingCall :=
  match c.phase with
  | .connected live => if live.discarded.contains n then none else live.callAt? n
  | _ => none

variable {c : Connection} {n : SequenceNumber} {call : PendingCall} {frame : ResponseFrame}

theorem callFor?_of_connected {live : Live} (h : c.phase = .connected live) (n : SequenceNumber) :
    c.callFor? n = if live.discarded.contains n then none else live.callAt? n := by
  unfold callFor?
  rw [h]

theorem callFor?_of_nobody (h : ∀ live, c.phase = .connected live →
    live.discarded.contains n = false ∧ live.callAt? n = none) : c.callFor? n = none := by
  unfold callFor?
  split
  · next live hphase =>
    obtain ⟨hfresh, hnone⟩ := h live hphase
    rw [hfresh]
    exact hnone
  · rfl

/-- A response acts on the call in flight under its number. -/
theorem callFor?_of_mem {live : Live} (hphase : c.phase = .connected live) (h : live.Numbered)
    (hmem : (n, call) ∈ live.inFlight) : c.callFor? n = some call := by
  have hfresh : live.discarded.contains n = false := by
    simpa using h.apart _ hmem
  rw [callFor?_of_connected hphase, hfresh]
  cases hcall : live.callAt? n with
  | none =>
    unfold Live.callAt? at hcall
    rw [Option.map_eq_none_iff, List.find?_eq_none] at hcall
    exact absurd (beq_self_eq_true n) (hcall _ hmem)
  | some other =>
    have heq := List.inj_on_of_nodup_map h.distinct (mem_of_callAt? hcall) hmem rfl
    exact congrArg some (Prod.mk.inj heq).2

theorem callFor?_of_discarded {live : Live} (hphase : c.phase = .connected live)
    (hmem : n ∈ live.discarded) : c.callFor? n = none := by
  rw [callFor?_of_connected hphase, if_pos (by simpa using hmem)]

/-- A call that is taken out is not in flight any more. -/
theorem callFor?_of_takeOut {live : Live} {draining : Bool}
    (hphase : c.phase = .connected { live.takeOut n with draining }) : c.callFor? n = none := by
  rw [callFor?_of_connected hphase]
  split
  · rfl
  · show ((live.inFlight.filter (·.1 != n)).find? (·.1 == n)).map (·.2) = none
    rw [List.find?_filter]
    simp

/-- A response acts on no other call. -/
theorem callFor?_eq_some (h : c.callFor? n = some call) :
    ∃ live, c.phase = .connected live ∧ (n, call) ∈ live.inFlight := by
  unfold callFor? at h
  split at h
  · next live hphase =>
    split at h
    · cases h
    · exact ⟨live, hphase, mem_of_callAt? h⟩
  · cases h

end Connection

namespace Pool

/-! ## §1. Finding the call. -/

/-- The call on which a response for an attempt acts. -/
def callFor? (p : Pool) (key : ConnectionKey) (generation : Nat) (n : SequenceNumber) :
    Option PendingCall :=
  (p.connection? key).bind fun c => if c.generation = generation then c.callFor? n else none

variable {p q : Pool} {key : ConnectionKey} {generation : Nat} {n : SequenceNumber}
  {call : PendingCall} {c : Connection} {live : Live} {frame : ResponseFrame}

theorem callFor?_eq_some (h : p.callFor? key generation n = some call) :
    ∃ c live, p.connection? key = some c ∧ c.generation = generation
      ∧ c.phase = .connected live ∧ (n, call) ∈ live.inFlight := by
  unfold callFor? at h
  obtain ⟨c, hc, hcall⟩ := Option.bind_eq_some_iff.mp h
  split at hcall
  · next hgeneration =>
    obtain ⟨live, hphase, hmem⟩ := Connection.callFor?_eq_some hcall
    exact ⟨c, live, hc, hgeneration, hphase, hmem⟩
  · cases hcall

theorem callFor?_of_connection? (hc : p.connection? key = some c)
    (hgeneration : c.generation = generation) (n : SequenceNumber) :
    p.callFor? key generation n = c.callFor? n := by
  unfold callFor?
  rw [hc, Option.bind_some, if_pos hgeneration]

/-! ## §2. What a response may change. -/

/-- The call is answered: it is settled, or it waits again; no other call is touched. -/
structure Answers (n : SequenceNumber) (call : PendingCall) (c : Connection) (live : Live)
    (p q : Pool) : Prop where
  ledger : ∀ {id}, id ≠ call.id → q.ledger.get? id = p.ledger.get? id
  others : ∀ key, key ≠ c.key → q.connection? key = p.connection? key
  own : ∃ draining back retries,
    q.connection? c.key = some
      { c with
        phase := .connected { live.takeOut n with draining }
        waiting := c.waiting ++ back
        retries }
      ∧ (back = [] ∧ draining = live.draining ∧ retries = c.retries
        ∨ back = [call] ∧ draining = true ∧ retries = c.retries
        ∨ back = [call.charged] ∧ draining = live.draining ∧ retries = c.retries + 1)

/-- The agent refuses the version: the link is lost, and those in flight on it fail; no call is
charged, and those that wait go on waiting. -/
structure Rejects (e : Failure) (c : Connection) (live : Live) (p q : Pool) : Prop where
  ledger : ∀ {id}, id ∉ live.calls.map (·.id) → q.ledger.get? id = p.ledger.get? id
  failed : ∀ call ∈ live.calls, p.ledger.isFinished call.id = false →
    q.ledger.failure? call.id = some e
  others : ∀ key, key ≠ c.key → q.connection? key = p.connection? key
  own : q.connection? c.key
    = some { c with phase := .errored e, waiting := q.ledger.unsettled c.waiting }

/-- What may become of a response. -/
inductive Reacts (key : ConnectionKey) (generation : Nat) (frame : ResponseFrame) (p : Pool) :
    Stepped → Prop where
  /-- It finds no call. -/
  | ignored :
    p.callFor? key generation frame.sequence = none → Reacts key generation frame p (p, [])
  /-- It answers a duplicate. -/
  | crossedOff :
    p.callFor? key generation frame.sequence = none →
      Reacts key generation frame p (p.modify key (·.crossOff frame.sequence), [])
  /-- It answers a call. -/
  | answered {c : Connection} {live : Live} {call : PendingCall} {q : Pool} :
    p.connection? key = some c → c.generation = generation → c.Finds frame live call →
      Answers frame.sequence call c live p q → Reacts key generation frame p (q, [])
  /-- It rejects the version. -/
  | rejected {c : Connection} {live : Live} {call : PendingCall} {q : Pool} {e : Failure} :
    p.connection? key = some c → c.generation = generation → c.Finds frame live call →
      frame.result = .error e → e.isVersionRejection = true → Rejects e c live p q →
      Reacts key generation frame p (q, [.close live.link])

/-! ## §3. One connection among others. -/

/-- Changing one connection changes neither which keys there are nor the others. -/
theorem connection?_modify (p : Pool) (key other : ConnectionKey) {f : Connection → Connection}
    (hf : ∀ c, c.key = key → (f c).key = key) :
    (p.modify key f).connection? other
      = (p.connection? other).map fun c => if c.key = key then f c else c := by
  show (p.connections.map _).find? _ = (p.connections.find? _).map _
  rw [List.find?_map]
  congr 2
  -- the connection that is changed has the same key afterwards
  funext c
  show ((if c.key = key then f c else c).key == other) = (c.key == other)
  split
  · next heq => rw [hf c heq, heq]
  · rfl

/-- The connections after one of them has moved. -/
theorem connection?_settle (hc : p.connection? key = some c) (moved : Moved)
    (hkey : moved.connection.key = c.key) :
    (p.settle moved).1.connection? c.key = some moved.connection
      ∧ ∀ other, other ≠ c.key → (p.settle moved).1.connection? other = p.connection? other := by
  have hfind : ∀ other, (p.settle moved).1.connection? other
      = (p.connection? other).map
          fun d => if d.key = moved.connection.key then moved.connection else d :=
    fun other => connection?_modify p moved.connection.key other fun _ _ => rfl
  constructor
  · have hown := (mem_of_connection? hc).2
    rw [hfind, hown, hc, Option.map_some, if_pos hkey.symm]
  · intro other hother
    rw [hfind]
    cases hd : p.connection? other with
    | none => rfl
    | some d =>
      rw [Option.map_some, if_neg]
      rw [(mem_of_connection? hd).2, hkey]
      exact hother

/-- A connection that answers a call, among the others. -/
theorem answers_settle (hc : p.connection? key = some c) {l : Ledger}
    {draining : Bool} {back : List PendingCall} {retries : Nat}
    (hledger : ∀ {id}, id ≠ call.id → l.get? id = p.ledger.get? id)
    (hback : back = [] ∧ draining = live.draining ∧ retries = c.retries
      ∨ back = [call] ∧ draining = true ∧ retries = c.retries
      ∨ back = [call.charged] ∧ draining = live.draining ∧ retries = c.retries + 1) :
    Answers n call c live p
      (p.settle
        { connection :=
            { c with
              phase := .connected { live.takeOut n with draining }
              waiting := c.waiting ++ back
              retries }
          ledger := l }).1 := by
  obtain ⟨hown, hothers⟩ := connection?_settle hc
    { connection :=
        { c with
          phase := .connected { live.takeOut n with draining }
          waiting := c.waiting ++ back
          retries }
      ledger := l } rfl
  exact ⟨hledger, hothers, draining, back, retries, hown, hback⟩

/-- Only one connection has the key. -/
theorem modify_const (hkeys : (p.connections.map (·.key)).Nodup) (hc : c ∈ p.connections)
    (f : Connection → Connection) : p.modify c.key (fun _ => f c) = p.modify c.key f := by
  unfold modify
  congr 1
  apply List.map_congr_left
  intro d hd
  split
  · next hkey =>
    have hown := connection?_of_mem hkeys hd
    rw [hkey, connection?_of_mem hkeys hc] at hown
    rw [Option.some.inj hown]
  · rfl

/-- A connection that crosses off a number, among the others. -/
theorem settle_crossOff (hkeys : (p.connections.map (·.key)).Nodup) (hc : c ∈ p.connections)
    (hphase : c.phase = .connected live) (n : SequenceNumber) :
    p.settle
        { connection :=
            { c with
              phase := .connected { live with discarded := live.discarded.filter (· != n) } }
          ledger := p.ledger }
      = (p.modify c.key (·.crossOff n), []) := by
  have hcross : c.crossOff n
      = { c with
          phase := .connected { live with discarded := live.discarded.filter (· != n) } } := by
    unfold Connection.crossOff
    rw [hphase]
  rw [← hcross, ← modify_const hkeys hc (·.crossOff n)]
  unfold settle
  rw [show (c.crossOff n).key = c.key by rw [hcross]]
  rfl

/-- When all calls in flight fail, the link is lost, and the others stay as they are. -/
theorem rejects_failAll {effects : List Effect} (h : Tidy effects p)
    (hfind : p.connection? c.key = some c) (hphase : c.phase = .connected live)
    {ids : List CallId} (hids : (live.calls.map (·.id)).Perm ids) (e : Failure)
    (sent : List Effect) :
    Rejects e c live p
      (p.settle
        { connection :=
            { c with phase := .errored e, waiting := (p.ledger.failAll ids e).unsettled c.waiting }
          ledger := p.ledger.failAll ids e
          effects := sent }).1 := by
  obtain ⟨hc, -⟩ := mem_of_connection? hfind
  obtain ⟨hown, hothers⟩ := connection?_settle hfind
    { connection :=
        { c with phase := .errored e, waiting := (p.ledger.failAll ids e).unsettled c.waiting }
      ledger := p.ledger.failAll ids e
      effects := sent } rfl
  refine ⟨?_, ?_, hothers, hown⟩
  · intro id hid
    exact Ledger.get?_failAll_of_notMem (fun hmem => hid (hids.symm.subset hmem)) e p.ledger
  · intro other hother hopen
    refine Ledger.failure?_failAll (hids.subset (List.mem_map_of_mem hother)) ?_ hopen e
    refine h.known (c.key, other) (mem_held.mpr ⟨c, hc, rfl, ?_⟩)
    rw [Connection.calls_of_connected hphase]
    exact List.mem_append_left _ hother

/-- When the version is rejected, all calls in flight fail, and the link is lost. -/
theorem rejects_settle {effects : List Effect} (h : Tidy effects p)
    (hfind : p.connection? c.key = some c) {e : Failure} (hfinds : c.Finds frame live call)
    (he : e.isVersionRejection = true) :
    ∃ q, Rejects e c live p q
      ∧ p.settle (Connection.lose p.config e
          { c with phase := .connected (live.takeOut frame.sequence) } (p.ledger.fail call.id e))
        = (q, [.close live.link]) := by
  obtain ⟨hc, -⟩ := mem_of_connection? hfind
  set left : Connection := { c with phase := .connected (live.takeOut frame.sequence) }
  have hfault : (e.isProtocol || e.isVersionRejection) = true := by rw [he, Bool.or_true]
  have hlost : left.lose p.config e (p.ledger.fail call.id e) = _ :=
    Connection.lose_at_fault rfl hfault _
  -- the call and the others are those that were in flight
  have hcalls : live.calls.Perm (call :: left.inFlightByAge) :=
    (Connection.calls_takeOut (h.numbered c hc live hfinds.phase).1
      (Connection.mem_of_callAt? hfinds.found)).trans
      ((Connection.inFlightByAge_perm left).symm.cons call)
  refine ⟨_, rejects_failAll h hfind hfinds.phase (hcalls.map (·.id)) e [.close live.link], ?_⟩
  rw [hlost]
  rfl

/-- When a fault of the peer is reported, all calls in flight fail, and the link is lost. -/
theorem rejects_lose {effects : List Effect} (h : Tidy effects p)
    (hfind : p.connection? c.key = some c) (hphase : c.phase = .connected live) {e : Failure}
    (he : (e.isProtocol || e.isVersionRejection) = true) :
    ∃ q, Rejects e c live p q
      ∧ p.settle (c.lose p.config e p.ledger) = (q, [.close live.link]) := by
  have hflight : live.calls.Perm c.inFlightByAge := by
    rw [← Connection.inFlight_of_connected hphase]
    exact (Connection.inFlightByAge_perm c).symm
  have hleave : c.leave = [.close live.link] := by
    unfold Connection.leave
    rw [hphase]
  refine ⟨_, rejects_failAll h hfind hphase (hflight.map (·.id)) e [.close live.link], ?_⟩
  rw [Connection.lose_at_fault hphase he, hleave]
  rfl

/-- A response is handed to its connection, if it belongs to the current link of it. -/
theorem notice_response (hfind : p.connection? key = some c) :
    p.notice (.response key generation frame)
      = if c.generation = generation then p.settle (c.respond p.config frame p.ledger)
        else (p, []) := by
  unfold Pool.notice
  dsimp only [Notice.key]
  rw [hfind]
  rfl

/-- **What becomes of a response** depends on the call that is in flight under its number. -/
theorem reacts {effects : List Effect} (h : Tidy effects p) (key : ConnectionKey)
    (generation : Nat) (frame : ResponseFrame) :
    Reacts key generation frame p (p.notice (.response key generation frame)) := by
  cases hfind : p.connection? key with
  | none =>
    unfold Pool.notice
    dsimp only [Notice.key]
    rw [hfind]
    exact .ignored (by rw [callFor?, hfind, Option.bind_none])
  | some c =>
    rw [notice_response hfind]
    obtain ⟨hc, rfl⟩ := mem_of_connection? hfind
    split
    · next hgeneration =>
      have hcallFor := callFor?_of_connection? hfind hgeneration frame.sequence
      have hresponded := Connection.responded p.config frame c p.ledger
      generalize c.respond p.config frame p.ledger = moved at *
      -- a call that is found is taken out, and no other is touched
      have hanswered : ∀ (back : List PendingCall) {live : Live} {call : PendingCall}
          {draining : Bool} {retries : Nat} {l : Ledger}, c.Finds frame live call →
          (∀ {id}, id ≠ call.id → l.get? id = p.ledger.get? id) →
          (back = [] ∧ draining = live.draining ∧ retries = c.retries
            ∨ back = [call] ∧ draining = true ∧ retries = c.retries
            ∨ back = [call.charged] ∧ draining = live.draining ∧ retries = c.retries + 1) →
          Reacts c.key generation frame p
            (p.settle
              { connection :=
                  { c with
                    phase := .connected { live.takeOut frame.sequence with draining }
                    waiting := c.waiting ++ back
                    retries }
                ledger := l }) := by
        intro back live call draining retries l hfinds hledger hback
        exact .answered hfind hgeneration hfinds (answers_settle hfind hledger hback)
      cases hresponded with
      | ignored hnobody =>
        rw [settle_self h.keys hc]
        exact .ignored (hcallFor.trans (Connection.callFor?_of_nobody hnobody))
      | dropped hphase hdiscarded =>
        rw [settle_crossOff h.keys hc hphase]
        refine .crossedOff (hcallFor.trans ?_)
        rw [Connection.callFor?_of_connected hphase, if_pos hdiscarded]
      | @delivered live call payload hfinds _ _ =>
        have hanswer := hanswered [] hfinds
          (fun hne => Ledger.get?_deliver_of_ne p.ledger hne payload) (.inl ⟨rfl, rfl, rfl⟩)
        rw [List.append_nil] at hanswer
        exact hanswer
      | @retried live call payload hfinds _ _ _ =>
        exact hanswered _ hfinds (fun hne => Ledger.get?_deliver_of_ne p.ledger hne payload)
          (.inr (.inr ⟨rfl, rfl, rfl⟩))
      | @unreadable live call payload e hfinds _ _ _ =>
        have hanswer := hanswered [] hfinds
          (fun hne => (Ledger.get?_fail_of_ne _ hne e).trans
            (Ledger.get?_deliver_of_ne p.ledger hne payload)) (.inl ⟨rfl, rfl, rfl⟩)
        rw [List.append_nil] at hanswer
        exact hanswer
      | refused hfinds _ _ => exact hanswered _ hfinds (fun _ => rfl) (.inr (.inl ⟨rfl, rfl, rfl⟩))
      | rejected hfinds hresult _ he =>
        obtain ⟨q, hrejects, heq⟩ := rejects_settle h hfind hfinds he
        rw [heq]
        exact .rejected hfind hgeneration hfinds hresult he hrejects
      | @failed live call e hfinds _ _ _ =>
        have hanswer := hanswered [] hfinds
          (fun hne => Ledger.get?_fail_of_ne p.ledger hne e) (.inl ⟨rfl, rfl, rfl⟩)
        rw [List.append_nil] at hanswer
        exact hanswer
    · next hgeneration =>
      exact .ignored (by rw [callFor?, hfind, Option.bind_some, if_neg hgeneration])

/-- A response for which the link is closed fails all calls in flight. -/
theorem Reacts.isFinished_of_closed {stepped : Stepped} (h : Reacts key generation frame p stepped)
    (hclosed : stepped.2 ≠ []) (hcall : p.callFor? key generation n = some call)
    (hopen : p.ledger.isFinished call.id = false) :
    stepped.1.ledger.isFinished call.id = true := by
  cases h with
  | ignored _ | crossedOff _ | answered _ _ _ _ => exact absurd rfl hclosed
  | rejected hc _ hfinds _ _ hrejects =>
    obtain ⟨c', live', hc', -, hphase', hmem⟩ := callFor?_eq_some hcall
    rw [hc] at hc'
    cases hc'
    rw [hfinds.phase] at hphase'
    cases hphase'
    exact Ledger.isFinished_of_failure? (hrejects.failed call (List.mem_map_of_mem hmem) hopen)

end Pool

end RemoteCall
