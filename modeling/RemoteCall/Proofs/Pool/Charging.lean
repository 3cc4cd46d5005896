/-
  RemoteCall.Proofs.Pool.Charging
  ───────────────────────────────
  **WHAT A CALL IS CHARGED FOR.**

  A call is charged one retry when an attempt fails while it waits, when a link
  is lost while it is in flight (unless the peer broke the protocol or refuses
  the version), and when its response cannot be read, if it may be sent again
  and its budget allows it (`Pool.Charges`).  Nothing else is charged: not a
  refusal, not a change of the directory during an attempt, not the loss of a
  link on which the call was not sent.

  The books of a pool name the calls that pay (`Moment.paying`); they are those
  that are charged.

  Main statements:
    • `charges_of_paysForNotice`, `charges_of_paysForDirectory` — what pays is charged,
    • `paying_of_charges`                                       — what is charged pays,
    • `mem_paying`                                              — both.
-/
import RemoteCall.Proofs.Payload.Errors
import RemoteCall.Proofs.Pool.Conservation

namespace RemoteCall

namespace Connection

variable {config : PoolConfig}

theorem mem_paysForLoss_of_connected {c : Connection} {live : Live}
    (h : c.phase = .connected live) {e : Failure} {call : PendingCall} :
    call ∈ c.paysForLoss e
      ↔ (e.isProtocol = false ∧ e.isVersionRejection = false) ∧ call ∈ live.calls := by
  rw [paysForLoss_of_connected h, inFlight_of_connected h]
  cases e.isProtocol <;> cases e.isVersionRejection <;> simp

theorem mem_paysForResponse {c : Connection} {frame : ResponseFrame} {l : Ledger}
    {call : PendingCall} :
    call ∈ c.paysForResponse config frame l
      ↔ ∃ live payload e, c.phase = .connected live
        ∧ live.discarded.contains frame.sequence = false
        ∧ live.callAt? frame.sequence = some call ∧ frame.result = .ok payload
        ∧ (l.deliver call.id payload).2 = .error e ∧ call.idempotent = true
        ∧ call.retries < config.callRetries := by
  constructor
  · intro h
    unfold paysForResponse at h
    split at h
    · next live hlive =>
      split at h
      · exact absurd h (List.not_mem_nil)
      · next hdisc =>
        split at h
        · next other payload hcall hresult =>
          split at h
          · next hpays =>
            cases List.mem_singleton.mp h
            simp only [Bool.and_eq_true, Bool.not_eq_true', decide_eq_true_eq] at hpays
            obtain ⟨e, he⟩ := Ledger.snd_deliver_of_not_reads hpays.1.1
            exact ⟨live, payload, e, hlive, by simpa using hdisc, hcall, hresult, he, hpays.1.2,
              hpays.2⟩
          · exact absurd h (List.not_mem_nil)
        · exact absurd h (List.not_mem_nil)
    · exact absurd h (List.not_mem_nil)
  · rintro ⟨live, payload, e, hlive, hdisc, hcall, hresult, he, hidem, hbudget⟩
    have hpays := paysForResponse_of_not_reads config ⟨hlive, hdisc, hcall⟩ hresult
      (Ledger.reads_eq_false.mpr ⟨e, he⟩)
    rw [hpays, if_pos (by simp [hidem, hbudget])]
    exact List.mem_singleton_self call

end Connection

namespace Pool

/-! ## §1. Charges. -/

/-- An event charges a call for a failure. -/
inductive Charges (p : Pool) : Event → ConnectionKey × PendingCall → Failure → Prop where
  /-- The attempt has failed, and the call waits for it. -/
  | attempt {env : Surroundings} {now : Time} {key : ConnectionKey} {c : Connection} {e : Failure}
      {candidates : List PeerName} {call : PendingCall} :
    p.connection? key = some c → c.phase = .connecting candidates → call ∈ c.waiting →
      Charges p (.look env now (.notice (.connectFailed key c.generation e))) (key, call) e
  /-- The link has failed, and the call is in flight on it. -/
  | link {env : Surroundings} {now : Time} {key : ConnectionKey} {c : Connection} {e : Failure}
      {live : Live} {call : PendingCall} :
    p.connection? key = some c → c.phase = .connected live → e.isProtocol = false →
      e.isVersionRejection = false → call ∈ live.calls →
      Charges p (.look env now (.notice (.failed key c.generation e))) (key, call) e
  /-- The peer of the link is withdrawn, and the call is in flight on it. -/
  | withdrawal {env : Surroundings} {now : Time} {directory : Directory} {c : Connection}
      {live : Live} {call : PendingCall} :
    c ∈ p.connections → c.phase = .connected live →
      (env.lookup c.key.agent).any (·.same live.peer) = false → call ∈ live.calls →
      Charges p (.look env now (.directory directory)) (c.key, call)
        (.connectionFailed s!"{c.key.agent.text} no longer advertised at {live.peer.text}")
  /-- The response to the call cannot be read, and the call may be sent again. -/
  | unreadable {env : Surroundings} {now : Time} {key : ConnectionKey} {c : Connection}
      {e : Failure} {live : Live} {frame : ResponseFrame} {call : PendingCall} {payload : Bytes} :
    p.connection? key = some c → c.phase = .connected live →
      live.discarded.contains frame.sequence = false →
      live.callAt? frame.sequence = some call → frame.result = .ok payload →
      (p.ledger.deliver call.id payload).2 = .error e → call.idempotent = true →
      call.retries < p.config.callRetries →
      Charges p (.look env now (.notice (.response key c.generation frame))) (key, call) e

variable {config : PoolConfig} {history : List Moment} {p q : Pool}

/-- What is charged does not depend on the notices that have arrived. -/
theorem Charges.notices {notices : List Notice} {event : Event}
    {x : ConnectionKey × PendingCall} {e : Failure} (h : Charges { p with notices } event x e) :
    Charges p event x e := by
  cases h with
  | attempt hc hphase hcall => exact .attempt hc hphase hcall
  | link hc hphase hprotocol hversion hcall => exact .link hc hphase hprotocol hversion hcall
  | withdrawal hc hphase hpeer hcall => exact .withdrawal hc hphase hpeer hcall
  | unreadable hc hphase hdisc hat hresult he hidem hbudget =>
    exact .unreadable hc hphase hdisc hat hresult he hidem hbudget

/-- The calls that pay for a notice that belongs to the current attempt. -/
theorem paying_notice {env : Surroundings} {now : Time} (first : Notice) {c : Connection}
    (hc : p.connection? first.key = some c) (hgeneration : c.generation = first.generation) :
    Moment.paying ⟨p, .look env now (.notice first)⟩
      = (c.paysForNotice p.config p.ledger first).map (first.key, ·) := by
  unfold Moment.paying pays
  dsimp only
  rw [hc]
  dsimp only
  rw [if_pos hgeneration, (mem_of_connection? hc).2]

/-- A call that pays for a notice is charged. -/
theorem charges_of_paysForNotice {env : Surroundings} {now : Time} {first : Notice}
    {c : Connection} (hc : p.connection? first.key = some c)
    (hgeneration : c.generation = first.generation) {call : PendingCall}
    (hcall : call ∈ c.paysForNotice p.config p.ledger first) :
    ∃ e, Charges p (.look env now (.notice first)) (first.key, call) e := by
  have hattended := attended p c first
  generalize p.attend c first = stepped at *
  generalize c.paysForNotice p.config p.ledger first = paying at *
  cases hattended with
  | attached _ => exact absurd hcall (List.not_mem_nil)
  | @attemptFailed candidates key generation e hphase =>
    -- nothing is in flight during an attempt, so a call that is held waits
    cases hgeneration
    rw [Connection.paysForLoss_of_live?_eq_none (Connection.live?_of_connecting hphase)] at hcall
    exact ⟨e, .attempt hc hphase hcall⟩
  | responded =>
    cases hgeneration
    obtain ⟨live, payload, e, hlive, hdisc, hat, hresult, he, hidem, hbudget⟩ :=
      Connection.mem_paysForResponse.mp hcall
    exact ⟨e, .unreadable hc hlive hdisc hat hresult he hidem hbudget⟩
  | @linkFailed live key generation e hphase =>
    cases hgeneration
    obtain ⟨⟨hprotocol, hversion⟩, hflight⟩ :=
      (Connection.mem_paysForLoss_of_connected hphase).mp hcall
    exact ⟨e, .link hc hphase hprotocol hversion hflight⟩
  | dropped => exact absurd hcall (List.not_mem_nil)

/-- A call that pays for a change of the directory is charged. -/
theorem charges_of_paysForDirectory {env : Surroundings} {now : Time} {directory : Directory}
    {c : Connection} (hc : c ∈ p.connections) {call : PendingCall}
    (hcall : call ∈ c.paysForDirectory env) :
    ∃ e, Charges p (.look env now (.directory directory)) (c.key, call) e := by
  unfold Connection.paysForDirectory at hcall
  split at hcall
  · next live hlive =>
    split at hcall
    · exact absurd hcall (List.not_mem_nil)
    · next hpeer =>
      rw [Connection.inFlight_of_connected hlive] at hcall
      exact ⟨_, .withdrawal hc hlive (by simpa using hpeer) hcall⟩
  · exact absurd hcall (List.not_mem_nil)

/-- A call that is charged pays. -/
theorem paying_of_charges {event : Event} {x : ConnectionKey × PendingCall} {e : Failure}
    (h : Charges p event x e) : x ∈ Moment.paying ⟨p, event⟩ := by
  cases h with
  | @attempt env now key c e candidates call hc hphase hcall =>
    have hnone := Connection.live?_of_connecting hphase
    rw [paying_notice (.connectFailed key c.generation e) hc rfl]
    refine List.mem_map_of_mem ?_
    unfold Connection.paysForNotice
    rw [hphase]
    dsimp only
    rw [Connection.paysForLoss_of_live?_eq_none hnone]
    exact hcall
  | @link env now key c e live call hc hphase hprotocol hversion hcall =>
    rw [paying_notice (.failed key c.generation e) hc rfl]
    refine List.mem_map_of_mem ?_
    unfold Connection.paysForNotice
    rw [hphase]
    exact (Connection.mem_paysForLoss_of_connected hphase).mpr ⟨⟨hprotocol, hversion⟩, hcall⟩
  | @withdrawal env now directory c live call hc hphase hpeer hcall =>
    refine List.mem_flatMap.mpr ⟨c, hc, List.mem_map_of_mem ?_⟩
    unfold Connection.paysForDirectory Connection.inFlight
    rw [hphase]
    dsimp only
    rw [if_neg (by simp [hpeer])]
    exact hcall
  | @unreadable env now key c e live frame call payload hc hphase hdisc hat hresult he hidem
      hbudget =>
    rw [paying_notice (.response key c.generation frame) hc rfl]
    exact List.mem_map_of_mem (Connection.mem_paysForResponse.mpr
      ⟨live, payload, e, hphase, hdisc, hat, hresult, he, hidem, hbudget⟩)

/-- **The calls that pay for an event** are those that are charged. -/
theorem mem_paying {event : Event} {x : ConnectionKey × PendingCall} :
    x ∈ Moment.paying ⟨p, event⟩ ↔ ∃ e, Charges p event x e := by
  constructor
  · intro h
    -- only notices and changes of the directory cost anything
    cases event with
    | look env now subject =>
      cases subject with
      | notice first =>
        unfold Moment.paying pays at h
        dsimp only at h
        split at h
        · next c hc =>
          split at h
          · next hgeneration =>
            obtain ⟨call, hcall, rfl⟩ := List.mem_map.mp h
            rw [(mem_of_connection? hc).2]
            exact charges_of_paysForNotice hc hgeneration hcall
          · exact absurd h (List.not_mem_nil)
        · exact absurd h (List.not_mem_nil)
      | directory directory =>
        obtain ⟨c, hc, hx⟩ := List.mem_flatMap.mp h
        obtain ⟨call, hcall, rfl⟩ := List.mem_map.mp hx
        exact charges_of_paysForDirectory hc hcall
      | _ => exact absurd h (List.not_mem_nil)
    | _ => exact absurd h (List.not_mem_nil)
  · rintro ⟨e, h⟩
    exact paying_of_charges h

end Pool

end RemoteCall
