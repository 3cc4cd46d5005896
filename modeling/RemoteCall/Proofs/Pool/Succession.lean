/-
  RemoteCall.Proofs.Pool.Succession
  ─────────────────────────────────
  **WHAT A CONNECTION WAS BEFORE.**

  Whatever happens to a pool, the connection that is there for a key afterwards
  is new, or it is the connection that was there before, one step later
  (`Connection.Becomes`):

      a link            is the link of before, or an attempt has led to it just now
      a call in flight  was in flight before, or its frame is handed over just now
      an attempt        is the attempt of before, or its number is a new one

  What holds of a connection at the beginning of an attempt or of a link can so
  be followed through a run, for as long as the connection is there.

  Main statements:
    • `Live.follows_flush`       — sending,
    • `moves_advance`, `moves_lose`, `moves_respond`, `moves_cancel`,
      `moves_reconsider`         — one connection,
    • `Tidy.connection?_after`   — the connection for a key, whatever happens,
    • `Run.follow`               — the connection for a key, through a run.
-/
import RemoteCall.Proofs.Pool.Sending

namespace RemoteCall

/-! ## §1. Links. -/

theorem handedOut_le_of_sublist {xs ys : List Effect} (h : xs.Sublist ys) (link : LinkId) :
    handedOut link xs ≤ handedOut link ys :=
  h.countP_le

namespace Live

/-- The numbers of a link are in order, and a call that is newly in flight has a new one. -/
structure Later (effects : List Effect) (live live' : Live) : Prop where
  numbered : live'.Numbered
  le : live.next.toNat ≤ live'.next.toNat
  bound : live'.next.toNat ≤ live.next.toNat + handedOut live.link effects
  fresh : ∀ x ∈ live'.inFlight, x ∈ live.inFlight ∨ live.next.toNat ≤ x.1.toNat

/-- The same link when these effects have happened, and perhaps others. -/
structure Follows (interface : UInt32) (effects : List Effect) (live live' : Live) : Prop where
  link : live'.link = live.link
  sent : ∀ x ∈ live'.inFlight, x ∈ live.inFlight
    ∨ Effect.send live.link x.2 (.call interface x.1 x.2.request) true ∈ effects
  later : live.Numbered → live.next.toNat + handedOut live.link effects < 2 ^ 64 →
    Later effects live live'

variable {interface : UInt32} {effects more : List Effect} {live live' live'' : Live}

/-- Calls may leave a link, and responses to duplicates may come. -/
theorem follows_of_sublist (hlink : live'.link = live.link) (hnext : live'.next = live.next)
    (hflight : live'.inFlight.Sublist live.inFlight)
    (hdiscarded : live'.discarded.Sublist live.discarded) :
    Follows interface effects live live' := by
  refine ⟨hlink, fun x hx => .inl (hflight.subset hx), fun hnumbered _ => ⟨?_, ?_, ?_, ?_⟩⟩
  · exact (hnumbered.of_discarded hdiscarded).of_sublist hflight hnext rfl
  · exact Nat.le_of_eq (congrArg _ hnext.symm)
  · rw [hnext]
    exact Nat.le_add_right _ _
  · exact fun x hx => .inl (hflight.subset hx)

theorem Follows.refl (interface : UInt32) (effects : List Effect) (live : Live) :
    Follows interface effects live live :=
  follows_of_sublist rfl rfl (List.Sublist.refl _) (List.Sublist.refl _)

theorem Follows.mono (h : Follows interface effects live live') (hsub : effects.Sublist more) :
    Follows interface more live live' := by
  refine ⟨h.link, fun x hx => (h.sent x hx).imp_right fun hmem => hsub.subset hmem, ?_⟩
  intro hnumbered hroom
  have hle := handedOut_le_of_sublist hsub live.link
  obtain ⟨hnumbered', hnext, hbound, hfresh⟩ := h.later hnumbered (by omega)
  exact ⟨hnumbered', hnext, by omega, hfresh⟩

/-- **One thing after the other.** -/
theorem Follows.trans (h : Follows interface effects live live')
    (h' : Follows interface more live' live'') :
    Follows interface (effects ++ more) live live'' := by
  refine ⟨h'.link.trans h.link, ?_, ?_⟩
  · intro x hx
    rcases h'.sent x hx with hold | hnew
    · exact (h.sent x hold).imp_right (List.mem_append_left _)
    · rw [h.link] at hnew
      exact .inr (List.mem_append_right _ hnew)
  · intro hnumbered hroom
    rw [handedOut_append] at hroom
    obtain ⟨hnumbered', hle, hbound, hfresh⟩ := h.later hnumbered (by omega)
    obtain ⟨hnumbered'', hle', hbound', hfresh'⟩ := h'.later hnumbered' (by rw [h.link]; omega)
    rw [h.link] at hbound'
    refine ⟨hnumbered'', by omega, by rw [handedOut_append]; omega, ?_⟩
    intro x hx
    rcases hfresh' x hx with hold | hnew
    · exact hfresh x hold
    · exact .inr (by omega)

variable {env : Surroundings} {config : PoolConfig}

/-- A call is sent whose frame the writer takes. -/
theorem follows_transmit {call : PendingCall}
    (htakes : env.takes live.link (.call interface live.next call.request) = true) :
    Follows interface (live.transmit env config interface call).2 live
      (live.transmit env config interface call).1 := by
  refine ⟨link_transmit live call, ?_, ?_⟩
  · -- what is new in flight is the call, and its frame is the first
    have hput : ∀ (l : Live) (n : SequenceNumber), ∀ x ∈ (l.put n call).inFlight,
        x ∈ l.inFlight ∨ x = (n, call) := by
      intro l n x hx
      rcases List.mem_append.mp hx with hold | hnew
      · exact .inl (List.mem_filter.mp hold).1
      · exact .inr (List.mem_singleton.mp hnew)
    have hframe : live.handOver env call (.call interface live.next call.request)
        = .send live.link call (.call interface live.next call.request) true := by
      unfold handOver
      rw [htakes]
    intro x hx
    cases hdup : env.duplicates config live.link live.next with
    | true =>
      rw [transmit_twice hdup] at hx ⊢
      rcases hput _ _ x hx with hold | rfl
      · rw [inFlight_duplicate] at hold
        exact .inl hold
      · rw [hframe]
        exact .inr List.mem_cons_self
    | false =>
      rw [transmit_once hdup] at hx ⊢
      rcases hput _ _ x hx with hold | rfl
      · exact .inl hold
      · rw [hframe]
        exact .inr List.mem_cons_self
  · intro hnumbered hroom
    obtain ⟨hnumbered', hflight, hnext⟩ := hnumbered.transmit hroom
    refine ⟨hnumbered', by omega, by omega, ?_⟩
    intro x hx
    rw [hflight] at hx
    rcases List.mem_append.mp hx with hold | hnew
    · exact .inl hold
    · rw [List.mem_singleton.mp hnew]
      exact .inr (Nat.le_refl _)

/-- A frame that the writer refuses uses up its number. -/
theorem follows_refused (env : Surroundings) (live : Live) (call : PendingCall) :
    Follows interface [live.handOver env call (.call interface live.next call.request)] live
      live.advance := by
  refine ⟨rfl, fun x hx => .inl hx, fun hnumbered hroom => ?_⟩
  have hone : handedOut live.link
      [live.handOver env call (.call interface live.next call.request)] = 1 := by
    simp [handedOut]
  rw [hone] at hroom
  have hnext : live.advance.next.toNat = live.next.toNat + 1 := SequenceNumber.toNat_next hroom
  exact ⟨hnumbered.advance hroom, by omega, by omega, fun x hx => .inl hx⟩

/-- **Sending the waiting calls.** -/
theorem follows_flush (env : Surroundings) (config : PoolConfig) (interface : UInt32)
    (ledger : Ledger) (waiting : List PendingCall) (live : Live) :
    Follows interface (live.flush env config interface ledger waiting).effects live
      (live.flush env config interface ledger waiting).live := by
  induction waiting generalizing live with
  | nil => exact Follows.refl interface [] live
  | cons call rest ih =>
    cases hfin : ledger.isFinished call.id with
    | true =>
      rw [flush_finished hfin]
      exact ih live
    | false =>
      cases htakes : env.takes live.link (.call interface live.next call.request) with
      | true =>
        rw [flush_taken hfin htakes]
        exact (follows_transmit htakes).trans (ih _)
      | false =>
        rw [flush_refused hfin htakes]
        exact follows_refused env live call

end Live

/-! ## §2. One connection. -/

/-- The connection to which an attempt belongs that is started or has led to a link. -/
def Effect.attempt? : Effect → Option ConnectionKey
  | .seek key _ _ | .attach key _ _ => some key
  | _ => none

namespace Connection

/-- `c'` is what `c` is one step later, when these effects have happened. -/
structure Becomes (effects : List Effect) (c c' : Connection) : Prop where
  key : c'.key = c.key
  generation : c'.generation = c.generation ∨ c'.generation = c.generation + 1
  connecting : ∀ candidates, c'.phase = .connecting candidates →
    c'.generation = c.generation → c.phase = .connecting candidates
  connected : ∀ live', c'.phase = .connected live' → c'.generation = c.generation
    ∧ ((∃ live, c.phase = .connected live ∧ live.Follows c.key.interface effects live')
      ∨ ∃ peer link, live' = { peer, link } ∧ .attach c.key c.generation link ∈ effects)
  sought : ∀ generation candidates, .seek c.key generation candidates ∈ effects →
    generation = c.generation + 1 ∧ c'.generation = generation
      ∧ c'.phase = .connecting candidates
  attached : ∀ generation link, .attach c.key generation link ∈ effects →
    generation = c.generation ∧ c'.generation = generation
      ∧ (∃ candidates, c.phase = .connecting candidates)
      ∧ ∃ peer, c'.phase = .connected { peer, link }

/-- The same when nothing else has happened. -/
structure Moves (effects : List Effect) (c c' : Connection) : Prop
    extends Becomes effects c c' where
  own : ∀ effect ∈ effects, ∀ key, effect.attempt? = some key → key = c.key

variable {c c' : Connection} {effects more : List Effect}

/-- Other effects may happen at the same time, if they are not about this connection. -/
theorem Becomes.mono (h : c.Becomes effects c') (hsub : effects.Sublist more)
    (hown : ∀ effect ∈ more, effect.attempt? = some c.key → effect ∈ effects) :
    c.Becomes more c' := by
  refine ⟨h.key, h.generation, h.connecting, ?_, ?_, ?_⟩
  · intro live' hphase
    obtain ⟨hgeneration, hlink⟩ := h.connected live' hphase
    refine ⟨hgeneration, hlink.imp ?_ ?_⟩
    · rintro ⟨live, hlive, hfollows⟩
      exact ⟨live, hlive, hfollows.mono hsub⟩
    · rintro ⟨peer, link, heq, hmem⟩
      exact ⟨peer, link, heq, hsub.subset hmem⟩
  · exact fun generation candidates hmem => h.sought generation candidates (hown _ hmem rfl)
  · exact fun generation link hmem => h.attached generation link (hown _ hmem rfl)

/-- Whatever happens to others, a connection that stays is what it was. -/
theorem becomes_self (h : ∀ effect ∈ effects, effect.attempt? ≠ some c.key) :
    c.Becomes effects c := by
  refine ⟨rfl, .inl rfl, fun _ hconnecting _ => hconnecting, ?_, ?_, ?_⟩
  · exact fun live hlive => ⟨rfl, .inl ⟨live, hlive, Live.Follows.refl _ _ live⟩⟩
  · exact fun _ _ hmem => absurd rfl (h _ hmem)
  · exact fun _ _ hmem => absurd rfl (h _ hmem)

/-- No attempt is started, and none has led to a link. -/
theorem moves_of_quiet (hkey : c'.key = c.key)
    (hgeneration : c'.generation = c.generation ∨ c'.generation = c.generation + 1)
    (hquiet : ∀ effect ∈ effects, effect.attempt? = none)
    (hconnecting : ∀ candidates, c'.phase = .connecting candidates →
      c'.generation = c.generation → c.phase = .connecting candidates)
    (hconnected : ∀ live', c'.phase = .connected live' → c'.generation = c.generation
      ∧ ∃ live, c.phase = .connected live ∧ live.Follows c.key.interface effects live') :
    c.Moves effects c' := by
  refine ⟨⟨hkey, hgeneration, hconnecting, ?_, ?_, ?_⟩, ?_⟩
  · intro live' hphase
    obtain ⟨heq, hlink⟩ := hconnected live' hphase
    exact ⟨heq, .inl hlink⟩
  · exact fun _ _ hmem => nomatch hquiet _ hmem
  · exact fun _ _ hmem => nomatch hquiet _ hmem
  · intro effect hmem key hattempt
    rw [hquiet effect hmem] at hattempt
    cases hattempt

/-- The phase stays. -/
theorem moves_of_phase_eq (hkey : c'.key = c.key) (hgeneration : c'.generation = c.generation)
    (hphase : c'.phase = c.phase) (hquiet : ∀ effect ∈ effects, effect.attempt? = none) :
    c.Moves effects c' := by
  refine moves_of_quiet hkey (.inl hgeneration) hquiet ?_ ?_
  · exact fun candidates hconnecting _ => hphase ▸ hconnecting
  · intro live hlive
    exact ⟨hgeneration, live, hphase ▸ hlive, Live.Follows.refl _ _ live⟩

/-- The link stays. -/
theorem moves_of_follows {live live' : Live} (hphase : c.phase = .connected live)
    (hphase' : c'.phase = .connected live') (hkey : c'.key = c.key)
    (hgeneration : c'.generation = c.generation)
    (hquiet : ∀ effect ∈ effects, effect.attempt? = none)
    (h : live.Follows c.key.interface effects live') : c.Moves effects c' := by
  refine moves_of_quiet hkey (.inl hgeneration) hquiet ?_ ?_
  · intro candidates hconnecting
    rw [hphase'] at hconnecting
    cases hconnecting
  · intro other hother
    rw [hphase'] at hother
    cases hother
    exact ⟨hgeneration, live, hphase, h⟩

/-- Whatever there was is over. -/
theorem moves_of_over (hkey : c'.key = c.key)
    (hgeneration : c'.generation = c.generation ∨ c'.generation = c.generation + 1)
    (hquiet : ∀ effect ∈ effects, effect.attempt? = none)
    (hphase : (∃ t, c'.phase = .disconnected t) ∨ ∃ e, c'.phase = .errored e) :
    c.Moves effects c' := by
  refine moves_of_quiet hkey hgeneration hquiet ?_ ?_
  · intro candidates hconnecting
    rw [hconnecting] at hphase
    rcases hphase with ⟨_, heq⟩ | ⟨_, heq⟩ <;> cases heq
  · intro live hlive
    rw [hlive] at hphase
    rcases hphase with ⟨_, heq⟩ | ⟨_, heq⟩ <;> cases heq

/-! ## §3. What comes from outside. -/

variable {env : Surroundings} {config : PoolConfig} {now : Time} {l : Ledger}

theorem attempt?_leave {effect : Effect} (h : effect ∈ c.leave) : effect.attempt? = none := by
  unfold leave at h
  split at h
  · rw [List.mem_singleton.mp h]
    rfl
  · rw [List.mem_singleton.mp h]
    rfl
  · exact absurd h (List.not_mem_nil)

theorem lose_eq (config : PoolConfig) (e : Failure) (c : Connection) (l : Ledger) :
    ∃ waiting retries, (c.lose config e l).connection
      = { c with phase := .errored e, waiting, retries } := by
  unfold lose
  split
  · split <;> exact ⟨_, _, rfl⟩
  · exact ⟨_, _, rfl⟩

/-- The attempt or the link fails. -/
theorem moves_lose (config : PoolConfig) (e : Failure) (c : Connection) (l : Ledger) :
    c.Moves (c.lose config e l).effects (c.lose config e l).connection := by
  obtain ⟨waiting, retries, hlost⟩ := lose_eq config e c l
  rw [hlost, effects_lose]
  exact moves_of_over rfl (.inl rfl) (fun _ hmem => attempt?_leave hmem) (.inr ⟨e, rfl⟩)

/-- An attempt has led to a link. -/
theorem moves_attach {candidates : List PeerName} (h : c.phase = .connecting candidates)
    (peer : PeerName) (link : LinkId) :
    c.Moves (c.attach peer link).2 (c.attach peer link).1 := by
  refine ⟨⟨rfl, .inl rfl, ?_, ?_, ?_, ?_⟩, ?_⟩
  · intro _ hconnecting
    cases hconnecting
  · intro live hlive
    cases hlive
    exact ⟨rfl, .inr ⟨peer, link, rfl, List.mem_singleton_self _⟩⟩
  · intro _ _ hmem
    cases List.mem_singleton.mp hmem
  · intro _ _ hmem
    cases List.mem_singleton.mp hmem
    exact ⟨rfl, rfl, ⟨candidates, h⟩, peer, rfl⟩
  · intro _ hmem _ hattempt
    rw [List.mem_singleton.mp hmem] at hattempt
    exact (Option.some.inj hattempt).symm

/-- A call leaves a link. -/
theorem follows_takeOut (interface : UInt32) (effects : List Effect) (live : Live)
    (n : SequenceNumber) (draining : Bool) :
    live.Follows interface effects { live.takeOut n with draining } :=
  Live.follows_of_sublist rfl rfl List.filter_sublist (List.Sublist.refl _)

/-- A response has arrived. -/
theorem moves_respond (config : PoolConfig) (frame : ResponseFrame) (c : Connection)
    (l : Ledger) :
    c.Moves (c.respond config frame l).effects (c.respond config frame l).connection := by
  have hresponded := responded config frame c l
  generalize c.respond config frame l = moved at *
  have hquiet : ∀ effect ∈ ([] : List Effect), effect.attempt? = none :=
    fun _ hmem => absurd hmem (List.not_mem_nil)
  cases hresponded with
  | ignored _ => exact moves_of_phase_eq rfl rfl rfl hquiet
  | dropped hphase _ =>
    exact moves_of_follows hphase rfl rfl rfl hquiet
      (Live.follows_of_sublist rfl rfl (List.Sublist.refl _) List.filter_sublist)
  | delivered hfinds | retried hfinds | unreadable hfinds | refused hfinds | failed hfinds =>
    exact moves_of_follows hfinds.phase rfl rfl rfl hquiet (follows_takeOut _ _ _ _ _)
  | @rejected live call e hfinds _ _ _ =>
    obtain ⟨waiting, retries, hlost⟩ := lose_eq config e
      { c with phase := .connected (live.takeOut frame.sequence) } (l.fail call.id e)
    rw [hlost, effects_lose]
    exact moves_of_over rfl (.inl rfl) (fun _ hmem => attempt?_leave hmem) (.inr ⟨e, rfl⟩)

theorem attempt?_cancel {id : CallId} {sent : List Effect}
    (h : c.cancel? env id = some (c', sent)) {effect : Effect} (hmem : effect ∈ sent) :
    effect.attempt? = none := by
  cases letGo h with
  | waiting => exact absurd hmem (List.not_mem_nil)
  | inFlight _ _ _ =>
    rw [List.mem_singleton.mp hmem]
    rfl

/-- A call is let go of. -/
theorem moves_cancel {id : CallId} {sent : List Effect}
    (h : c.cancel? env id = some (c', sent)) : c.Moves sent c' := by
  have hquiet : ∀ effect ∈ sent, effect.attempt? = none := fun _ hmem => attempt?_cancel h hmem
  cases letGo h with
  | waiting => exact moves_of_phase_eq rfl rfl rfl hquiet
  | inFlight hphase _ _ =>
    exact moves_of_follows hphase rfl rfl rfl hquiet (follows_takeOut _ _ _ _ _)

/-- The directory has changed. -/
theorem moves_reconsider (env : Surroundings) (config : PoolConfig) (now : Time)
    (c : Connection) (l : Ledger) :
    c.Moves (c.reconsider env config now l).effects
      (c.reconsider env config now l).connection := by
  have hreconsidered := reconsidered env config now c l
  generalize c.reconsider env config now l = moved at *
  cases hreconsidered with
  | kept _ => exact moves_of_phase_eq rfl rfl rfl fun _ hmem => absurd hmem (List.not_mem_nil)
  | @withdrawn live hphase _ =>
    obtain ⟨waiting, retries, hlost⟩ := lose_eq config
      (.connectionFailed s!"{c.key.agent.text} no longer advertised at {live.peer.text}")
      { c with looking := false } l
    rw [hlost, effects_lose]
    exact moves_of_over rfl (.inl rfl) (fun _ hmem => attempt?_leave hmem) (.inr ⟨_, rfl⟩)
  | restarted hphase =>
    exact moves_of_over rfl (.inr rfl) (fun _ hmem => attempt?_leave hmem) (.inl ⟨now, rfl⟩)

/-! ## §4. Whatever is due. -/

theorem noteDemand_eq (c : Connection) (now : Time) :
    ∃ idleSince, c.noteDemand now = { c with idleSince } := by
  unfold noteDemand
  split
  · exact ⟨none, rfl⟩
  · split
    · exact ⟨some now, rfl⟩
    · exact ⟨c.idleSince, rfl⟩

theorem attempt?_expire {effect : Effect} (h : effect ∈ (c.expire env now l).effects) :
    effect.attempt? = none := by
  unfold expire at h
  dsimp only at h
  split at h
  · obtain ⟨sent, -, rfl⟩ := List.mem_map.mp h
    rfl
  · exact absurd h (List.not_mem_nil)

theorem attempt?_flush {effect : Effect} (h : effect ∈ (c.flush env config l).2) :
    effect.attempt? = none := by
  unfold flush at h
  split at h
  · split at h
    · exact absurd h (List.not_mem_nil)
    · obtain ⟨call, -, -, n, taken, rfl⟩ := Live.of_mem_flush h
      rfl
  · exact absurd h (List.not_mem_nil)

/-- A link has lost only calls when it comes to sending. -/
theorem sought_of_connected {live : Live} (h : c.phase = .connected live) (env : Surroundings)
    (config : PoolConfig) (now : Time) (l : Ledger) :
    c.sought env config now l
      = ({ c with
            waiting := (c.expire env now l).ledger.unsettled c.waiting
            phase := .connected (live.forget (c.expire env now l).ledger) }, []) := by
  have hexpired : (c.expire env now l).connection
      = { c with
          waiting := (c.expire env now l).ledger.unsettled c.waiting
          phase := .connected (live.forget (c.expire env now l).ledger) } := by
    rw [ledger_expire]
    unfold expire
    rw [h]
  unfold sought
  rw [hexpired]
  rfl

/-- Deadlines and backing off start no attempt. -/
theorem rested_eq (h : c.live? = none) (env : Surroundings) (config : PoolConfig) (now : Time)
    (l : Ledger) :
    ∃ waiting phase, (c.expire env now l).connection.backOff config now = { c with waiting, phase }
      ∧ (phase = c.phase ∨ ∃ t, phase = .disconnected t) := by
  have hexpired : ∃ waiting, (c.expire env now l).connection = { c with waiting } := by
    unfold expire
    dsimp only
    split
    · next hphase =>
      rw [live?_of_phase hphase] at h
      cases h
    · exact ⟨_, rfl⟩
  obtain ⟨waiting, hexpired⟩ := hexpired
  rw [hexpired]
  unfold backOff
  split
  · exact ⟨waiting, _, rfl, .inr ⟨_, rfl⟩⟩
  · exact ⟨waiting, c.phase, rfl, .inl rfl⟩

/-- **An attempt is started**, or nothing happens. -/
theorem moves_sought (h : c.live? = none) (env : Surroundings) (config : PoolConfig)
    (now : Time) (l : Ledger) :
    c.Moves (c.sought env config now l).2 (c.sought env config now l).1
      ∧ (c.sought env config now l).1.live? = none := by
  obtain ⟨waiting, phase, hrested, hphase⟩ := rested_eq h env config now l
  have hquiet : ∀ effect ∈ ([] : List Effect), effect.attempt? = none :=
    fun _ hmem => absurd hmem (List.not_mem_nil)
  -- without an attempt, the phase is what it was, or it is over
  have hrest : ∀ looking,
      c.Moves [] { c with waiting, phase, looking }
        ∧ ({ c with waiting, phase, looking } : Connection).live? = none := by
    intro looking
    rcases hphase with rfl | ⟨t, rfl⟩
    · exact ⟨moves_of_phase_eq rfl rfl rfl hquiet, h⟩
    · exact ⟨moves_of_over rfl (.inl rfl) hquiet (.inl ⟨t, rfl⟩), rfl⟩
  unfold sought
  rw [hrested]
  dsimp only
  split
  · unfold seek
    split
    · exact hrest true
    · next peers hpeers =>
      refine ⟨⟨⟨rfl, .inr rfl, ?_, ?_, ?_, ?_⟩, ?_⟩, rfl⟩
      · -- the number of the attempt is a new one
        exact fun _ _ heq => absurd heq (Nat.succ_ne_self _)
      · intro _ hlive
        cases hlive
      · intro _ _ hmem
        cases List.mem_singleton.mp hmem
        exact ⟨rfl, rfl, rfl⟩
      · intro _ _ hmem
        cases List.mem_singleton.mp hmem
      · intro _ hmem _ hattempt
        rw [List.mem_singleton.mp hmem] at hattempt
        exact (Option.some.inj hattempt).symm
  · exact hrest c.looking

/-- Only the key, the number and the phase count. -/
theorem Becomes.of_eq (h : c.Becomes effects c') {d : Connection} (hkey : d.key = c'.key)
    (hgeneration : d.generation = c'.generation) (hphase : d.phase = c'.phase) :
    c.Becomes effects d := by
  obtain ⟨h₁, h₂, h₃, h₄, h₅, h₆⟩ := h
  refine ⟨hkey.trans h₁, ?_, ?_, ?_, ?_, ?_⟩ <;> rw [hgeneration] <;> try rw [hphase]
  · exact h₂
  · exact h₃
  · exact h₄
  · exact h₅
  · exact h₆

/-- **A connection does what is due.** -/
theorem moves_advance (env : Surroundings) (config : PoolConfig) (now : Time) (c : Connection)
    (l : Ledger) :
    c.Moves (c.advance env config now l).effects (c.advance env config now l).connection := by
  obtain ⟨idleSince, hnoted⟩ :=
    noteDemand_eq ((c.sought env config now l).1.flush env config (c.expire env now l).ledger).1 now
  rw [advance_eq, hnoted]
  dsimp only
  have hexpire : ∀ effect ∈ (c.expire env now l).effects, effect.attempt? = none :=
    fun _ hmem => attempt?_expire hmem
  cases hlive? : c.live? with
  | none =>
    obtain ⟨hsought, hnone⟩ := moves_sought hlive? env config now l
    rw [flush_of_live?_eq_none hnone, List.append_nil]
    -- what expires is no attempt
    have hown : ∀ effect ∈ (c.expire env now l).effects ++ (c.sought env config now l).2, ∀ key,
        effect.attempt? = some key → effect ∈ (c.sought env config now l).2 := by
      intro effect hmem key hattempt
      rcases List.mem_append.mp hmem with hexpired | hmem
      · rw [hexpire effect hexpired] at hattempt
        cases hattempt
      · exact hmem
    refine ⟨?_, fun effect hmem key hattempt =>
      hsought.own effect (hown effect hmem key hattempt) key hattempt⟩
    exact (hsought.mono (List.sublist_append_right _ _)
      fun effect hmem => hown effect hmem c.key).of_eq rfl rfl rfl
  | some live =>
    have hlive := phase_of_live? hlive?
    have hforget : live.Follows c.key.interface (c.expire env now l).effects
        (live.forget (c.expire env now l).ledger) :=
      Live.follows_of_sublist rfl rfl List.filter_sublist (List.Sublist.refl _)
    have hquiet : ∀ effect ∈ (c.expire env now l).effects
          ++ ((c.sought env config now l).1.flush env config (c.expire env now l).ledger).2,
        effect.attempt? = none := by
      intro effect hmem
      exact (List.mem_append.mp hmem).elim (hexpire effect) attempt?_flush
    have hsought := sought_of_connected hlive env config now l
    have hphase : (c.sought env config now l).1.phase
        = .connected (live.forget (c.expire env now l).ledger) := by rw [hsought]
    have hkey : (c.sought env config now l).1.key = c.key := by rw [hsought]
    have hgeneration : (c.sought env config now l).1.generation = c.generation := by rw [hsought]
    rw [show (c.sought env config now l).2 = [] by rw [hsought], List.append_nil]
    cases hd : live.draining with
    | true =>
      rw [flush_of_draining hphase hd] at hquiet ⊢
      rw [List.append_nil]
      exact moves_of_follows hlive hphase hkey hgeneration hexpire hforget
    | false =>
      rw [flush_of_connected hphase hd, hkey] at hquiet ⊢
      exact moves_of_follows hlive rfl rfl hgeneration hquiet
        (hforget.trans (Live.follows_flush env config _ _ _ _))

end Connection

/-! ## §5. All connections. -/

namespace Pool

variable {p q : Pool} {effects : List Effect}

/-- A connection that was not there before: nothing has been tried for it. -/
structure IsNew (effects : List Effect) (p : Pool) (c : Connection) : Prop where
  key : ∀ other ∈ p.connections, other.key ≠ c.key
  phase : ∃ t, c.phase = .disconnected t
  quiet : ∀ effect ∈ effects, effect.attempt? ≠ some c.key

/-- Every connection of `q` is a connection of `p` one step later, or it is new. -/
def Succeeds (effects : List Effect) (p q : Pool) : Prop :=
  ∀ c' ∈ q.connections, (∃ c ∈ p.connections, c.Becomes effects c') ∨ IsNew effects p c'

theorem succeeds_of_connections_eq (h : q.connections = p.connections)
    (hquiet : ∀ effect ∈ effects, effect.attempt? = none) : Succeeds effects p q :=
  fun c hc => .inl ⟨c, h ▸ hc, (Connection.moves_of_phase_eq rfl rfl rfl hquiet).toBecomes⟩

/-- What does not move stays where it is. -/
theorem settle_self (hkeys : (p.connections.map (·.key)).Nodup) {c : Connection}
    (hc : c ∈ p.connections) :
    p.settle { connection := c, ledger := p.ledger } = (p, []) := by
  obtain ⟨before, after, hsplit, hmodify⟩ := modify_between hkeys hc (fun _ => c)
  show ({ p with connections := (p.modify c.key fun _ => c).connections }, []) = (p, [])
  rw [hmodify.trans hsplit.symm]

/-- One connection moves, and the others have other keys. -/
theorem succeeds_settle {c : Connection} (hc : c ∈ p.connections) (moved : Moved)
    (h : c.Moves moved.effects moved.connection) :
    Succeeds (p.settle moved).2 p (p.settle moved).1 := by
  intro d hd
  obtain ⟨old, hold, rfl⟩ := List.mem_map.mp
    (show d ∈ p.connections.map
      (fun d => if d.key = moved.connection.key then moved.connection else d) from hd)
  rw [h.key]
  split
  · exact .inl ⟨c, hc, h.toBecomes⟩
  · next hother =>
    exact .inl ⟨old, hold, Connection.becomes_self fun effect hmem hattempt =>
      hother (h.own effect hmem old.key hattempt)⟩

/-- Whatever changes neither keys nor attempts. -/
theorem alike_modify {key : ConnectionKey} {f : Connection → Connection}
    (hf : ∀ c, (f c).key = c.key ∧ (f c).generation = c.generation ∧ (f c).phase = c.phase)
    {d : Connection} (hd : d ∈ (p.modify key f).connections) :
    ∃ c ∈ p.connections,
      d.key = c.key ∧ d.generation = c.generation ∧ d.phase = c.phase := by
  obtain ⟨c, hc, rfl⟩ := List.mem_map.mp hd
  refine ⟨c, hc, ?_⟩
  split
  · exact hf c
  · exact ⟨rfl, rfl, rfl⟩

theorem becomes_of_alike {c d : Connection}
    (h : d.key = c.key ∧ d.generation = c.generation ∧ d.phase = c.phase) : c.Becomes [] d :=
  (Connection.moves_of_phase_eq h.1 h.2.1 h.2.2
    fun _ hmem => absurd hmem (List.not_mem_nil)).toBecomes

theorem succeeds_modify (p : Pool) (key : ConnectionKey) {f : Connection → Connection}
    (hf : ∀ c, (f c).key = c.key ∧ (f c).generation = c.generation ∧ (f c).phase = c.phase) :
    Succeeds [] p (p.modify key f) := by
  intro d hd
  obtain ⟨c, hc, halike⟩ := alike_modify hf hd
  exact .inl ⟨c, hc, becomes_of_alike halike⟩

/-- The same with a connection that is perhaps new. -/
theorem succeeds_withConnection (p : Pool) (now : Time) (key : ConnectionKey)
    {f : Connection → Connection}
    (hf : ∀ c, (f c).key = c.key ∧ (f c).generation = c.generation ∧ (f c).phase = c.phase) :
    Succeeds [] p ((p.withConnection now key).modify key f) := by
  unfold withConnection
  cases hfind : p.connection? key with
  | some _ => exact succeeds_modify p key hf
  | none =>
    intro d hd
    obtain ⟨c, hc, halike⟩ := alike_modify hf hd
    rcases List.mem_append.mp hc with hold | hnew
    · exact .inl ⟨c, hold, becomes_of_alike halike⟩
    · -- no connection had the key of the new one
      rw [List.mem_singleton.mp hnew] at halike
      obtain ⟨hkey, -, hphase⟩ := halike
      refine .inr ⟨fun other hother heq => ?_, ⟨now, hphase⟩,
        fun _ hmem => absurd hmem (List.not_mem_nil)⟩
      exact List.find?_eq_none.mp hfind other hother (beq_iff_eq.mpr (heq.trans hkey))

/-- **All connections move in turn**, each with its own attempts. -/
theorem becomes_moveAll {f : Connection → Ledger → Moved}
    (hf : ∀ (c : Connection) (l : Ledger), c.Moves (f c l).effects (f c l).connection)
    {cs : List Connection}
    (hkeys : (cs.map (·.key)).Nodup) (l : Ledger) :
    (∀ c' ∈ (moveAll f cs l).1, ∃ c ∈ cs, c.Becomes (moveAll f cs l).2.2 c')
      ∧ ∀ effect ∈ (moveAll f cs l).2.2, ∀ key, effect.attempt? = some key →
        ∃ c ∈ cs, c.key = key := by
  induction cs generalizing l with
  | nil =>
    exact ⟨fun _ hmem => absurd hmem (List.not_mem_nil),
      fun _ hmem => absurd hmem (List.not_mem_nil)⟩
  | cons c rest ih =>
    rw [moveAll_cons]
    dsimp only
    rw [List.map_cons, List.nodup_cons] at hkeys
    have hfirst := hf c l
    obtain ⟨hrest, hothers⟩ := ih hkeys.2 (f c l).ledger
    constructor
    · -- an attempt of the first one is none of the others, and the other way round
      intro c' hc'
      rcases List.mem_cons.mp hc' with rfl | hc'
      · refine ⟨c, List.mem_cons_self, hfirst.mono (List.sublist_append_left _ _) ?_⟩
        intro effect hmem hattempt
        rcases List.mem_append.mp hmem with hown | hother
        · exact hown
        · obtain ⟨d, hd, hkey⟩ := hothers effect hother c.key hattempt
          exact absurd (hkey ▸ List.mem_map_of_mem hd) hkeys.1
      · obtain ⟨d, hd, hbecomes⟩ := hrest c' hc'
        refine ⟨d, List.mem_cons_of_mem _ hd, hbecomes.mono (List.sublist_append_right _ _) ?_⟩
        intro effect hmem hattempt
        rcases List.mem_append.mp hmem with hother | hown
        · have hkey := hfirst.own effect hother d.key hattempt
          exact absurd (hkey ▸ List.mem_map_of_mem hd) hkeys.1
        · exact hown
    · intro effect hmem key hattempt
      rcases List.mem_append.mp hmem with hfirst' | hrest'
      · exact ⟨c, List.mem_cons_self, (hfirst.own effect hfirst' key hattempt).symm⟩
      · obtain ⟨d, hd, hkey⟩ := hothers effect hrest' key hattempt
        exact ⟨d, List.mem_cons_of_mem _ hd, hkey⟩

theorem becomes_cancelIn (env : Surroundings) (id : CallId) (cs : List Connection) :
    (∀ effect ∈ (cancelIn env id cs).2, effect.attempt? = none)
      ∧ ∀ c' ∈ (cancelIn env id cs).1, ∃ c ∈ cs, c.Becomes (cancelIn env id cs).2 c' := by
  have hself : ∀ {effects : List Effect} (c : Connection),
      (∀ effect ∈ effects, effect.attempt? = none) → c.Becomes effects c := fun c hquiet =>
    (Connection.moves_of_phase_eq rfl rfl rfl hquiet).toBecomes
  induction cs with
  | nil =>
    exact ⟨fun _ hmem => absurd hmem (List.not_mem_nil),
      fun _ hmem => absurd hmem (List.not_mem_nil)⟩
  | cons c rest ih =>
    unfold cancelIn
    split
    · next c' sent hcancel =>
      have hquiet : ∀ effect ∈ sent, effect.attempt? = none :=
        fun _ hmem => Connection.attempt?_cancel hcancel hmem
      refine ⟨hquiet, fun d hd => ?_⟩
      rcases List.mem_cons.mp hd with rfl | hd
      · exact ⟨c, List.mem_cons_self, (Connection.moves_cancel hcancel).toBecomes⟩
      · exact ⟨d, List.mem_cons_of_mem _ hd, hself d hquiet⟩
    · refine ⟨ih.1, fun d hd => ?_⟩
      rcases List.mem_cons.mp hd with rfl | hd
      · exact ⟨d, List.mem_cons_self, hself d ih.1⟩
      · obtain ⟨old, hold, hbecomes⟩ := ih.2 d hd
        exact ⟨old, List.mem_cons_of_mem _ hold, hbecomes⟩

theorem attempt?_dropNotice {first : Notice} {effect : Effect} (h : effect ∈ dropNotice first) :
    effect.attempt? = none := by
  unfold dropNotice at h
  split at h
  · rw [List.mem_singleton.mp h]
    rfl
  · exact absurd h (List.not_mem_nil)

/-- A notice is attended to or dropped. -/
theorem succeeds_notice (p : Pool) (first : Notice) :
    Succeeds (p.notice first).2 p (p.notice first).1 := by
  have hdropped : Succeeds (dropNotice first) p p :=
    succeeds_of_connections_eq rfl fun _ hmem => attempt?_dropNotice hmem
  unfold Pool.notice
  cases hfind : p.connection? first.key with
  | none => exact hdropped
  | some c =>
    dsimp only
    split
    · have hc := (mem_of_connection? hfind).1
      have hattended := attended p c first
      generalize p.attend c first = stepped at *
      generalize c.paysForNotice p.config p.ledger first = paying at *
      cases hattended with
      | attached hphase => exact succeeds_settle hc _ (Connection.moves_attach hphase _ _)
      | attemptFailed _ => exact succeeds_settle hc _ (Connection.moves_lose _ _ _ _)
      | responded => exact succeeds_settle hc _ (Connection.moves_respond _ _ _ _)
      | linkFailed _ => exact succeeds_settle hc _ (Connection.moves_lose _ _ _ _)
      | dropped => exact hdropped
    · exact hdropped

theorem succeeds_command (env : Surroundings) (now : Time) (p : Pool) (first : Command) :
    Succeeds (p.command env now first).2 p (p.command env now first).1 := by
  cases first with
  | call key call =>
    unfold command
    dsimp only
    split
    · exact succeeds_of_connections_eq rfl fun _ hmem => absurd hmem (List.not_mem_nil)
    · exact succeeds_withConnection p now key fun _ => ⟨rfl, rfl, rfl⟩
  | abort id => exact fun c' hc' => .inl ((becomes_cancelIn env id p.connections).2 c' hc')
  | acquire key => exact succeeds_withConnection p now key fun _ => ⟨rfl, rfl, rfl⟩
  | release key => exact succeeds_modify p key fun _ => ⟨rfl, rfl, rfl⟩

/-- Whatever is due is done, and spent connections are removed. -/
theorem succeeds_advance (hkeys : (p.connections.map (·.key)).Nodup) (env : Surroundings)
    (now : Time) : Succeeds (p.advance env now).2 p (p.advance env now).1 := by
  intro c' hc'
  obtain ⟨c, hc, hbecomes⟩ := (becomes_moveAll (Connection.moves_advance env p.config now) hkeys
    p.ledger).1 c' (List.mem_filter.mp hc').1
  refine .inl ⟨c, hc, hbecomes.mono (List.sublist_append_left _ _) ?_⟩
  -- connections that are removed start no attempt
  intro effect hmem hattempt
  rcases List.mem_append.mp hmem with hmoved | hspent
  · exact hmoved
  · obtain ⟨d, -, hleave⟩ := List.mem_flatMap.mp hspent
    rw [Connection.attempt?_leave hleave] at hattempt
    cases hattempt

/-- **Whatever happens**, every connection was there before or is new. -/
theorem succeeds_after (hkeys : (p.connections.map (·.key)).Nodup) (event : Event) :
    Succeeds (p.after event).2 p (p.after event).1 := by
  have hnothing : ∀ effect ∈ ([] : List Effect), effect.attempt? = none :=
    fun _ hmem => absurd hmem (List.not_mem_nil)
  cases event with
  | send command =>
    refine succeeds_of_connections_eq ?_ hnothing
    show ((p.send command).1).connections = p.connections
    unfold send
    split <;> rfl
  | advance env now => exact succeeds_advance hkeys env now
  | look env now subject =>
    cases subject with
    | stop => exact fun c' hc' => absurd hc' (List.not_mem_nil)
    | command first =>
      intro c' hc'
      exact (succeeds_command env now { p with commands := p.commands.tail } first c' hc').imp_right
        fun hnew => ⟨hnew.key, hnew.phase, hnew.quiet⟩
    | notice first =>
      intro c' hc'
      exact (succeeds_notice { p with notices := p.notices.tail } first c' hc').imp_right
        fun hnew => ⟨hnew.key, hnew.phase, hnew.quiet⟩
    | directory directory =>
      exact fun c' hc' => .inl
        ((becomes_moveAll (Connection.moves_reconsider env p.config now) hkeys p.ledger).1 c' hc')
    | timer => exact succeeds_of_connections_eq rfl hnothing
  | _ => exact succeeds_of_connections_eq rfl hnothing

/-! ## §6. The connection for a key. -/

theorem connection?_of_mem (hkeys : (p.connections.map (·.key)).Nodup) {c : Connection}
    (hc : c ∈ p.connections) : p.connection? c.key = some c := by
  obtain ⟨before, after, hsplit⟩ := List.append_of_mem hc
  unfold connection?
  rw [hsplit, List.map_append, List.map_cons, List.nodup_middle, List.nodup_cons,
    ← List.map_append] at hkeys
  -- a connection that comes before has another key
  have hbefore : before.find? (·.key == c.key) = none := by
    rw [List.find?_eq_none]
    intro d hd heq
    exact hkeys.1 (List.mem_map.mpr ⟨d, List.mem_append_left _ hd, beq_iff_eq.mp heq⟩)
  rw [hsplit, List.find?_append, hbefore, Option.none_or]
  exact List.find?_cons_of_pos (beq_self_eq_true c.key)

/-- **The connection for a key** after an event. -/
theorem Tidy.connection?_after (h : Tidy effects p) {event : Event} {key : ConnectionKey}
    {c' : Connection} (hfind : (p.after event).1.connection? key = some c') :
    (∃ c, p.connection? key = some c ∧ c.Becomes (p.after event).2 c')
      ∨ p.connection? key = none ∧ IsNew (p.after event).2 p c' := by
  obtain ⟨hmem, rfl⟩ := mem_of_connection? hfind
  rcases succeeds_after h.keys event c' hmem with ⟨c, hc, hbecomes⟩ | hnew
  · refine .inl ⟨c, ?_, hbecomes⟩
    rw [hbecomes.key]
    exact connection?_of_mem h.keys hc
  · refine .inr ⟨List.find?_eq_none.mpr fun c hc heq => ?_, hnew⟩
    exact hnew.key c hc (beq_iff_eq.mp heq)

/-- **An attempt belongs to a connection that was there before.** -/
theorem Tidy.connection?_of_attempt (h : Tidy effects p) {event : Event} {key : ConnectionKey}
    {effect : Effect} (hmem : effect ∈ (p.after event).2) (hattempt : effect.attempt? = some key)
    {c' : Connection} (hfind : (p.after event).1.connection? key = some c') :
    ∃ c, p.connection? key = some c ∧ c.Becomes (p.after event).2 c' := by
  rcases h.connection?_after hfind with hold | ⟨-, hnew⟩
  · exact hold
  · rw [← (mem_of_connection? hfind).2] at hattempt
    exact absurd hattempt (hnew.quiet effect hmem)

/-- **Following a connection through a run.**  What holds of the connection for a key after some
moment, and is kept by each step and by a new beginning, holds of it ever after. -/
theorem Run.follow {config : PoolConfig} {history : List Moment} (run : Run config history p)
    (key : ConnectionKey) (holds : List Moment → Connection → Prop) {earlier : List Moment}
    {first : Moment} (start : ∀ c, first.after.connection? key = some c → holds [] c)
    (step : ∀ {since m c c'}, m.before.connection? key = some c → holds since c →
      c.Becomes m.effects c' → holds (since ++ [m]) c')
    (anew : ∀ {since m c'}, m.before.connection? key = none → IsNew m.effects m.before c' →
      holds (since ++ [m]) c')
    {since : List Moment} (hsplit : history = earlier ++ first :: since) {c : Connection}
    (hc : p.connection? key = some c) : holds since c := by
  induction run generalizing since c with
  | start _ => exact absurd hsplit (by simp)
  | @next history p run event _ ih =>
    rcases List.eq_nil_or_concat since with rfl | ⟨rest, last, rfl⟩
    · obtain ⟨-, hlast⟩ := List.append_inj' hsplit rfl
      cases hlast
      exact start c hc
    · rw [List.concat_eq_append] at hsplit ⊢
      rw [← List.cons_append, ← List.append_assoc] at hsplit
      obtain ⟨hhistory, hlast⟩ := List.append_inj' hsplit rfl
      cases hlast
      rcases run.accounts.tidy.connection?_after hc with ⟨old, hold, hbecomes⟩ | ⟨hnone, hnew⟩
      · exact step hold (ih hhistory hold) hbecomes
      · exact anew hnone hnew

/-- The same for as long as the connection is there: nothing is said of connections that take the
place of others. -/
theorem Run.follow_kept {config : PoolConfig} {history : List Moment}
    (run : Run config history p) (key : ConnectionKey) (holds : List Moment → Connection → Prop)
    {earlier : List Moment} {first : Moment}
    (start : ∀ c, first.after.connection? key = some c → holds [] c)
    (step : ∀ {since m c c'}, c.key = key → holds since c → c.Becomes m.effects c' →
      holds (since ++ [m]) c')
    {since : List Moment} (hsplit : history = earlier ++ first :: since)
    (hkept : ∀ m ∈ since, (m.before.connection? key).isSome = true) {c : Connection}
    (hc : p.connection? key = some c) : holds since c := by
  refine run.follow key (fun since c =>
    (∀ m ∈ since, (m.before.connection? key).isSome = true) → holds since c) ?_ ?_ ?_ hsplit hc
    hkept
  · exact fun c hc _ => start c hc
  · intro since m c c' hc hholds hbecomes hkept
    exact step (mem_of_connection? hc).2
      (hholds fun m hm => hkept m (List.mem_append_left _ hm)) hbecomes
  · intro since m c' hnone _ hkept
    have hsome := hkept m (List.mem_append_right _ (List.mem_singleton_self m))
    rw [hnone] at hsome
    cases hsome

end Pool

end RemoteCall
