/-
  RemoteCall.Proofs.Pool.Pending
  ──────────────────────────────
  **THE ATTEMPT THAT IS PENDING.**

  An attempt to connect is pending from when it is started until it has led to a
  link or is over.  Which one is pending for a key can be told from the effects
  alone:

      seek key n      nothing was pending, and now n is
      attach key n    n was pending, and now nothing is
      giveUp key n    the same
      anything else   as before

  Reading the effects of a run in this way never gets stuck: no attempt is
  started while another one is pending, and none is over twice.  What comes out
  is the attempt that the connection for the key is making.

  Main statements:
    • `Connection.tracks_advance`, `tracks_lose`, `tracks_respond`,
      `tracks_reconsider` — one connection,
    • `tracked_after` — one event,
    • `Run.tracked`   — a run.
-/
import RemoteCall.Proofs.Pool.Faults
import RemoteCall.Proofs.Pool.Handing

namespace RemoteCall

/-! ## §1. Reading effects. -/

namespace Effect

variable {key : ConnectionKey} {effect : Effect} {effects : List Effect}

/-- The connection whose attempt is started, has led to a link, or is given up. -/
def concerns? : Effect → Option ConnectionKey
  | .seek key _ _ | .giveUp key _ | .attach key _ _ => some key
  | .send _ _ _ _ | .close _ => none

/-- The attempt that is pending for a key after an effect.  There is no answer if an attempt is
started while another one is pending, or if one is over that is not pending. -/
def pends (key : ConnectionKey) (pending : Option Nat) : Effect → Option (Option Nat)
  | .seek other n _ =>
    if other = key then if pending = none then some (some n) else none else some pending
  | .giveUp other n | .attach other n _ =>
    if other = key then if pending = some n then some none else none else some pending
  | .send _ _ _ _ | .close _ => some pending

theorem pends_of_others (h : effect.concerns? ≠ some key) (pending : Option Nat) :
    effect.pends key pending = some pending := by
  cases effect with
  | seek other _ _ | giveUp other _ | attach other _ _ =>
    exact if_neg fun heq => h (congrArg some heq)
  | send _ _ _ _ | close _ => rfl

/-- Effects that are not about the attempts for a key. -/
theorem foldlM_pends_of_others (h : ∀ effect ∈ effects, effect.concerns? ≠ some key)
    (pending : Option Nat) : effects.foldlM (pends key) pending = some pending := by
  induction effects with
  | nil => rfl
  | cons effect rest ih =>
    rw [List.foldlM_cons, pends_of_others (h effect List.mem_cons_self)]
    exact ih fun effect hmem => h effect (List.mem_cons_of_mem _ hmem)

end Effect

/-! ## §2. One connection. -/

namespace Connection

/-- The attempt that a connection is making. -/
def attempt? (c : Connection) : Option Nat :=
  match c.phase with
  | .connecting _ => some c.generation
  | _ => none

/-- The effects are about the attempts of one connection, and tell what it is making. -/
structure Tracks (effects : List Effect) (c c' : Connection) : Prop where
  key : c'.key = c.key
  own : ∀ effect ∈ effects, ∀ key, effect.concerns? = some key → key = c.key
  pending : effects.foldlM (Effect.pends c.key) c.attempt? = some c'.attempt?

variable {env : Surroundings} {config : PoolConfig} {now : Time} {c c' c'' : Connection}
  {l : Ledger} {effects more : List Effect} {effect : Effect}

theorem attempt?_of_connecting {candidates : List PeerName}
    (h : c.phase = .connecting candidates) : c.attempt? = some c.generation := by
  unfold attempt?
  rw [h]

theorem attempt?_of_ne (h : ∀ candidates, c.phase ≠ .connecting candidates) :
    c.attempt? = none := by
  unfold attempt?
  split
  · next hphase => exact absurd hphase (h _)
  · rfl

theorem attempt?_of_connected {live : Live} (h : c.phase = .connected live) :
    c.attempt? = none := by
  refine attempt?_of_ne fun candidates hphase => ?_
  rw [h] at hphase
  cases hphase

/-- Nothing is done about attempts. -/
theorem tracks_of_quiet (hkey : c'.key = c.key) (hattempt : c'.attempt? = c.attempt?)
    (hquiet : ∀ effect ∈ effects, effect.concerns? = none) : c.Tracks effects c' := by
  refine ⟨hkey, fun effect hmem key hconcerns => ?_, ?_⟩
  · rw [hquiet effect hmem] at hconcerns
    cases hconcerns
  · rw [hattempt]
    refine Effect.foldlM_pends_of_others (fun effect hmem heq => ?_) _
    rw [hquiet effect hmem] at heq
    cases heq

/-- **One thing after the other.** -/
theorem Tracks.trans (h : c.Tracks effects c') (h' : c'.Tracks more c'') :
    c.Tracks (effects ++ more) c'' := by
  refine ⟨h'.key.trans h.key, fun effect hmem key hconcerns => ?_, ?_⟩
  · rcases List.mem_append.mp hmem with hfirst | hsecond
    · exact h.own effect hfirst key hconcerns
    · exact (h'.own effect hsecond key hconcerns).trans h.key
  · rw [List.foldlM_append, h.pending]
    have hpending := h'.pending
    rw [h.key] at hpending
    exact hpending

/-- The phase is left for one without an attempt. -/
theorem tracks_leave (hkey : c'.key = c.key) (hover : c'.attempt? = none) :
    c.Tracks c.leave c' := by
  cases hphase : c.phase with
  | connecting candidates =>
    have hleave : c.leave = [.giveUp c.key c.generation] := by
      unfold leave
      rw [hphase]
    rw [hleave]
    refine ⟨hkey, fun effect hmem key hconcerns => ?_, ?_⟩
    · rw [List.mem_singleton.mp hmem] at hconcerns
      exact (Option.some.inj hconcerns).symm
    · rw [attempt?_of_connecting hphase, hover]
      simp [Effect.pends]
  | connected live =>
    have hleave : c.leave = [.close live.link] := by
      unfold leave
      rw [hphase]
    rw [hleave]
    have hidle := attempt?_of_connected hphase
    refine tracks_of_quiet hkey (hover.trans hidle.symm) fun effect hmem => ?_
    rw [List.mem_singleton.mp hmem]
    rfl
  | disconnected _ | errored _ =>
    have hleave : c.leave = [] := by
      unfold leave
      rw [hphase]
    have hidle : c.attempt? = none := by
      unfold attempt?
      rw [hphase]
    rw [hleave]
    exact tracks_of_quiet hkey (hover.trans hidle.symm) fun _ hmem => absurd hmem List.not_mem_nil

/-- The attempt or the link fails. -/
theorem tracks_lose (config : PoolConfig) (e : Failure) (c : Connection) (l : Ledger) :
    c.Tracks (c.lose config e l).effects (c.lose config e l).connection := by
  obtain ⟨waiting, retries, hlost⟩ := lose_eq config e c l
  rw [hlost, effects_lose]
  exact tracks_leave rfl rfl

/-- The attempt has led to a link. -/
theorem tracks_attach {candidates : List PeerName} (h : c.phase = .connecting candidates)
    (peer : PeerName) (link : LinkId) : c.Tracks (c.attach peer link).2 (c.attach peer link).1 := by
  refine ⟨rfl, fun effect hmem key hconcerns => ?_, ?_⟩
  · rw [List.mem_singleton.mp hmem] at hconcerns
    exact (Option.some.inj hconcerns).symm
  · rw [attempt?_of_connecting h]
    simp [attach, attempt?, Effect.pends]

/-- A response has arrived. -/
theorem tracks_respond (config : PoolConfig) (frame : ResponseFrame) (c : Connection)
    (l : Ledger) :
    c.Tracks (c.respond config frame l).effects (c.respond config frame l).connection := by
  have hresponded := responded config frame c l
  generalize c.respond config frame l = moved at *
  have hlinked : ∀ {live live' : Live} {d : Connection}, c.phase = .connected live →
      d.phase = .connected live' → d.key = c.key → c.Tracks [] d := by
    intro live live' d hphase hphase' hkey
    exact tracks_of_quiet hkey
      ((attempt?_of_connected hphase').trans (attempt?_of_connected hphase).symm)
      fun _ hmem => absurd hmem List.not_mem_nil
  cases hresponded with
  | ignored _ => exact tracks_of_quiet rfl rfl fun _ hmem => absurd hmem List.not_mem_nil
  | dropped hphase _ => exact hlinked hphase rfl rfl
  | delivered hfinds | retried hfinds | unreadable hfinds | refused hfinds | failed hfinds =>
    exact hlinked hfinds.phase rfl rfl
  | @rejected live call e hfinds _ _ _ =>
    have htaken : c.Tracks [] { c with phase := .connected (live.takeOut frame.sequence) } :=
      hlinked hfinds.phase rfl rfl
    have hlost := htaken.trans (tracks_lose config e _ (l.fail call.id e))
    exact hlost

/-- The directory has changed. -/
theorem tracks_reconsider (env : Surroundings) (config : PoolConfig) (now : Time) (c : Connection)
    (l : Ledger) :
    c.Tracks (c.reconsider env config now l).effects
      (c.reconsider env config now l).connection := by
  have hreconsidered := reconsidered env config now c l
  generalize c.reconsider env config now l = moved at *
  cases hreconsidered with
  | kept _ => exact tracks_of_quiet rfl rfl fun _ hmem => absurd hmem List.not_mem_nil
  | @withdrawn live hphase _ =>
    have hseen : c.Tracks [] { c with looking := false } :=
      tracks_of_quiet rfl rfl fun _ hmem => absurd hmem List.not_mem_nil
    have hlost := hseen.trans (tracks_lose config
      (.connectionFailed s!"{c.key.agent.text} no longer advertised at {live.peer.text}") _ l)
    exact hlost
  | restarted _ => exact tracks_leave rfl rfl

theorem concerns?_expire (hmem : effect ∈ (c.expire env now l).effects) :
    effect.concerns? = none := by
  unfold expire at hmem
  dsimp only at hmem
  split at hmem
  · obtain ⟨sent, -, rfl⟩ := List.mem_map.mp hmem
    rfl
  · exact absurd hmem List.not_mem_nil

theorem concerns?_flush (hmem : effect ∈ (c.flush env config l).2) : effect.concerns? = none := by
  unfold flush at hmem
  split at hmem
  · split at hmem
    · exact absurd hmem List.not_mem_nil
    · obtain ⟨call, -, -, n, taken, rfl⟩ := Live.of_mem_flush hmem
      rfl
  · exact absurd hmem List.not_mem_nil

/-- Deadlines. -/
theorem tracks_expire (env : Surroundings) (now : Time) (c : Connection) (l : Ledger) :
    c.Tracks (c.expire env now l).effects (c.expire env now l).connection := by
  have hconnection : (c.expire env now l).connection.key = c.key
      ∧ (c.expire env now l).connection.attempt? = c.attempt? := by
    unfold expire
    dsimp only
    split
    · next hphase => exact ⟨rfl, (attempt?_of_connected hphase).symm⟩
    · exact ⟨rfl, rfl⟩
  exact tracks_of_quiet hconnection.1 hconnection.2 fun _ hmem => concerns?_expire hmem

/-- Backing off. -/
theorem tracks_backOff (config : PoolConfig) (now : Time) (c : Connection) :
    c.Tracks [] (c.backOff config now) := by
  unfold backOff
  split
  · next hphase =>
    refine tracks_of_quiet rfl (attempt?_of_ne fun _ heq => ?_).symm
      fun _ hmem => absurd hmem List.not_mem_nil
    rw [hphase] at heq
    cases heq
  · exact tracks_of_quiet rfl rfl fun _ hmem => absurd hmem List.not_mem_nil

/-- An attempt is started when it is due, and then none is pending. -/
theorem tracks_seek (hdue : c.isDue now = true) (env : Surroundings) :
    c.Tracks (c.seek env).2 (c.seek env).1 := by
  have hidle : c.attempt? = none := by
    refine attempt?_of_ne fun candidates hphase => ?_
    unfold isDue at hdue
    rw [hphase] at hdue
    cases hdue
  unfold seek
  split
  · exact tracks_of_quiet rfl rfl fun _ hmem => absurd hmem List.not_mem_nil
  · refine ⟨rfl, fun effect hmem key hconcerns => ?_, ?_⟩
    · rw [List.mem_singleton.mp hmem] at hconcerns
      exact (Option.some.inj hconcerns).symm
    · rw [hidle]
      simp [attempt?, Effect.pends]

/-- Sending. -/
theorem tracks_flush (env : Surroundings) (config : PoolConfig) (c : Connection) (l : Ledger) :
    c.Tracks (c.flush env config l).2 (c.flush env config l).1 := by
  have hconnection : (c.flush env config l).1.key = c.key
      ∧ (c.flush env config l).1.attempt? = c.attempt? := by
    unfold flush
    split
    · next hphase =>
      split
      · exact ⟨rfl, rfl⟩
      · exact ⟨rfl, (attempt?_of_connected hphase).symm⟩
    · exact ⟨rfl, rfl⟩
  exact tracks_of_quiet hconnection.1 hconnection.2 fun _ hmem => concerns?_flush hmem

/-- **A connection does what is due.** -/
theorem tracks_advance (env : Surroundings) (config : PoolConfig) (now : Time) (c : Connection)
    (l : Ledger) :
    c.Tracks (c.advance env config now l).effects (c.advance env config now l).connection := by
  have hsought : c.Tracks ((c.expire env now l).effects ++ (c.sought env config now l).2)
      (c.sought env config now l).1 := by
    refine (tracks_expire env now c l).trans ?_
    unfold sought
    dsimp only
    split
    · next hdue => exact (tracks_backOff config now _).trans (tracks_seek hdue env)
    · exact tracks_backOff config now _
  have hflushed := hsought.trans
    (tracks_flush env config (c.sought env config now l).1 (c.expire env now l).ledger)
  obtain ⟨idleSince, hnoted⟩ :=
    noteDemand_eq ((c.sought env config now l).1.flush env config (c.expire env now l).ledger).1 now
  rw [advance_eq, hnoted]
  exact ⟨hflushed.key, hflushed.own, hflushed.pending⟩

end Connection

open Connection

/-! ## §3. All connections. -/

namespace Pool

variable {config : PoolConfig} {history : List Moment} {p q : Pool} {event : Event}
  {key : ConnectionKey} {effects : List Effect} {cs : List Connection} {c : Connection}
  {env : Surroundings} {now : Time}

/-- The attempt that one of the connections is making for a key. -/
def attemptIn? (cs : List Connection) (key : ConnectionKey) : Option Nat :=
  (cs.find? (·.key == key)).bind (·.attempt?)

/-- The attempt that is made for a key. -/
def attempt? (p : Pool) (key : ConnectionKey) : Option Nat :=
  attemptIn? p.connections key

/-- The effects tell what attempts are made. -/
def Tracked (effects : List Effect) (p q : Pool) : Prop :=
  ∀ key, effects.foldlM (Effect.pends key) (p.attempt? key) = some (q.attempt? key)

theorem attempt?_eq (p : Pool) (key : ConnectionKey) :
    p.attempt? key = (p.connection? key).bind (·.attempt?) :=
  rfl

theorem attemptIn?_cons_of_eq (h : c.key = key) (cs : List Connection) :
    attemptIn? (c :: cs) key = c.attempt? := by
  unfold attemptIn?
  rw [List.find?_cons, beq_iff_eq.mpr h]
  rfl

theorem attemptIn?_cons_of_ne (h : c.key ≠ key) (cs : List Connection) :
    attemptIn? (c :: cs) key = attemptIn? cs key := by
  unfold attemptIn?
  rw [List.find?_cons, beq_eq_false_iff_ne.mpr h]

theorem attemptIn?_of_notMem (h : key ∉ cs.map (·.key)) : attemptIn? cs key = none := by
  unfold attemptIn?
  rw [List.find?_eq_none.mpr fun c hc heq =>
    h (List.mem_map.mpr ⟨c, hc, beq_iff_eq.mp heq⟩)]
  rfl

/-- Only the keys and the attempts matter. -/
theorem tracked_of_map_eq
    (h : q.connections.map (fun c => (c.key, c.attempt?))
      = p.connections.map (fun c => (c.key, c.attempt?)))
    (hquiet : ∀ effect ∈ effects, effect.concerns? = none) : Tracked effects p q := by
  have hpairs : ∀ (p : Pool) (key : ConnectionKey), p.attempt? key
      = ((p.connections.map fun c => (c.key, c.attempt?)).find? (·.1 == key)).bind (·.2) := by
    intro p key
    rw [List.find?_map, Option.bind_map]
    rfl
  intro key
  rw [hpairs q, h, ← hpairs]
  refine Effect.foldlM_pends_of_others (fun effect hmem heq => ?_) _
  rw [hquiet effect hmem] at heq
  cases heq

theorem tracked_modify (p : Pool) (key : ConnectionKey) {f : Connection → Connection}
    (hf : ∀ c, (f c).key = c.key ∧ (f c).attempt? = c.attempt?) :
    Tracked [] p (p.modify key f) := by
  refine tracked_of_map_eq ?_ fun _ hmem => absurd hmem List.not_mem_nil
  refine List.map_map.trans (List.map_congr_left fun c _ => ?_)
  dsimp only [Function.comp]
  split
  · rw [(hf c).1, (hf c).2]
  · rfl

/-- A connection that is new makes no attempt. -/
theorem tracked_withConnection (p : Pool) (now : Time) (key : ConnectionKey) :
    Tracked [] p (p.withConnection now key) := by
  intro other
  refine congrArg some ?_
  unfold withConnection
  cases hfind : p.connection? key with
  | some _ => rfl
  | none =>
    unfold attempt? attemptIn?
    dsimp only
    rw [List.find?_append]
    cases p.connections.find? (·.key == other) with
    | some _ => rfl
    | none =>
      rw [Option.none_or, List.find?_singleton]
      split <;> rfl

theorem Tracked.trans {more : List Effect} {r : Pool} (h : Tracked effects p q)
    (h' : Tracked more q r) : Tracked (effects ++ more) p r := by
  intro key
  rw [List.foldlM_append, h key]
  exact h' key

/-- One connection moves. -/
theorem tracked_settle (hc : p.connection? key = some c) (moved : Moved)
    (h : c.Tracks moved.effects moved.connection) :
    Tracked (p.settle moved).2 p (p.settle moved).1 := by
  obtain ⟨-, rfl⟩ := mem_of_connection? hc
  obtain ⟨hown, hothers⟩ := connection?_settle hc moved h.key
  intro other
  by_cases heq : other = c.key
  · subst heq
    rw [attempt?_eq, attempt?_eq, hc, hown]
    exact h.pending
  · rw [attempt?_eq, attempt?_eq, hothers other heq]
    exact Effect.foldlM_pends_of_others
      (fun effect hmem hconcerns => heq (h.own effect hmem other hconcerns)) _

/-- **All connections move in turn**, each with its own attempts. -/
theorem tracked_moveAll {f : Connection → Ledger → Moved}
    (hf : ∀ (c : Connection) (l : Ledger), c.Tracks (f c l).effects (f c l).connection)
    (hkeys : (cs.map (·.key)).Nodup) (l : Ledger) (key : ConnectionKey) :
    (moveAll f cs l).2.2.foldlM (Effect.pends key) (attemptIn? cs key)
      = some (attemptIn? (moveAll f cs l).1 key) := by
  induction cs generalizing l with
  | nil => rfl
  | cons c rest ih =>
    rw [List.map_cons, List.nodup_cons] at hkeys
    have hfirst := hf c l
    rw [moveAll_cons]
    dsimp only
    rw [List.foldlM_append]
    by_cases heq : c.key = key
    · -- what the others do is about other keys
      subst heq
      have hothers : ∀ effect ∈ (moveAll f rest (f c l).ledger).2.2,
          effect.concerns? ≠ some c.key := by
        intro effect hmem hconcerns
        obtain ⟨before, d, after, hsplit, heffect, -⟩ := of_mem_moveAll hmem
        refine hkeys.1 (List.mem_map.mpr ⟨d, ?_, ((hf d _).own effect heffect _ hconcerns).symm⟩)
        rw [hsplit]
        exact List.mem_append_right _ List.mem_cons_self
      rw [attemptIn?_cons_of_eq rfl, attemptIn?_cons_of_eq hfirst.key, hfirst.pending]
      exact Effect.foldlM_pends_of_others hothers _
    · have hne : (f c l).connection.key ≠ key := fun hkey => heq (hfirst.key.symm.trans hkey)
      rw [attemptIn?_cons_of_ne heq, attemptIn?_cons_of_ne hne,
        Effect.foldlM_pends_of_others fun effect hmem hconcerns =>
          heq (hfirst.own effect hmem key hconcerns).symm]
      exact ih hkeys.2 (f c l).ledger

/-- **A connection that is removed gives up the attempt that it is making.** -/
theorem tracked_filter (removes : Connection → Bool) (hkeys : (cs.map (·.key)).Nodup)
    (key : ConnectionKey) :
    ((cs.filter removes).flatMap (·.leave)).foldlM (Effect.pends key) (attemptIn? cs key)
      = some (attemptIn? (cs.filter (!removes ·)) key) := by
  have hleave : ∀ c : Connection, c.Tracks c.leave { c with phase := .disconnected 0 } :=
    fun c => tracks_leave rfl rfl
  induction cs with
  | nil => rfl
  | cons c rest ih =>
    rw [List.map_cons, List.nodup_cons] at hkeys
    have hrest := ih hkeys.2
    by_cases heq : c.key = key
    · -- no other connection has the key
      subst heq
      have hothers : ∀ effect ∈ (rest.filter removes).flatMap (·.leave),
          effect.concerns? ≠ some c.key := by
        intro effect hmem hconcerns
        obtain ⟨d, hd, heffect⟩ := List.mem_flatMap.mp hmem
        exact hkeys.1 (List.mem_map.mpr
          ⟨d, (List.mem_filter.mp hd).1, ((hleave d).own effect heffect _ hconcerns).symm⟩)
      rw [attemptIn?_cons_of_eq rfl]
      cases hremoves : removes c with
      | true =>
        have hgone : c.key ∉ (rest.filter (!removes ·)).map (·.key) := fun hmem =>
          hkeys.1 ((List.filter_sublist.map _).subset hmem)
        rw [List.filter_cons_of_pos hremoves, List.filter_cons_of_neg (by simp [hremoves]),
          attemptIn?_of_notMem hgone, List.flatMap_cons, List.foldlM_append, (hleave c).pending]
        exact Effect.foldlM_pends_of_others hothers _
      | false =>
        rw [List.filter_cons_of_neg (by simp [hremoves]),
          List.filter_cons_of_pos (by simp [hremoves]), attemptIn?_cons_of_eq rfl]
        exact Effect.foldlM_pends_of_others hothers _
    · rw [attemptIn?_cons_of_ne heq]
      cases hremoves : removes c with
      | true =>
        rw [List.filter_cons_of_pos hremoves, List.filter_cons_of_neg (by simp [hremoves]),
          List.flatMap_cons, List.foldlM_append, Effect.foldlM_pends_of_others
            fun effect hmem hconcerns => heq ((hleave c).own effect hmem key hconcerns).symm]
        exact hrest
      | false =>
        rw [List.filter_cons_of_neg (by simp [hremoves]),
          List.filter_cons_of_pos (by simp [hremoves]), attemptIn?_cons_of_ne heq]
        exact hrest

theorem concerns?_dropNotice {first : Notice} {effect : Effect} (hmem : effect ∈ dropNotice first) :
    effect.concerns? = none := by
  unfold dropNotice at hmem
  split at hmem
  · rw [List.mem_singleton.mp hmem]
    rfl
  · exact absurd hmem List.not_mem_nil

/-- A notice is attended to or dropped. -/
theorem tracked_notice (p : Pool) (first : Notice) :
    Tracked (p.notice first).2 p (p.notice first).1 := by
  have hdropped : Tracked (dropNotice first) p p :=
    tracked_of_map_eq rfl fun _ hmem => concerns?_dropNotice hmem
  unfold Pool.notice
  cases hfind : p.connection? first.key with
  | none => exact hdropped
  | some c =>
    dsimp only
    split
    · have hattended := attended p c first
      generalize p.attend c first = stepped at *
      generalize c.paysForNotice p.config p.ledger first = paying at *
      cases hattended with
      | attached hphase => exact tracked_settle hfind _ (tracks_attach hphase _ _)
      | attemptFailed _ => exact tracked_settle hfind _ (tracks_lose _ _ _ _)
      | responded => exact tracked_settle hfind _ (tracks_respond _ _ _ _)
      | linkFailed _ => exact tracked_settle hfind _ (tracks_lose _ _ _ _)
      | dropped => exact hdropped
    · exact hdropped

theorem tracked_command (env : Surroundings) (now : Time) (p : Pool) (first : Command) :
    Tracked (p.command env now first).2 p (p.command env now first).1 := by
  cases first with
  | call key call =>
    unfold command
    dsimp only
    split
    · exact tracked_of_map_eq rfl fun _ hmem => absurd hmem List.not_mem_nil
    · exact (tracked_withConnection p now key).trans (tracked_modify _ key fun _ => ⟨rfl, rfl⟩)
  | abort id =>
    have hsame : ∀ {c c' : Connection} {sent : List Effect}, c.cancel? env id = some (c', sent) →
        (c'.key, c'.attempt?) = (c.key, c.attempt?) := by
      intro c c' sent hcancel
      cases letGo hcancel with
      | waiting => rfl
      | inFlight hphase _ _ => rw [attempt?_of_connected hphase]; rfl
    refine tracked_of_map_eq (map_cancelIn (fun c => (c.key, c.attempt?)) hsame _) ?_
    intro effect hmem
    rcases cancelIn_cases env id p.connections with hnobody | ⟨_, c, _, c', sent, -, hcancel, heq⟩
    · replace hmem : effect ∈ (cancelIn env id p.connections).2 := hmem
      rw [hnobody] at hmem
      exact absurd hmem List.not_mem_nil
    · replace hmem : effect ∈ (cancelIn env id p.connections).2 := hmem
      rw [heq] at hmem
      cases letGo hcancel with
      | waiting => exact absurd hmem List.not_mem_nil
      | inFlight _ _ _ =>
        rw [List.mem_singleton.mp hmem]
        rfl
  | acquire key =>
    exact (tracked_withConnection p now key).trans (tracked_modify _ key fun _ => ⟨rfl, rfl⟩)
  | release key => exact tracked_modify p key fun _ => ⟨rfl, rfl⟩

/-- When the pool stops, every attempt is given up. -/
theorem tracked_teardown (hkeys : (p.connections.map (·.key)).Nodup) :
    Tracked p.teardown.2 p p.teardown.1 := by
  intro key
  have hall : p.connections.filter (fun _ => true) = p.connections :=
    List.filter_eq_self.mpr fun _ _ => rfl
  have hnone : p.connections.filter (fun _ => !true) = [] :=
    List.filter_eq_nil_iff.mpr fun _ _ => Bool.false_ne_true
  have hleft := tracked_filter (fun _ => true) hkeys key
  rw [hall, hnone] at hleft
  show (p.closeQueue.abandonAll.2 ++ p.notices.flatMap dropNotice).foldlM (Effect.pends key)
    (attemptIn? p.connections key) = _
  rw [effects_abandonAll, List.foldlM_append]
  dsimp only [closeQueue]
  rw [hleft]
  refine Effect.foldlM_pends_of_others (fun effect hmem hconcerns => ?_) _
  obtain ⟨notice, -, hdropped⟩ := List.mem_flatMap.mp hmem
  rw [concerns?_dropNotice hdropped] at hconcerns
  cases hconcerns

/-- Whatever is due is done, and spent connections are removed. -/
theorem tracked_advance (hkeys : (p.connections.map (·.key)).Nodup) (env : Surroundings)
    (now : Time) : Tracked (p.advance env now).2 p (p.advance env now).1 := by
  intro key
  have hmoved := tracked_moveAll (tracks_advance env p.config now) hkeys p.ledger key
  have hkeys' : ((moveAll (Connection.advance env p.config now) p.connections p.ledger).1.map
      (·.key)).Nodup := by
    rw [keys_moveAll fun c l => (tracks_advance env p.config now c l).key]
    exact hkeys
  have hleft := tracked_filter (·.isSpent p.config now) hkeys' key
  unfold advance attempt?
  dsimp only
  rw [List.foldlM_append, hmoved]
  exact hleft

/-- **Whatever happens**, the effects tell what attempts are made. -/
theorem tracked_after (hkeys : (p.connections.map (·.key)).Nodup) (event : Event) :
    Tracked (p.after event).2 p (p.after event).1 := by
  cases event with
  | issue _ | settle _ _ | report _ | stop =>
    exact tracked_of_map_eq rfl fun _ hmem => absurd hmem List.not_mem_nil
  | send command =>
    refine tracked_of_map_eq ?_ fun _ hmem => absurd hmem List.not_mem_nil
    show (p.send command).1.connections.map _ = _
    unfold send
    split <;> rfl
  | advance env now => exact tracked_advance hkeys env now
  | look env now subject =>
    cases subject with
    | stop => exact tracked_teardown hkeys
    | command first => exact tracked_command env now { p with commands := p.commands.tail } first
    | notice first => exact tracked_notice { p with notices := p.notices.tail } first
    | directory directory =>
      exact tracked_moveAll (tracks_reconsider env p.config now) hkeys p.ledger
    | timer => exact tracked_of_map_eq rfl fun _ hmem => absurd hmem List.not_mem_nil

/-! ## §4. A run. -/

/-- **At most one attempt is pending for a key**, and it is the one that the connection for the key
is making. -/
theorem Run.tracked (run : Run config history p) (key : ConnectionKey) :
    (effectsOf history).foldlM (Effect.pends key) none = some (p.attempt? key) := by
  induction run with
  | start h =>
    rw [eq_of_new h]
    rfl
  | @next history p run event hadmits ih =>
    rw [effectsOf_concat, List.foldlM_append, ih]
    exact tracked_after run.accounts.tidy.keys event key

end Pool

end RemoteCall
