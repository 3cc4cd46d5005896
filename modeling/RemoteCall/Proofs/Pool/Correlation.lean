/-
  RemoteCall.Proofs.Pool.Correlation
  ──────────────────────────────────
  **RESPONSES AND THEIR CALLS.**

  The numbers of a link start with zero, and a response names only a number.
  For as long as a link is handed fewer than 2^64 call frames, a number belongs
  to one call, or to none:

      handed over  →  in flight  →  answered, cancelled or timed out
                   ↘  discarded  →  crossed off

  A call that has left flight never comes back under the same number, so a
  response that comes late, twice or to a duplicate finds no call, and no
  response finds a call whose frame was not handed over under its number.

  Main statements:
    • `Numbered.taken_flush`  — what becomes of a frame that the writer takes,
    • `Run.link_since`        — a link from one moment to another,
    • `responses_act_on_their_own_calls`      — the whole,
    • `rejection_fails_the_others_in_flight`  — a response that fails a link.
-/
import RemoteCall.Proofs.Pool.Acting
import RemoteCall.Proofs.Pool.OnePlace

namespace RemoteCall

/-! ## §1. Frames that a writer takes. -/

namespace Live

variable {env : Surroundings} {config : PoolConfig} {interface : UInt32} {ledger : Ledger}
  {live : Live} {call : PendingCall} {n : SequenceNumber}

/-- A frame that the writer takes tells its number and its call. -/
theorem eq_of_handOver {other : PendingCall} {m : SequenceNumber}
    (h : Effect.send live.link call (.call interface n call.request) true
      = live.handOver env other (.call interface m other.request)) :
    n = m ∧ call = other ∧ env.takes live.link (.call interface m other.request) = true := by
  obtain ⟨-, hcall, hframe, htaken⟩ := Effect.send.inj h
  exact ⟨congrArg RequestFrame.sequence hframe, hcall, htaken.symm⟩

/-- A duplicate whose frame the writer takes is discarded. -/
theorem discarded_duplicate (env : Surroundings) (interface : UInt32) (live : Live)
    (call : PendingCall) :
    live.discarded ⊆ (live.duplicate env interface call).1.discarded
      ∧ (env.takes live.link (.call interface live.next call.request) = true →
        live.next ∈ (live.duplicate env interface call).1.discarded) := by
  unfold duplicate
  dsimp only
  split
  · refine ⟨fun n hn => ?_, fun _ => List.mem_cons_self⟩
    by_cases heq : n = live.next
    · rw [heq]
      exact List.mem_cons_self
    · exact List.mem_cons_of_mem _ (List.mem_filter.mpr ⟨hn, by simpa using heq⟩)
  · next hrefused => exact ⟨fun _ hn => hn, fun htakes => absurd htakes hrefused⟩

/-- The frames that are handed over when a call is sent are its own and that of a duplicate. -/
theorem Numbered.taken_transmit (h : live.Numbered) {other : PendingCall}
    (hroom : live.next.toNat
      + handedOut live.link (live.transmit env config interface other).2 < 2 ^ 64) :
    live.inFlight ⊆ (live.transmit env config interface other).1.inFlight
      ∧ live.discarded ⊆ (live.transmit env config interface other).1.discarded
      ∧ ∀ n call, Effect.send live.link call (.call interface n call.request) true
          ∈ (live.transmit env config interface other).2 →
        (n, call) ∈ (live.transmit env config interface other).1.inFlight
          ∨ n ∈ (live.transmit env config interface other).1.discarded := by
  obtain ⟨-, hflight, -⟩ := h.transmit hroom
  rw [hflight]
  refine ⟨List.subset_append_left _ _, ?_⟩
  have hown : ∀ n call, Effect.send live.link call (.call interface n call.request) true
      = live.handOver env other (.call interface live.next other.request) →
      (n, call) ∈ live.inFlight ++ [(live.next, other)] := by
    intro n call heq
    obtain ⟨rfl, rfl, -⟩ := eq_of_handOver heq
    exact List.mem_append_right _ (List.mem_singleton_self _)
  cases hdup : env.duplicates config live.link live.next with
  | true =>
    rw [transmit_twice hdup]
    obtain ⟨hkept, htwice⟩ := discarded_duplicate env interface live.advance other
    refine ⟨hkept, fun n call hmem => ?_⟩
    rcases List.mem_cons.mp hmem with hfirst | hagain
    · exact .inl (hown n call hfirst)
    · have hagain : Effect.send live.advance.link call _ true = live.advance.handOver env other _ :=
        List.mem_singleton.mp hagain
      obtain ⟨rfl, -, htakes⟩ := eq_of_handOver hagain
      exact .inr (htwice htakes)
  | false =>
    rw [transmit_once hdup]
    exact ⟨fun _ hn => hn, fun n call hmem => .inl (hown n call (List.mem_singleton.mp hmem))⟩

/-- **A frame that the writer takes** is that of a call in flight under its number, or that of a
duplicate, whose number is discarded. -/
theorem Numbered.taken_flush {waiting : List PendingCall} (h : live.Numbered)
    (hroom : live.next.toNat + handedOut live.link
      (live.flush env config interface ledger waiting).effects < 2 ^ 64) :
    live.inFlight ⊆ (live.flush env config interface ledger waiting).live.inFlight
      ∧ live.discarded ⊆ (live.flush env config interface ledger waiting).live.discarded
      ∧ ∀ n call, Effect.send live.link call (.call interface n call.request) true
          ∈ (live.flush env config interface ledger waiting).effects →
        (n, call) ∈ (live.flush env config interface ledger waiting).live.inFlight
          ∨ n ∈ (live.flush env config interface ledger waiting).live.discarded := by
  induction waiting generalizing live with
  | nil => exact ⟨fun _ hx => hx, fun _ hn => hn, fun _ _ hmem => absurd hmem List.not_mem_nil⟩
  | cons first rest ih =>
    cases hfin : ledger.isFinished first.id with
    | true =>
      rw [flush_finished hfin] at hroom ⊢
      exact ih h hroom
    | false =>
      cases htakes : env.takes live.link (.call interface live.next first.request) with
      | true =>
        rw [flush_taken hfin htakes] at hroom ⊢
        dsimp only at hroom ⊢
        rw [handedOut_append] at hroom
        have hfirst : live.next.toNat
            + handedOut live.link (live.transmit env config interface first).2 < 2 ^ 64 := by omega
        obtain ⟨hnumbered, -, hnext⟩ := h.transmit hfirst
        obtain ⟨hflight, hdiscarded, htaken⟩ := h.taken_transmit hfirst
        obtain ⟨hflight', hdiscarded', htaken'⟩ :=
          ih hnumbered (by rw [link_transmit, hnext]; omega)
        refine ⟨List.Subset.trans hflight hflight', List.Subset.trans hdiscarded hdiscarded',
          fun n call hmem => ?_⟩
        -- what the first frames leave behind stays until the end
        rcases List.mem_append.mp hmem with hnow | hlater
        · exact (htaken n call hnow).imp (fun hx => hflight' hx) fun hn => hdiscarded' hn
        · rw [link_transmit] at htaken'
          exact htaken' n call hlater
      | false =>
        rw [flush_refused hfin htakes]
        refine ⟨fun _ hx => hx, fun _ hn => hn, fun n call hmem => ?_⟩
        obtain ⟨-, -, htaken⟩ := eq_of_handOver (List.mem_singleton.mp hmem)
        rw [htakes] at htaken
        cases htaken

end Live

namespace Connection

/-- Only a connection with a link sends. -/
theorem connected_of_isCall {c : Connection} {env : Surroundings} {config : PoolConfig}
    {now : Time} {l : Ledger} {effect : Effect} (h : effect ∈ (c.advance env config now l).effects)
    (hcall : effect.isCall = true) : ∃ live, c.phase = .connected live := by
  cases hlive? : c.live? with
  | some live => exact ⟨live, phase_of_live? hlive?⟩
  | none =>
    rw [advance_eq, flush_of_live?_eq_none (moves_sought hlive? env config now l).2,
      List.append_nil] at h
    rcases List.mem_append.mp h with hexpire | hsought
    · rw [Effect.isCall_of_isQuiet (isQuiet_expire hexpire)] at hcall
      cases hcall
    · rw [isCall_sought hsought] at hcall
      cases hcall

/-- The same for all that a connection does by itself. -/
theorem taken_advance {c : Connection} {live : Live} (hlive : c.phase = .connected live)
    (h : live.Numbered) {env : Surroundings} {config : PoolConfig} {now : Time} {l : Ledger}
    (hroom : live.next.toNat + handedOut live.link (c.advance env config now l).effects < 2 ^ 64)
    {call : PendingCall} {n : SequenceNumber}
    (hmem : Effect.send live.link call (.call c.key.interface n call.request) true
      ∈ (c.advance env config now l).effects) :
    ∃ live', (c.advance env config now l).connection.phase = .connected live' ∧ live'.Numbered
      ∧ ((n, call) ∈ live'.inFlight ∨ n ∈ live'.discarded) := by
  obtain ⟨idleSince, hnoted⟩ :=
    noteDemand_eq ((c.sought env config now l).1.flush env config (c.expire env now l).ledger).1 now
  rw [advance_eq] at hroom hmem ⊢
  rw [hnoted]
  dsimp only at hroom hmem ⊢
  rw [handedOut_append] at hroom
  -- only sending hands over call frames
  have hsent : Effect.send live.link call (.call c.key.interface n call.request) true
      ∈ ((c.sought env config now l).1.flush env config (c.expire env now l).ledger).2 := by
    rcases List.mem_append.mp hmem with hbefore | hsent
    · rcases List.mem_append.mp hbefore with hexpire | hsought
      · cases Effect.isCall_of_isQuiet (isQuiet_expire hexpire)
      · cases isCall_sought hsought
    · exact hsent
  rw [sought_of_connected hlive] at hroom hsent ⊢
  cases hd : (live.forget (c.expire env now l).ledger).draining with
  | true =>
    rw [flush_of_draining rfl hd] at hsent
    exact absurd hsent List.not_mem_nil
  | false =>
    rw [flush_of_connected rfl hd] at hroom hsent ⊢
    dsimp only at hroom hsent ⊢
    have hforget := h.forget (c.expire env now l).ledger
    have hflush : (live.forget (c.expire env now l).ledger).next.toNat
        + handedOut (live.forget (c.expire env now l).ledger).link
          ((live.forget (c.expire env now l).ledger).flush env config c.key.interface
            (c.expire env now l).ledger
            ((c.expire env now l).ledger.unsettled c.waiting)).effects < 2 ^ 64 := by
      show live.next.toNat + handedOut live.link _ < 2 ^ 64
      omega
    exact ⟨_, rfl, (hforget.flush hflush).1, (hforget.taken_flush hflush).2.2 n call hsent⟩

end Connection

namespace Pool

/-! ## §2. What a connection does when all do what is due. -/

/-- How one of the connections moves when the pool does what is due: after those before it. -/
def Advances (env : Surroundings) (now : Time) (p : Pool) (c : Connection) (moved : Moved) : Prop :=
  ∃ before after, p.connections = before ++ c :: after
    ∧ moved = c.advance env p.config now
        (moveAll (Connection.advance env p.config now) before p.ledger).2.1

variable {config : PoolConfig} {history earlier since : List Moment} {p : Pool} {m : Moment}
  {key : ConnectionKey} {generation : Nat} {link : LinkId} {c c' : Connection} {live : Live}
  {env : Surroundings} {now : Time} {moved : Moved} {n : SequenceNumber} {call : PendingCall}

theorem moveAll_between (f : Connection → Ledger → Moved) (before after : List Connection)
    (c : Connection) (l : Ledger) :
    (f c (moveAll f before l).2.1).connection ∈ (moveAll f (before ++ c :: after) l).1
      ∧ (f c (moveAll f before l).2.1).effects.Sublist
          (moveAll f (before ++ c :: after) l).2.2 := by
  induction before generalizing l with
  | nil => exact ⟨List.mem_cons_self, List.sublist_append_left _ _⟩
  | cons d rest ih =>
    obtain ⟨hmem, hsub⟩ := ih (f d l).ledger
    exact ⟨List.mem_cons_of_mem _ hmem, hsub.trans (List.sublist_append_right _ _)⟩

/-- What no move changes is the same after all of them. -/
theorem map_moveAll {α : Type} (g : Connection → α) {f : Connection → Ledger → Moved}
    (hf : ∀ (c : Connection) (l : Ledger), g (f c l).connection = g c) (cs : List Connection)
    (l : Ledger) : (moveAll f cs l).1.map g = cs.map g := by
  induction cs generalizing l with
  | nil => rfl
  | cons c rest ih => exact congrArg₂ List.cons (hf c l) (ih (f c l).ledger)

theorem keys_moveAll {f : Connection → Ledger → Moved}
    (hf : ∀ (c : Connection) (l : Ledger), (f c l).connection.key = c.key) (cs : List Connection)
    (l : Ledger) : (moveAll f cs l).1.map (·.key) = cs.map (·.key) :=
  map_moveAll (·.key) hf cs l

/-- The connection is afterwards what its move has made of it, unless it is removed. -/
theorem connection?_of_advances (hkeys : (p.connections.map (·.key)).Nodup)
    (h : Advances env now p c moved) (hc' : (p.advance env now).1.connection? c.key = some c') :
    c' = moved.connection := by
  obtain ⟨before, after, hsplit, rfl⟩ := h
  have hkey : ∀ (d : Connection) (l : Ledger),
      (d.advance env p.config now l).connection.key = d.key :=
    fun d l => (Connection.moves_advance env p.config now d l).key
  obtain ⟨hmem, hown⟩ := mem_of_connection? hc'
  have hall := keys_moveAll (f := Connection.advance env p.config now) hkey p.connections p.ledger
  obtain ⟨hmoved, -⟩ := moveAll_between (Connection.advance env p.config now) before after c
    p.ledger
  rw [← hsplit] at hmoved
  exact List.inj_on_of_nodup_map (hall ▸ hkeys) (List.mem_filter.mp hmem).1 hmoved
    (hown.trans (hkey c _).symm)

/-- What the connection does is part of what the pool does. -/
theorem sublist_of_advances (h : Advances env now p c moved) :
    moved.effects.Sublist (p.advance env now).2 := by
  obtain ⟨before, after, hsplit, rfl⟩ := h
  obtain ⟨-, hsub⟩ := moveAll_between (Connection.advance env p.config now) before after c p.ledger
  rw [← hsplit] at hsub
  exact hsub.trans (List.sublist_append_left _ _)

/-! ## §3. A link from one moment to another. -/

/-- The link of the connection for a key. -/
def live? (p : Pool) (key : ConnectionKey) : Option Live :=
  (p.connection? key).bind (·.live?)

theorem live?_eq_some : p.live? key = some live ↔
    ∃ c, p.connection? key = some c ∧ c.phase = .connected live := by
  unfold live?
  rw [Option.bind_eq_some_iff]
  exact ⟨fun ⟨c, hc, hlive⟩ => ⟨c, hc, Connection.phase_of_live? hlive⟩,
    fun ⟨c, hc, hphase⟩ => ⟨c, hc, Connection.live?_of_phase hphase⟩⟩

/-- **A link from one moment to another**: if no other has taken its place, the link is the one that
was there before, and so is the attempt. -/
theorem Run.link_since (run : Run config history p) (hsplit : history = earlier ++ m :: since)
    (hsame : ∀ generation link, Effect.attach key generation link ∉ effectsOf since)
    (hc : p.connection? key = some c) (hlive : c.phase = .connected live) :
    ∃ c₀ live₀, m.after.connection? key = some c₀ ∧ c₀.phase = .connected live₀
      ∧ c.generation = c₀.generation
      ∧ live₀.Follows key.interface (effectsOf since) live := by
  refine run.follow key (fun since c =>
    (∀ generation link, Effect.attach key generation link ∉ effectsOf since) →
      ∀ live, c.phase = .connected live →
        ∃ c₀ live₀, m.after.connection? key = some c₀ ∧ c₀.phase = .connected live₀
          ∧ c.generation = c₀.generation
          ∧ live₀.Follows key.interface (effectsOf since) live) ?_ ?_ ?_ hsplit hc hsame live hlive
  · intro c hc _ live hlive
    exact ⟨c, live, hc, hlive, rfl, Live.Follows.refl _ _ _⟩
  · intro since m c c' hc hholds hbecomes hsame live' hlive'
    obtain ⟨-, rfl⟩ := mem_of_connection? hc
    rw [effectsOf_concat] at hsame ⊢
    obtain ⟨hgeneration, ⟨live, hlive, hfollows⟩ | ⟨peer, link, -, hmem⟩⟩ :=
      hbecomes.connected live' hlive'
    · obtain ⟨c₀, live₀, hc₀, hlive₀, hgeneration₀, hfollows₀⟩ := hholds
        (fun generation link hmem => hsame generation link (List.mem_append_left _ hmem)) live hlive
      exact ⟨c₀, live₀, hc₀, hlive₀, hgeneration.trans hgeneration₀, hfollows₀.trans hfollows⟩
    · exact absurd (List.mem_append_right _ hmem) (hsame _ _)
  · intro since m c' _ hnew _ live' hlive'
    obtain ⟨t, hphase⟩ := hnew.phase
    rw [hphase] at hlive'
    cases hlive'

/-- An attempt has led to a link, no other link has taken its place since, and it has been handed
fewer call frames than there are numbers. -/
structure LinkSince (key : ConnectionKey) (generation : Nat) (link : LinkId) (first : Moment)
    (since : List Moment) : Prop where
  attached : .attach key generation link ∈ first.effects
  same : ∀ generation link, Effect.attach key generation link ∉ effectsOf since
  room : handedOut link (effectsOf since) < 2 ^ 64

section Since

variable {first : Moment} {rest : List Moment}

theorem effectsOf_append (xs ys : List Moment) :
    effectsOf (xs ++ ys) = effectsOf xs ++ effectsOf ys :=
  List.flatMap_append

/-- It was so at every moment in between. -/
theorem LinkSince.of_append (h : LinkSince key generation link first (since ++ rest)) :
    LinkSince key generation link first since := by
  obtain ⟨hattached, hsame, hroom⟩ := h
  rw [effectsOf_append] at hsame hroom
  rw [handedOut_append] at hroom
  exact ⟨hattached, fun generation link hmem => hsame generation link
    (List.mem_append_left _ hmem), by omega⟩

/-- What the connection is that has the link. -/
theorem Run.link_of_attach (run : Run config history p)
    (hsplit : history = earlier ++ first :: since)
    (h : LinkSince key generation link first since)
    (hc : p.connection? key = some c) (hlive : c.phase = .connected live) :
    c.generation = generation
      ∧ ∃ peer, Live.Follows key.interface (effectsOf since) { peer, link } live := by
  obtain ⟨c₀, live₀, hc₀, hlive₀, hgeneration₀, hfollows⟩ := run.link_since hsplit h.same hc hlive
  have hattached := h.attached
  obtain ⟨old, hold, hbecomes⟩ :=
    (run.at_split hsplit).1.accounts.tidy.connection?_of_attempt hattached rfl hc₀
  rw [← (mem_of_connection? hold).2] at hattached
  obtain ⟨-, hgeneration, -, peer, hpeer⟩ := hbecomes.attached _ _ hattached
  rw [hlive₀] at hpeer
  cases hpeer
  exact ⟨hgeneration₀.trans hgeneration, peer, hfollows⟩

/-- **The numbers of a link are in order**, and each has been handed over. -/
theorem Run.numbered_of_attach (run : Run config history p)
    (hsplit : history = earlier ++ first :: since)
    (h : LinkSince key generation link first since) (hlive : p.live? key = some live) :
    live.link = link ∧ live.Numbered ∧ live.next.toNat ≤ handedOut link (effectsOf since) := by
  obtain ⟨c, hc, hphase⟩ := live?_eq_some.mp hlive
  obtain ⟨-, peer, hfollows⟩ := run.link_of_attach hsplit h hc hphase
  -- a new link begins with zero
  have hzero : (Live.next { peer, link }).toNat + handedOut link (effectsOf since)
      = handedOut link (effectsOf since) := Nat.zero_add _
  obtain ⟨hnumbered, -, hbound, -⟩ := hfollows.later (Live.numbered_new peer link)
    (by rw [hzero]; exact h.room)
  exact ⟨hfollows.link, hnumbered, Nat.le_trans hbound (Nat.le_of_eq hzero)⟩

/-- The run before and after one of the moments in between. -/
theorem Run.at_moment (run : Run config history p)
    (hsplit : history = earlier ++ first :: (since ++ m :: rest))
    (h : LinkSince key generation link first (since ++ m :: rest)) :
    (Run config (earlier ++ first :: since) m.before
        ∧ LinkSince key generation link first since)
      ∧ Run config (earlier ++ first :: (since ++ [m])) m.after
        ∧ LinkSince key generation link first (since ++ [m]) := by
  have hsplit' : history = (earlier ++ first :: since) ++ m :: rest := by
    rw [hsplit, List.append_assoc, List.cons_append]
  obtain ⟨hrun, hadmits⟩ := run.at_split hsplit'
  have hnext := hrun.next m.event hadmits
  rw [List.append_assoc, List.cons_append] at hnext
  refine ⟨⟨hrun, h.of_append⟩, hnext, ?_⟩
  rw [List.append_cons] at h
  exact h.of_append

/-! ## §4. Numbers and calls. -/

/-- **The call that a response finds was sent under its number**, on this link. -/
theorem Run.sent_of_callFor? (run : Run config history p)
    (hsplit : history = earlier ++ first :: since)
    (h : LinkSince key generation link first since) {number : Nat}
    (hcall : p.callFor? key number n = some call) :
    number = generation
      ∧ .send link call (.call key.interface n call.request) true ∈ effectsOf since := by
  obtain ⟨c, live, hc, rfl, hphase, hmem⟩ := callFor?_eq_some hcall
  obtain ⟨hgeneration, peer, hfollows⟩ := run.link_of_attach hsplit h hc hphase
  exact ⟨hgeneration, (hfollows.sent _ hmem).resolve_left List.not_mem_nil⟩

/-- **A number keeps its call, or loses it for good.** -/
theorem Run.callFor?_since (run : Run config history p)
    (hsplit : history = earlier ++ first :: (since ++ m :: rest))
    (h : LinkSince key generation link first (since ++ m :: rest))
    (hn : ∀ live, m.after.live? key = some live → n.toNat < live.next.toNat) :
    p.callFor? key generation n = none
      ∨ p.callFor? key generation n = m.after.callFor? key generation n := by
  cases hcall : p.callFor? key generation n with
  | none => exact .inl rfl
  | some call =>
    obtain ⟨c, live, hc, hgeneration, hphase, hmem⟩ := callFor?_eq_some hcall
    obtain ⟨-, hafter, hsince⟩ := run.at_moment hsplit h
    have hroom := h.room
    have hsame := h.same
    rw [List.append_cons, effectsOf_append] at hroom hsame
    rw [handedOut_append] at hroom
    -- the link was there after the moment, and a call that is new on it has a new number
    have hsplit' : history = (earlier ++ first :: since) ++ m :: rest := by
      rw [hsplit, List.append_assoc, List.cons_append]
    obtain ⟨c₀, live₀, hc₀, hphase₀, hgeneration₀, hfollows⟩ := run.link_since hsplit'
      (fun generation link hmem => hsame generation link (List.mem_append_right _ hmem)) hc hphase
    have hlive₀ := live?_eq_some.mpr ⟨c₀, hc₀, hphase₀⟩
    obtain ⟨hlink, hnumbered, hbound⟩ := hafter.numbered_of_attach rfl hsince hlive₀
    have hlater := hfollows.later hnumbered (by rw [hlink]; omega)
    have hold : (n, call) ∈ live₀.inFlight := by
      refine (hlater.fresh _ hmem).resolve_right fun hnew => ?_
      exact absurd (hn live₀ hlive₀) (Nat.not_lt.mpr hnew)
    refine .inr ?_
    rw [callFor?_of_connection? hc₀ (hgeneration₀.symm.trans hgeneration),
      Connection.callFor?_of_mem hphase₀ hnumbered hold]

/-- **A number acts once.** -/
theorem callFor?_after {effects : List Effect} (h : Tidy effects p) {frame : ResponseFrame}
    (hcall : p.callFor? key generation frame.sequence = some call) :
    (p.notice (.response key generation frame)).1.callFor? key generation frame.sequence = none
      ∧ ∀ live', (p.notice (.response key generation frame)).1.live? key = some live' →
        ∃ live, p.live? key = some live ∧ live'.next = live.next := by
  have hreacts := reacts h key generation frame
  generalize p.notice (.response key generation frame) = stepped at *
  cases hreacts with
  | ignored hnone | crossedOff hnone =>
    rw [hnone] at hcall
    cases hcall
  | @answered c live call q hc hgeneration hfinds hanswers =>
    obtain ⟨-, rfl⟩ := mem_of_connection? hc
    obtain ⟨draining, back, retries, hown, -⟩ := hanswers.own
    constructor
    · rw [callFor?_of_connection? hown hgeneration]
      exact Connection.callFor?_of_takeOut rfl
    · intro live' hlive'
      obtain ⟨c', hc', hphase'⟩ := live?_eq_some.mp hlive'
      rw [hown] at hc'
      cases hc'
      cases hphase'
      exact ⟨live, live?_eq_some.mpr ⟨c, hc, hfinds.phase⟩, rfl⟩
  | @rejected c live call q e hc hgeneration hfinds hresult he hrejects =>
    obtain ⟨-, rfl⟩ := mem_of_connection? hc
    have hown := hrejects.own
    constructor
    · rw [callFor?_of_connection? hown hgeneration]
      rfl
    · intro live' hlive'
      obtain ⟨c', hc', hphase'⟩ := live?_eq_some.mp hlive'
      rw [hown] at hc'
      cases hc'
      cases hphase'

/-- A number that has acted does not act again. -/
theorem Run.callFor?_once (run : Run config history p)
    (hsplit : history = earlier ++ first :: (since ++ m :: rest))
    (h : LinkSince key generation link first (since ++ m :: rest)) {frame : ResponseFrame}
    (hevent : m.event = .look env now (.notice (.response key generation frame)))
    (hcall : m.before.callFor? key generation frame.sequence = some call) :
    p.callFor? key generation frame.sequence = none := by
  obtain ⟨⟨hbefore, hsince⟩, -⟩ := run.at_moment hsplit h
  have htidy := hbefore.accounts.tidy
  have hafter : m.after = (({ m.before with notices := m.before.notices.tail } : Pool).notice
      (.response key generation frame)).1 := by
    unfold Moment.after
    rw [hevent]
    rfl
  obtain ⟨hnone, hnext⟩ := callFor?_after
    (p := { m.before with notices := m.before.notices.tail })
    ⟨htidy.keys, htidy.known, htidy.numbered⟩ hcall
  rw [← hafter] at hnone hnext
  refine (run.callFor?_since hsplit h ?_).elim id fun hsame => hsame.trans hnone
  -- the number is below the next one, since the call was in flight
  intro live' hlive'
  obtain ⟨live, hlive, heq⟩ := hnext live' hlive'
  obtain ⟨c, live₀, hc, -, hphase, hmem⟩ := callFor?_eq_some hcall
  have hlive₀ := live?_eq_some.mpr ⟨c, hc, hphase⟩
  cases hlive₀.symm.trans hlive
  obtain ⟨-, hnumbered, -⟩ := hbefore.numbered_of_attach rfl hsince hlive₀
  rw [heq]
  exact hnumbered.below _ hmem

/-- What has become of a frame of a call when the connection has done what is due: the call is in
flight under its number, or the frame is that of a duplicate. -/
theorem Run.after_taken (run : Run config history p)
    (hsplit : history = earlier ++ first :: (since ++ m :: rest))
    (h : LinkSince key generation link first (since ++ m :: rest))
    (hevent : m.event = .advance env now) (hc : m.before.connection? key = some c)
    (hadvances : Advances env now m.before c moved)
    (htaken : Effect.send link call (.call key.interface n call.request) true ∈ moved.effects) :
    (∀ live, m.after.live? key = some live → n.toNat < live.next.toNat)
      ∧ (m.after.callFor? key generation n = some call
        ∨ m.after.callFor? key generation n = none
          ∧ ∀ live, m.after.live? key = some live → n ∈ live.discarded) := by
  obtain ⟨⟨hbefore, hsince⟩, hafter, hsince'⟩ := run.at_moment hsplit h
  obtain ⟨-, rfl⟩ := mem_of_connection? hc
  have hkeys := hbefore.accounts.tidy.keys
  have hmoved := sublist_of_advances hadvances
  have hroom := hsince'.room
  have heffects : m.effects = (m.before.advance env now).2 := by
    unfold Moment.effects
    rw [hevent]
    rfl
  rw [effectsOf_concat, handedOut_append, heffects] at hroom
  have hmore := handedOut_le_of_sublist hmoved link
  -- the frame was sent on the link that the connection had before
  have hmove := hadvances
  obtain ⟨_, _, -, rfl⟩ := hmove
  obtain ⟨live, hphase⟩ := Connection.connected_of_isCall htaken rfl
  obtain ⟨rfl, hnumbered, hbound⟩ :=
    hbefore.numbered_of_attach rfl hsince (live?_eq_some.mpr ⟨c, hc, hphase⟩)
  obtain ⟨live', hphase', hnumbered', hframe⟩ :=
    Connection.taken_advance hphase hnumbered (by omega) htaken
  cases hc' : m.after.connection? c.key with
  | none =>
    -- the connection is removed
    refine ⟨fun other hother => ?_, .inr ⟨?_, fun other hother => ?_⟩⟩
    · rw [live?, hc'] at hother
      cases hother
    · rw [callFor?, hc', Option.bind_none]
    · rw [live?, hc'] at hother
      cases hother
  | some c' =>
    have heq := connection?_of_advances hkeys hadvances (by
      rw [← hc', Moment.after, hevent]
      rfl)
    subst heq
    obtain ⟨hgeneration, -⟩ := hafter.link_of_attach rfl hsince' hc' hphase'
    rw [callFor?_of_connection? hc' hgeneration, live?, hc', Option.bind_some,
      Connection.live?_of_phase hphase']
    have hbelow : n.toNat < live'.next.toNat := hframe.elim
      (fun hflight => hnumbered'.below _ hflight) (hnumbered'.discardedBelow n)
    refine ⟨fun other hother => Option.some.inj hother ▸ hbelow, hframe.imp ?_ ?_⟩
    · exact Connection.callFor?_of_mem hphase' hnumbered'
    · exact fun hdiscarded => ⟨Connection.callFor?_of_discarded hphase' hdiscarded,
        fun other hother => Option.some.inj hother ▸ hdiscarded⟩

/-- **Responses to the frames of a call** find that call or none, and responses to a duplicate find
none. -/
theorem Run.callFor?_of_taken (run : Run config history p)
    (hsplit : history = earlier ++ first :: (since ++ m :: rest))
    (h : LinkSince key generation link first (since ++ m :: rest))
    (hevent : m.event = .advance env now) (hc : m.before.connection? key = some c)
    (hadvances : Advances env now m.before c moved)
    (htaken : Effect.send link call (.call key.interface n call.request) true ∈ moved.effects) :
    (m.after.callFor? key generation n = some call
        ∧ (p.callFor? key generation n = none ∨ p.callFor? key generation n = some call))
      ∨ (∀ live, m.after.live? key = some live → n ∈ live.discarded)
        ∧ p.callFor? key generation n = none := by
  obtain ⟨hn, hafter⟩ := run.after_taken hsplit h hevent hc hadvances htaken
  have hlater := run.callFor?_since hsplit h hn
  rcases hafter with hown | ⟨hnone, hdiscarded⟩
  · rw [hown] at hlater
    exact .inl ⟨hown, hlater⟩
  · exact .inr ⟨hdiscarded, hlater.elim id fun hsame => hsame.trans hnone⟩

end Since

/-! ## §5. Links of the same connection. -/

/-- What has become of a link that an attempt has led to: as long as the connection has the number
of the attempt, no other link has taken its place. -/
structure LinkOf (key : ConnectionKey) (generation : Nat) (since : List Moment) (c : Connection) :
    Prop where
  le : generation ≤ c.generation
  ended : c.generation = generation → ∀ candidates, c.phase ≠ .connecting candidates
  same : c.generation = generation →
    ∀ number link, Effect.attach key number link ∉ effectsOf since

/-- One step further. -/
theorem LinkOf.next (hkey : c.key = key) (h : LinkOf key generation since c)
    (hbecomes : c.Becomes m.effects c') : LinkOf key generation (since ++ [m]) c' := by
  subst hkey
  have hle := h.le
  have hback : c'.generation = generation → c.generation = generation := by
    intro heq
    rcases hbecomes.generation with hsame | hnext <;> omega
  refine ⟨?_, ?_, ?_⟩
  · rcases hbecomes.generation with hsame | hnext <;> omega
  · intro heq candidates hphase
    exact h.ended (hback heq) candidates
      (hbecomes.connecting candidates hphase (heq.trans (hback heq).symm))
  · intro heq number link hmem
    rw [effectsOf_concat] at hmem
    rcases List.mem_append.mp hmem with hold | hnew
    · exact h.same (hback heq) number link hold
    · -- a link is reached only by an attempt that goes on
      obtain ⟨-, -, ⟨candidates, hphase⟩, -⟩ := hbecomes.attached number link hnew
      exact h.ended (hback heq) candidates hphase

/-- **Each link of a connection has a number of its own**, for as long as the connection is
there. -/
theorem Run.linkOf (run : Run config history p) (hsplit : history = earlier ++ m :: since)
    (hattach : .attach key generation link ∈ m.effects)
    (hkept : ∀ m ∈ since, (m.before.connection? key).isSome = true)
    (hc : p.connection? key = some c) : LinkOf key generation since c := by
  have hbegin := (run.at_split hsplit).1
  refine run.follow_kept key (LinkOf key generation) ?_ LinkOf.next hsplit hkept hc
  intro c' hc'
  obtain ⟨c, hc, hbecomes⟩ := hbegin.accounts.tidy.connection?_of_attempt hattach rfl hc'
  rw [← (mem_of_connection? hc).2] at hattach
  obtain ⟨-, hgeneration, -, peer, hphase⟩ := hbecomes.attached _ _ hattach
  refine ⟨Nat.le_of_eq hgeneration.symm, fun _ candidates hconnecting => ?_,
    fun _ _ _ => List.not_mem_nil⟩
  rw [hphase] at hconnecting
  cases hconnecting

/-- A response of an earlier link finds no call. -/
theorem Run.callFor?_of_replaced (run : Run config history p) {first : Moment}
    {middle : List Moment} (hsplit : history = earlier ++ m :: (middle ++ first :: since))
    (hattach : .attach key generation link ∈ m.effects)
    (hkept : ∀ m ∈ middle ++ first :: since, (m.before.connection? key).isSome = true)
    {number : Nat} {link' : LinkId} (hagain : .attach key number link' ∈ first.effects)
    (n : SequenceNumber) : p.callFor? key generation n = none := by
  cases hcall : p.callFor? key generation n with
  | none => rfl
  | some call =>
    obtain ⟨c, live, hc, hgeneration, -, -⟩ := callFor?_eq_some hcall
    have hsame := (run.linkOf hsplit hattach hkept hc).same hgeneration number link'
    rw [effectsOf_append] at hsame
    exact absurd (List.mem_append_right _ (List.mem_append_left _ hagain)) hsame

/-! ## §6. Runs. -/

/-- Responses find the calls that were sent under their numbers, on their own link. -/
structure Correlated (key : ConnectionKey) (generation : Nat) (link : LinkId)
    (earlier : List Moment) (first : Moment) (since : List Moment) (p : Pool) : Prop where
  /-- The numbers in flight are distinct, below the next one, and none is discarded. -/
  numbers : ∀ live, p.live? key = some live → live.link = link ∧ live.Numbered
  /-- A response acts on the call that it finds, or changes nothing but the numbers discarded. -/
  responses : ∀ env now number frame,
    Reacts key number frame { p with notices := p.notices.tail }
      (p.after (.look env now (.notice (.response key number frame))))
  /-- The call that it finds was sent on this link under its number. -/
  sent : ∀ number n call, p.callFor? key number n = some call →
    number = generation
      ∧ .send link call (.call key.interface n call.request) true ∈ effectsOf since
  /-- A number that was handed out keeps its call, or has lost it for good. -/
  lasting : ∀ middle m rest, since = middle ++ m :: rest → ∀ n : SequenceNumber,
    (∀ live, m.after.live? key = some live → n.toNat < live.next.toNat) →
      p.callFor? key generation n = none
        ∨ p.callFor? key generation n = m.after.callFor? key generation n
  /-- A number acts once. -/
  once : ∀ middle m rest, since = middle ++ m :: rest → ∀ env now frame call,
    m.event = .look env now (.notice (.response key generation frame)) →
      m.before.callFor? key generation frame.sequence = some call →
        p.callFor? key generation frame.sequence = none
  /-- A response to a frame of a call finds that call, or none; a response to a duplicate finds
  none. -/
  frames : ∀ middle m rest, since = middle ++ m :: rest → ∀ env now c moved n call,
    m.event = .advance env now → m.before.connection? key = some c →
      Advances env now m.before c moved →
        Effect.send link call (.call key.interface n call.request) true ∈ moved.effects →
          (m.after.callFor? key generation n = some call
              ∧ (p.callFor? key generation n = none ∨ p.callFor? key generation n = some call))
            ∨ (∀ live, m.after.live? key = some live → n ∈ live.discarded)
              ∧ p.callFor? key generation n = none
  /-- A response of an earlier link of the connection finds no call. -/
  replaced : ∀ before m middle, earlier = before ++ m :: middle → ∀ number link',
    Effect.attach key number link' ∈ m.effects →
      (∀ m ∈ middle ++ first :: since, (m.before.connection? key).isSome = true) →
        ∀ n, p.callFor? key number n = none

/-- **Responses act on their own calls**, whatever responses arrive, and whichever calls are sent
twice. -/
theorem responses_act_on_their_own_calls (run : Run config history p) {first : Moment}
    (hsplit : history = earlier ++ first :: since)
    (h : LinkSince key generation link first since) :
    Correlated key generation link earlier first since p where
  numbers live hlive := by
    obtain ⟨hlink, hnumbered, -⟩ := run.numbered_of_attach hsplit h hlive
    exact ⟨hlink, hnumbered⟩
  responses env now number frame := by
    have htidy := run.accounts.tidy
    exact reacts (p := { p with notices := p.notices.tail })
      ⟨htidy.keys, htidy.known, htidy.numbered⟩ key number frame
  sent number n call hcall := run.sent_of_callFor? hsplit h hcall
  lasting middle m rest hsince n hn := by
    subst hsince
    exact run.callFor?_since hsplit h hn
  once middle m rest hsince env now frame call hevent hcall := by
    subst hsince
    exact run.callFor?_once hsplit h hevent hcall
  frames middle m rest hsince env now c moved n call hevent hc hadvances htaken := by
    subst hsince
    exact run.callFor?_of_taken hsplit h hevent hc hadvances htaken
  replaced before m middle hearlier number link' hattach hkept n := by
    subst hearlier
    rw [List.append_assoc, List.cons_append] at hsplit
    exact run.callFor?_of_replaced hsplit hattach hkept h.attached n

section TwoCalls

/-- A call is sent on a link, and a response under its number finds it. -/
theorem responses_act_on_their_own_calls_when_one_is_sent :
    ∃ (earlier since : List Moment) (first : Moment) (p : Pool),
      Run {} (earlier ++ first :: since) p ∧ LinkSince oneAgent 1 9 first since
        ∧ p.callFor? oneAgent 1 0 = some oneCall
        ∧ Correlated oneAgent 1 9 earlier first since p := by
  have start : Run {} [] { config := {}, subscription := ⟨0⟩ } :=
    Run.start (show Pool.new {} {} = _ from rfl)
  have asked := (start.next (.issue .unit) trivial).next (.send (.call oneAgent oneCall))
    ⟨by decide, by decide, rfl⟩
  have sought := (asked.next (.look oneAddress 0 (.command (.call oneAgent oneCall)))
    ⟨rfl, rfl⟩).next (.advance oneAddress 0) trivial
  have attached := (sought.next (.report (.connected oneAgent 1 (.unix ⟨"/a"⟩) 9)) trivial).next
    (.look oneAddress 0 (.notice (.connected oneAgent 1 (.unix ⟨"/a"⟩) 9))) ⟨rfl, rfl⟩
  have sent := attached.next (.advance oneAddress 0) trivial
  obtain ⟨earlier, since, first, p, run, hsince, hcall⟩ :
      ∃ (earlier since : List Moment) (first : Moment) (p : Pool),
        Run {} (earlier ++ first :: since) p ∧ LinkSince oneAgent 1 9 first since
          ∧ p.callFor? oneAgent 1 0 = some oneCall := by
    refine ⟨[_, _, _, _, _], [_], _, _, sent, ⟨List.mem_singleton_self _, ?_, by decide⟩, rfl⟩
    intro generation link hmem
    cases List.mem_singleton.mp hmem
  exact ⟨earlier, since, first, p, run, hsince, hcall,
    responses_act_on_their_own_calls run rfl hsince⟩

/-- A second call to the agent. -/
def otherCall : PendingCall := ⟨2, [8], none, false, 0⟩

/-- The agent refuses the version that the first call speaks. -/
def oneRejection : ResponseFrame := ⟨11, 0, .error, [0, 22]⟩

/-- **A response that fails a link** acts on more than its own call.  Two calls are in flight, and
the agent rejects the version in its response to the first: the second fails as well. -/
theorem rejection_fails_the_others_in_flight :
    ∃ (history : List Moment) (p : Pool), Run {} history p
      ∧ p.Admits history (.look oneAddress 0 (.notice (.response oneAgent 1 oneRejection)))
      ∧ p.callFor? oneAgent 1 oneRejection.sequence = some oneCall
      ∧ p.callFor? oneAgent 1 1 = some otherCall
      ∧ p.ledger.isFinished otherCall.id = false
      ∧ (p.after (.look oneAddress 0
          (.notice (.response oneAgent 1 oneRejection)))).1.ledger.isFinished otherCall.id
            = true := by
  have start : Run {} [] { config := {}, subscription := ⟨0⟩ } :=
    Run.start (show Pool.new {} {} = _ from rfl)
  have issued := (start.next (.issue .unit) trivial).next (.issue .unit) trivial
  have asked := (issued.next (.send (.call oneAgent oneCall)) ⟨by decide, by decide, rfl⟩).next
    (.send (.call oneAgent otherCall)) ⟨by decide, by decide, rfl⟩
  have sought := ((asked.next (.look oneAddress 0 (.command (.call oneAgent oneCall)))
    ⟨rfl, rfl⟩).next (.look oneAddress 0 (.command (.call oneAgent otherCall)))
      ⟨rfl, rfl⟩).next (.advance oneAddress 0) trivial
  have attached := (sought.next (.report (.connected oneAgent 1 (.unix ⟨"/a"⟩) 9)) trivial).next
    (.look oneAddress 0 (.notice (.connected oneAgent 1 (.unix ⟨"/a"⟩) 9))) ⟨rfl, rfl⟩
  have sent := attached.next (.advance oneAddress 0) trivial
  have rejected := sent.next (.report (.response oneAgent 1 oneRejection)) trivial
  have htidy := rejected.accounts.tidy
  refine ⟨_, _, rejected, ⟨rfl, rfl⟩, rfl, rfl, rfl, ?_⟩
  refine (reacts ⟨htidy.keys, htidy.known, htidy.numbered⟩ oneAgent 1
    oneRejection).isFinished_of_closed ?_ (n := 1) rfl rfl
  exact List.cons_ne_nil (Effect.close 9) []

end TwoCalls

end Pool

end RemoteCall
