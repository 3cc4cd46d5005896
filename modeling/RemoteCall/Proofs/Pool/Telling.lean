/-
  RemoteCall.Proofs.Pool.Telling
  ──────────────────────────────
  **WHAT A LINK IS TOLD.**

  A link is told of calls, of duplicates, and of calls that are given up, by
  frames under their numbers.  A cancel frame is for the call that was sent last
  under its number, and that was not cancelled in the meantime (`Justified`).

  A stream is known by its number, so this is said of runs in which no stream is
  attached twice.  Numbers come back when a link has been handed 2^64 call
  frames; up to then, they are in order, and each is used once.

  Main statements:
    • `Justified.nodup`  — no number is cancelled twice,
    • `Connection.justified_advance`, `Connection.counts_advance` — what is due,
    • `Tidy.link_cases`  — what may become of a link,
    • `Run.told`         — the frames of a link, through a run.
-/
import Mathlib.Data.List.Induction
import RemoteCall.Proofs.Pool.Handing

namespace RemoteCall

/-! ## §1. Frames that cancel frames. -/

/-- The call was sent under the number, the writer has taken its frame, and nothing has been
cancelled under the number since. -/
def Uncanceled (frames : List Handed) (n : SequenceNumber) (call : PendingCall) : Prop :=
  ∃ before after, frames = before ++ .original n call true :: after ∧ n ∉ canceledIn after

/-- Each cancel frame is for the call that was sent last under its number, and that was not
cancelled in the meantime. -/
def Justified (frames : List Handed) : Prop :=
  ∀ before after n call taken, frames = before ++ .cancel n call taken :: after →
    Uncanceled before n call

variable {frames more : List Handed} {n : SequenceNumber} {call : PendingCall} {taken : Bool}

/-- Other frames may follow. -/
theorem Uncanceled.append (h : Uncanceled frames n call) (hmore : n ∉ canceledIn more) :
    Uncanceled (frames ++ more) n call := by
  obtain ⟨before, after, rfl, hafter⟩ := h
  refine ⟨before, after ++ more, by rw [List.append_assoc, List.cons_append], ?_⟩
  rw [canceledIn_append, List.mem_append]
  exact fun hmem => hmem.elim hafter hmore

/-- A call has just been sent. -/
theorem uncanceled_of_mem (frames : List Handed) (hmem : .original n call true ∈ more)
    (hnone : n ∉ canceledIn more) : Uncanceled (frames ++ more) n call := by
  obtain ⟨before, after, rfl⟩ := List.append_of_mem hmem
  refine ⟨frames ++ before, after, (List.append_assoc _ _ _).symm, fun hafter => hnone ?_⟩
  rw [canceledIn_append]
  exact List.mem_append_right _ hafter

theorem Uncanceled.number (h : Uncanceled frames n call) : n.toNat ∈ numbersOf frames := by
  obtain ⟨before, after, rfl, -⟩ := h
  rw [numbersOf_append]
  exact List.mem_append_right _ List.mem_cons_self

theorem justified_nil : Justified [] :=
  fun _ _ _ _ _ h => absurd h.symm (by simp)

/-- **More frames are handed over.** -/
theorem Justified.append (h : Justified frames)
    (hmore : ∀ before after n call taken, more = before ++ .cancel n call taken :: after →
      Uncanceled (frames ++ before) n call) : Justified (frames ++ more) := by
  intro before after n call taken heq
  rcases List.append_eq_append_iff.mp heq with ⟨rest, hbefore, hrest⟩ | ⟨rest, hframes, hrest⟩
  · -- the cancel frame is a new one
    rw [hbefore]
    exact hmore rest after n call taken hrest
  · cases rest with
    | nil =>
      rw [List.append_nil] at hframes
      rw [← hframes, ← List.append_nil frames]
      exact hmore [] after n call taken hrest.symm
    | cons first rest =>
      rw [List.cons_append] at hrest
      obtain ⟨rfl, -⟩ := List.cons.inj hrest
      exact h before rest n call taken hframes

/-- Frames that cancel nothing. -/
theorem Justified.append_silent (h : Justified frames) (hmore : canceledIn more = []) :
    Justified (frames ++ more) := by
  refine h.append fun before after n call taken heq => ?_
  rw [heq, canceledIn_append] at hmore
  exact absurd hmore (by simp [canceledIn, Handed.canceled?])

/-- The only frame under a number. -/
theorem notMem_numbersOf {before after : List Handed} {first : Handed} {number : Nat}
    (hdistinct : (numbersOf (before ++ first :: after)).Nodup)
    (hfirst : first.number? = some number) :
    number ∉ numbersOf before ∧ number ∉ numbersOf after := by
  have hcons : numbersOf (first :: after) = number :: numbersOf after := by
    unfold numbersOf
    rw [List.filterMap_cons_some hfirst]
  rw [numbersOf_append, hcons, List.nodup_middle, List.nodup_cons, List.mem_append,
    not_or] at hdistinct
  exact hdistinct.1

/-- **No number is cancelled twice**, if no number is used twice. -/
theorem Justified.nodup (h : Justified frames) (hdistinct : (numbersOf frames).Nodup) :
    (canceledIn frames).Nodup := by
  induction frames using List.reverseRecOn with
  | nil => exact List.nodup_nil
  | append_singleton frames last ih =>
    have hfirst : Justified frames := by
      intro before after n call taken heq
      refine h before (after ++ [last]) n call taken ?_
      rw [heq, List.append_assoc, List.cons_append]
    have hnumbers : (numbersOf frames).Nodup := by
      rw [numbersOf_append] at hdistinct
      exact (List.nodup_append.mp hdistinct).1
    have hnodup := ih hfirst hnumbers
    cases last with
    | original | duplicate =>
      rw [canceledIn_append]
      exact (List.append_nil _).symm ▸ hnodup
    | cancel n call taken =>
      rw [canceledIn_append, List.nodup_append]
      refine ⟨hnodup, List.nodup_singleton _, ?_⟩
      rintro m hm _ hlast rfl
      obtain rfl : m = n := List.mem_singleton.mp hlast
      obtain ⟨before, after, rfl, hafter⟩ := h frames [] m call taken rfl
      -- an earlier cancel frame would have had a call frame of its own
      rw [canceledIn_append] at hm
      rcases List.mem_append.mp hm with hbefore | hrest
      · obtain ⟨frame, hframe, hcanceled⟩ := List.mem_filterMap.mp hbefore
        cases frame with
        | original | duplicate => cases hcanceled
        | cancel k other took =>
          cases hcanceled
          obtain ⟨xs, ys, rfl⟩ := List.append_of_mem hframe
          have hearlier := (hfirst xs _ m other took
            (by rw [List.append_assoc, List.cons_append])).number
          refine (notMem_numbersOf hnumbers rfl).1 ?_
          rw [numbersOf_append]
          exact List.mem_append_left _ hearlier
      · exact hafter hrest

/-- **The number of a duplicate is not cancelled**, if no number is used twice. -/
theorem Justified.not_duplicate (h : Justified frames) (hdistinct : (numbersOf frames).Nodup)
    (hmem : .duplicate n call taken ∈ frames) : n ∉ canceledIn frames := by
  intro hcanceled
  obtain ⟨frame, hframe, heq⟩ := List.mem_filterMap.mp hcanceled
  cases frame with
  | original | duplicate => cases heq
  | cancel k other took =>
    cases heq
    obtain ⟨xs, ys, rfl⟩ := List.append_of_mem hframe
    obtain ⟨before, after, rfl, -⟩ := h xs ys n other took rfl
    rw [List.append_assoc, List.cons_append] at hdistinct hmem
    obtain ⟨hbefore, hafter⟩ := notMem_numbersOf hdistinct rfl
    rcases List.mem_append.mp hmem with hearlier | hlater
    · exact hbefore (List.mem_filterMap.mpr ⟨_, hearlier, rfl⟩)
    · rcases List.mem_cons.mp hlater with hsame | hlater
      · cases hsame
      · exact hafter (List.mem_filterMap.mpr ⟨_, hlater, rfl⟩)

/-! ## §2. One connection. -/

/-- A call in flight on the link has been sent, and has not been cancelled. -/
def Backs (frames : List Handed) (live : Live) : Prop :=
  ∀ x ∈ live.inFlight, Uncanceled frames x.1 x.2

/-- As long as the numbers suffice, they are in order, and as many were handed out as there are call
frames. -/
def CountsUp (frames : List Handed) (live : Live) : Prop :=
  live.Numbered ∧ numbersOf frames = List.range live.next.toNat

theorem Backs.of_sublist {live live' : Live} (h : Backs frames live)
    (hsub : live'.inFlight.Sublist live.inFlight) : Backs frames live' :=
  fun x hx => h x (hsub.subset hx)

theorem CountsUp.of_sublist {live live' : Live} (h : CountsUp frames live)
    (hflight : live'.inFlight.Sublist live.inFlight) (hnext : live'.next = live.next)
    (hdiscarded : live'.discarded.Sublist live.discarded) : CountsUp frames live' :=
  ⟨(h.1.of_discarded hdiscarded).of_sublist hflight hnext rfl, hnext ▸ h.2⟩

namespace Connection

variable {env : Surroundings} {config : PoolConfig} {now : Time} {c : Connection} {live : Live}
  {l : Ledger}

/-- What becomes of a link when what is due is done. -/
theorem phase_advance_of_connected (hphase : c.phase = .connected live) (env : Surroundings)
    (config : PoolConfig) (now : Time) (l : Ledger) :
    (c.advance env config now l).connection.phase
      = .connected (if live.draining then live.forget (c.expire env now l).ledger
          else ((live.forget (c.expire env now l).ledger).flush env config c.key.interface
            (c.expire env now l).ledger
            ((c.expire env now l).ledger.unsettled c.waiting)).live) := by
  obtain ⟨idleSince, hnoted⟩ :=
    noteDemand_eq ((c.sought env config now l).1.flush env config (c.expire env now l).ledger).1 now
  rw [advance_eq, hnoted, sought_of_connected hphase]
  cases hdraining : live.draining with
  | true =>
    rw [flush_of_draining (show _ = Phase.connected (live.forget _) from rfl) hdraining]
    rfl
  | false =>
    rw [flush_of_connected (show _ = Phase.connected (live.forget _) from rfl) hdraining]
    rfl

/-- A call in flight when what is due has been done was in flight and is open, or has been sent. -/
theorem inFlight_advance (hphase : c.phase = .connected live) {live' : Live}
    (hphase' : (c.advance env config now l).connection.phase = .connected live')
    {x : SequenceNumber × PendingCall} (hx : x ∈ live'.inFlight) :
    (c.expire env now l).ledger.isFinished x.2.id = false
      ∧ (x ∈ live.inFlight ∨ live.draining = false
        ∧ .original x.1 x.2 true ∈ (live.forget (c.expire env now l).ledger).sends env config
          c.key.interface (c.expire env now l).ledger
          ((c.expire env now l).ledger.unsettled c.waiting)) := by
  have hforget : x ∈ (live.forget (c.expire env now l).ledger).inFlight →
      (c.expire env now l).ledger.isFinished x.2.id = false ∧ x ∈ live.inFlight := by
    intro hmem
    obtain ⟨hmem, hopen⟩ := List.mem_filter.mp hmem
    exact ⟨by simpa using hopen, hmem⟩
  rw [phase_advance_of_connected hphase] at hphase'
  cases hphase'
  cases hdraining : live.draining with
  | true =>
    rw [hdraining, if_pos rfl] at hx
    exact ⟨(hforget hx).1, .inl (hforget hx).2⟩
  | false =>
    rw [hdraining, if_neg Bool.false_ne_true] at hx
    rcases Live.inFlight_flush _ _ _ _ _ _ hx with hold | ⟨hopen, hsent⟩
    · exact ⟨(hforget hold).1, .inl (hforget hold).2⟩
    · exact ⟨hopen, .inr ⟨rfl, hsent⟩⟩

/-- The numbers that are cancelled when what is due is done. -/
theorem canceledIn_handed (hphase : c.phase = .connected live) (env : Surroundings)
    (config : PoolConfig) (now : Time) (l : Ledger) :
    canceledIn (c.handed env config now live.link l)
      = (live.settled (c.expire env now l).ledger).map (·.1) := by
  rw [handed_of_connected hphase, canceledIn_append]
  have hsends : canceledIn (if live.draining then []
      else (live.forget (c.expire env now l).ledger).sends env config c.key.interface
        (c.expire env now l).ledger ((c.expire env now l).ledger.unsettled c.waiting)) = [] := by
    split
    · rfl
    · exact Live.canceledIn_sends _ _ _ _ _ _
  rw [hsends, List.append_nil, Live.canceledIn_cancels]

/-- **A call in flight is cancelled** when what is due is done, if it has an outcome by then. -/
theorem mem_handed (hphase : c.phase = .connected live) {n : SequenceNumber} {call : PendingCall} :
    (∃ taken, .cancel n call taken ∈ c.handed env config now live.link l)
      ↔ (n, call) ∈ live.inFlight ∧ (c.expire env now l).ledger.isFinished call.id = true := by
  rw [handed_of_connected hphase]
  constructor
  · rintro ⟨taken, hmem⟩
    rcases List.mem_append.mp hmem with hcancel | hsent
    · obtain ⟨x, hx, heq⟩ := List.mem_map.mp hcancel
      cases heq
      exact List.mem_filter.mp hx
    · -- sending cancels nothing
      split at hsent
      · exact absurd hsent List.not_mem_nil
      · have hcanceled := mem_canceledIn hsent
        rw [Live.canceledIn_sends] at hcanceled
        exact absurd hcanceled List.not_mem_nil
  · rintro ⟨hmem, hfin⟩
    exact ⟨_, List.mem_append_left _ (List.mem_map.mpr
      ⟨(n, call), List.mem_filter.mpr ⟨hmem, hfin⟩, rfl⟩)⟩

/-- **What is due is done**: cancel frames are for calls that were sent, and a call in flight
afterwards has not been cancelled. -/
theorem justified_advance (hphase : c.phase = .connected live) (hdistinct : live.Distinct)
    (hjustified : Justified frames) (hbacks : Backs frames live) (env : Surroundings)
    (config : PoolConfig) (now : Time) (l : Ledger) :
    Justified (frames ++ c.handed env config now live.link l)
      ∧ ∀ live', (c.advance env config now l).connection.phase = .connected live' →
        Backs (frames ++ c.handed env config now live.link l) live' := by
  have hcanceled := canceledIn_handed hphase env config now l
  have hspared : ∀ x ∈ live.inFlight, (c.expire env now l).ledger.isFinished x.2.id = false →
      x.1 ∉ (live.settled (c.expire env now l).ledger).map (·.1) := by
    intro x hx hopen hmem
    obtain ⟨y, hy, heq⟩ := List.mem_map.mp hmem
    obtain ⟨hy, hfin⟩ := List.mem_filter.mp hy
    rw [List.inj_on_of_nodup_map hdistinct hy hx heq, hopen] at hfin
    cases hfin
  constructor
  · rw [handed_of_connected hphase, ← List.append_assoc]
    refine Justified.append_silent (hjustified.append ?_) ?_
    · -- the numbers in flight are distinct, so each is cancelled once
      intro before after n call taken heq
      obtain ⟨xs, ys, hsplit, rfl, hys⟩ := List.map_eq_append_iff.mp heq
      obtain ⟨x, zs, rfl, hx, -⟩ := List.map_eq_cons_iff.mp hys
      cases hx
      have hmem : x ∈ live.settled (c.expire env now l).ledger := by
        rw [hsplit]
        exact List.mem_append_right _ List.mem_cons_self
      refine (hbacks x (List.mem_filter.mp hmem).1).append fun hearlier => ?_
      have hnodup : ((live.settled (c.expire env now l).ledger).map (·.1)).Nodup :=
        List.Nodup.sublist (List.filter_sublist.map _) hdistinct
      rw [hsplit, List.map_append, List.map_cons, List.nodup_append] at hnodup
      refine hnodup.2.2 x.1 ?_ x.1 List.mem_cons_self rfl
      obtain ⟨frame, hframe, hnumber⟩ := List.mem_filterMap.mp hearlier
      obtain ⟨y, hy, rfl⟩ := List.mem_map.mp hframe
      rw [← show y.1 = x.1 from Option.some.inj hnumber]
      exact List.mem_map_of_mem hy
    · split
      · rfl
      · exact Live.canceledIn_sends _ _ _ _ _ _
  · intro live' hphase' x hx
    obtain ⟨hopen, hold | ⟨hdraining, hsent⟩⟩ := inFlight_advance hphase hphase' hx
    · refine (hbacks x hold).append ?_
      rw [hcanceled]
      exact hspared x hold hopen
    · rw [handed_of_connected hphase, hdraining, if_neg Bool.false_ne_true, ← List.append_assoc]
      refine uncanceled_of_mem _ hsent ?_
      rw [Live.canceledIn_sends]
      exact List.not_mem_nil

/-- **The numbers go on**, as long as they suffice, and no call in flight gives way to another. -/
theorem counts_advance (hphase : c.phase = .connected live) (hcounts : CountsUp frames live)
    (hroom : (numbersOf (frames ++ c.handed env config now live.link l)).length < 2 ^ 64)
    {live' : Live} (hphase' : (c.advance env config now l).connection.phase = .connected live') :
    CountsUp (frames ++ c.handed env config now live.link l) live'
      ∧ (live.forget (c.expire env now l).ledger).inFlight ⊆ live'.inFlight := by
  obtain ⟨hnumbered, hnumbers⟩ := hcounts
  have hforget := hnumbered.forget (c.expire env now l).ledger
  rw [phase_advance_of_connected hphase] at hphase'
  cases hphase'
  rw [handed_of_connected hphase, ← List.append_assoc] at hroom ⊢
  cases hdraining : live.draining with
  | true =>
    rw [if_pos rfl, if_pos rfl, List.append_nil]
    refine ⟨⟨hforget, ?_⟩, List.Subset.refl _⟩
    rw [numbersOf_append, Live.numbers_cancels, List.append_nil]
    exact hnumbers
  | false =>
    rw [hdraining, if_neg Bool.false_ne_true, numbersOf_append, numbersOf_append,
      Live.numbers_cancels, List.append_nil, hnumbers, List.length_append, List.length_range] at hroom
    rw [if_neg Bool.false_ne_true, if_neg Bool.false_ne_true]
    have hsame : (live.forget (c.expire env now l).ledger).next = live.next := rfl
    obtain ⟨hsends, hnext⟩ := Live.numbers_sends env config c.key.interface
      (c.expire env now l).ledger ((c.expire env now l).ledger.unsettled c.waiting)
      (live.forget (c.expire env now l).ledger) hroom
    have hlink : (live.forget (c.expire env now l).ledger).next.toNat
        + handedOut (live.forget (c.expire env now l).ledger).link
          ((live.forget (c.expire env now l).ledger).flush env config c.key.interface
            (c.expire env now l).ledger
            ((c.expire env now l).ledger.unsettled c.waiting)).effects < 2 ^ 64 := by
      rw [Live.effects_flush, handedOut_map]
      exact hroom
    refine ⟨⟨(hforget.flush hlink).1, ?_⟩, (hforget.taken_flush hlink).1⟩
    rw [numbersOf_append, numbersOf_append, Live.numbers_cancels, List.append_nil, hnumbers, hsends,
      hnext, hsame, List.range_eq_range', List.range_eq_range', ← List.range'_append_1, Nat.zero_add]

end Connection

/-! ## §3. What may become of a link. -/

namespace Pool

variable {config : PoolConfig} {history past later : List Moment} {effects : List Effect}
  {p : Pool} {m : Moment} {event : Event} {key : ConnectionKey} {link : LinkId} {generation : Nat}
  {c c' : Connection} {live live' : Live} {env : Surroundings} {now : Time} {l : Ledger}

/-- The call is in flight under the number, on this link of the connection for the key. -/
def InFlight (p : Pool) (key : ConnectionKey) (link : LinkId) (n : SequenceNumber)
    (call : PendingCall) : Prop :=
  ∃ live, p.live? key = some live ∧ live.link = link ∧ (n, call) ∈ live.inFlight

/-- Why a call is given up. -/
inductive GivenUp (m : Moment) (call : PendingCall) : Prop where
  /-- Its caller has aborted it. -/
  | aborted {env : Surroundings} {now : Time} :
    m.event = .look env now (.command (.abort call.id)) → GivenUp m call
  /-- Its deadline has come. -/
  | expired {env : Surroundings} {now : Time} :
    m.event = .advance env now → call.isExpired now = true → GivenUp m call
  /-- It is found to have an outcome when deadlines are looked at. -/
  | finished {env : Surroundings} {now : Time} :
    m.event = .advance env now → m.before.ledger.isFinished call.id = true → GivenUp m call

/-- The link goes on, and no call is sent on it. -/
structure Goes (live live' : Live) : Prop where
  link : live'.link = live.link
  next : live'.next = live.next
  discarded : live'.discarded.Sublist live.discarded

/-- What may become of a link at a moment, and what is handed to its writer. -/
inductive LinkStep (key : ConnectionKey) (c : Connection) (live : Live) (m : Moment) : Prop where
  /-- What is due is done. -/
  | advanced {env : Surroundings} {now : Time} {l : Ledger} :
    m.event = .advance env now → InTurn (Connection.advance env m.before.config now) m.before c l →
      m.handed live.link = c.handed env m.before.config now live.link l →
        LinkStep key c live m
  /-- A call in flight is let go of. -/
  | letGo {env : Surroundings} {now : Time} {n : SequenceNumber} {call : PendingCall}
      {taken : Bool} :
    m.event = .look env now (.command (.abort call.id)) → (n, call) ∈ live.inFlight →
      m.handed live.link = [.cancel n call taken] → m.after.live? key = some (live.takeOut n) →
        LinkStep key c live m
  /-- A response has arrived. -/
  | answered {env : Surroundings} {now : Time} {frame : ResponseFrame} {live' : Live} :
    m.event = .look env now (.notice (.response key c.generation frame)) →
      m.handed live.link = [] → m.after.live? key = some live' → Goes live live' →
        live'.inFlight = (live.takeOut frame.sequence).inFlight → LinkStep key c live m
  /-- No call leaves flight. -/
  | stays {live' : Live} :
    m.handed live.link = [] → m.after.live? key = some live' → Goes live live' →
      live'.inFlight = live.inFlight → LinkStep key c live m
  /-- The link is lost. -/
  | lost :
    (∀ env now, m.event ≠ .advance env now) →
      (∀ env now id, m.event ≠ .look env now (.command (.abort id))) →
        m.handed live.link = [] → m.after.live? key = none → LinkStep key c live m

theorem live?_of_connection? (hc : p.connection? key = some c) : p.live? key = c.live? := by
  unfold live?
  rw [hc, Option.bind_some]

theorem live?_of_none (h : p.connection? key = none) : p.live? key = none := by
  unfold live?
  rw [h]
  rfl

/-- A link that stays. -/
theorem link_stays (hhanded : m.handed live.link = [])
    (hc' : m.after.connection? key = some c') (hphase' : c'.phase = .connected live')
    (hgoes : Goes live live') (hflight : live'.inFlight = live.inFlight) : LinkStep key c live m :=
  .stays hhanded ((live?_of_connection? hc').trans (Connection.live?_of_phase hphase')) hgoes
    hflight

theorem goes_self (live : Live) : Goes live live := ⟨rfl, rfl, List.Sublist.refl _⟩

/-- A response takes one call out of flight, or the link is lost. -/
theorem link_responded (hphase : c.phase = .connected live) {frame : ResponseFrame}
    (hevent : m.event = .look env now (.notice (.response key c.generation frame)))
    (hhanded : m.handed live.link = [])
    (hc' : m.after.connection? key
      = some (c.respond m.before.config frame m.before.ledger).connection) :
    LinkStep key c live m := by
  have hresponded := Connection.responded m.before.config frame c m.before.ledger
  generalize c.respond m.before.config frame m.before.ledger = moved at *
  have hanswered : ∀ live', moved.connection.phase = .connected live' → Goes live live' →
      live'.inFlight = (live.takeOut frame.sequence).inFlight → LinkStep key c live m :=
    fun live' hphase' hgoes hflight => .answered hevent hhanded
      ((live?_of_connection? hc').trans (Connection.live?_of_phase hphase')) hgoes hflight
  cases hresponded with
  | ignored _ => exact link_stays hhanded hc' hphase (goes_self live) rfl
  | dropped hlive _ =>
    rw [hphase] at hlive
    cases hlive
    exact link_stays hhanded hc' rfl ⟨rfl, rfl, List.filter_sublist⟩ rfl
  | delivered hfinds _ _ | retried hfinds _ _ _ | unreadable hfinds _ _ _ | failed hfinds _ _ _
  | refused hfinds _ _ =>
    have hlive := hfinds.phase
    rw [hphase] at hlive
    cases hlive
    exact hanswered _ rfl ⟨rfl, rfl, List.Sublist.refl _⟩ rfl
  | @rejected other call e hfinds hresult hno hversion =>
    refine .lost (fun env now heq => ?_) (fun env now id heq => ?_) hhanded ?_
    · rw [hevent] at heq
      cases heq
    · rw [hevent] at heq
      cases heq
    · rw [live?_of_connection? hc']
      exact Connection.live?_lose e _

/-- **What may become of a link** when neither what is due is done nor a call is let go of. -/
theorem Tidy.link_quiet (h : Tidy effects m.before) (hc : m.before.connection? key = some c)
    (hphase : c.phase = .connected live) (hadvance : ∀ env now, m.event ≠ .advance env now)
    (habort : ∀ env now id, m.event ≠ .look env now (.command (.abort id))) :
    LinkStep key c live m := by
  have hhanded := (m.handed_eq_nil hadvance habort live.link).1
  have hlost : m.after.live? key = none → LinkStep key c live m := .lost hadvance habort hhanded
  cases hc' : m.after.connection? key with
  | none => exact hlost (live?_of_none hc')
  | some c' =>
    have hkey := (mem_of_connection? hc).2
    have hnolink : c'.live? = none → LinkStep key c live m :=
      fun hnone => hlost ((live?_of_connection? hc').trans hnone)
    have hsame : c'.phase = c.phase → LinkStep key c live m :=
      fun heq => link_stays hhanded hc' (heq.trans hphase) (goes_self live) rfl
    cases h.steps hc hc' with
    | stays => exact hsame rfl
    | kept _ => exact hsame rfl
    | asked _ _ => exact hsame rfl
    | letGo hevent _ => exact absurd hevent (habort _ _ _)
    | attached _ hconnecting =>
      rw [hphase] at hconnecting
      cases hconnecting
    | responded hevent _ => exact link_responded hphase (hkey ▸ hevent) hhanded hc'
    | attemptFailed _ _ _ => exact hnolink (Connection.live?_lose _ _)
    | linkFailed _ _ _ => exact hnolink (Connection.live?_lose _ _)
    | @reconsidered env now directory l hevent _ =>
      have hreconsidered := Connection.reconsidered env m.before.config now c l
      generalize c.reconsider env m.before.config now l = moved at *
      cases hreconsidered with
      | kept _ => exact hsame rfl
      | withdrawn _ _ => exact hnolink (Connection.live?_lose _ _)
      | restarted hconnecting =>
        rw [hphase] at hconnecting
        cases hconnecting
    | advanced hevent _ => exact absurd hevent (hadvance _ _)

/-- The same when a call is let go of. -/
theorem Tidy.link_abort (h : Tidy effects m.before)
    (howns : Owns key live.link m.before.connections)
    (hc : m.before.connection? key = some c) (hphase : c.phase = .connected live) {id : CallId}
    (hevent : m.event = .look env now (.command (.abort id))) : LinkStep key c live m := by
  obtain ⟨hmem, hkey⟩ := mem_of_connection? hc
  obtain ⟨p, event⟩ := m
  dsimp only at h howns hc hmem hevent
  subst hevent
  have hhanded : Moment.handed live.link ⟨p, .look env now (.command (.abort id))⟩
      = (cancelIn env id p.connections).2.filterMap (·.cancelOn? live.link) := rfl
  have hafter : ∀ cs, (cancelIn env id p.connections).1 = cs → ∀ d ∈ cs, d.key = key →
      Pool.connection? (Moment.after ⟨p, .look env now (.command (.abort id))⟩) key = some d := by
    rintro cs rfl d hd rfl
    refine connection?_of_mem ?_ hd
    show ((cancelIn env id p.connections).1.map (·.key)).Nodup
    rw [keys_cancelIn]
    exact h.keys
  rcases cancelIn_cases env id p.connections with hnobody | ⟨before, d, after, d', sent, hsplit,
    hcancel, heq⟩
  · rw [hnobody] at hhanded
    exact link_stays hhanded (hafter _ (congrArg Prod.fst hnobody) c hmem hkey) hphase
      (goes_self live) rfl
  · rw [heq] at hhanded
    have hd : d ∈ p.connections := by
      rw [hsplit]
      exact List.mem_append_right _ List.mem_cons_self
    by_cases hother : d.key = key
    · -- the connection is the one that holds the call
      obtain rfl := h.eq_of_key hc hd hother
      have hfind := hafter _ (congrArg Prod.fst heq) d'
        (List.mem_append_right _ List.mem_cons_self)
        ((Connection.moves_cancel hcancel).key.trans hother)
      cases Connection.letGo hcancel with
      | waiting => exact link_stays hhanded hfind hphase (goes_self live) rfl
      | @inFlight live₀ n call hlive hcall hid =>
        rw [hphase] at hlive
        cases hlive
        subst hid
        rw [List.filterMap_cons_some (cancelOn?_handOver live env call d.key.interface n)]
          at hhanded
        exact .letGo rfl hcall hhanded (live?_eq_some.mpr ⟨_, hfind, rfl⟩)
    · have hstill : c ∈ before ++ d' :: after := by
        rw [hsplit] at hmem
        rcases List.mem_append.mp hmem with hbefore | hrest
        · exact List.mem_append_left _ hbefore
        · rcases List.mem_cons.mp hrest with rfl | hafter
          · exact absurd hkey hother
          · exact List.mem_append_right _ (List.mem_cons_of_mem _ hafter)
      have hnone : sent.filterMap (·.cancelOn? live.link) = [] := by
        cases Connection.letGo hcancel with
        | waiting => rfl
        | inFlight hlive _ _ =>
          exact List.filterMap_cons_none (cancelOn?_of_ne
            (fun hlink => hother (howns d hd _ hlive hlink)) env _ _)
      exact link_stays (hhanded.trans hnone) (hafter _ (congrArg Prod.fst heq) c hstill hkey) hphase
        (goes_self live) rfl

/-- **What may become of a link**, whatever happens. -/
theorem Tidy.link_cases (h : Tidy effects m.before)
    (howns : Owns key live.link m.before.connections)
    (hc : m.before.connection? key = some c) (hphase : c.phase = .connected live) :
    LinkStep key c live m := by
  by_cases hadvance : ∃ env now, m.event = .advance env now
  · obtain ⟨env, now, hevent⟩ := hadvance
    obtain ⟨hmem, rfl⟩ := mem_of_connection? hc
    obtain ⟨l, hturn, hhanded⟩ := howns.handedInTurn h.keys hmem env now
    refine .advanced hevent hturn ?_
    unfold Moment.handed
    rw [hevent]
    exact hhanded
  · by_cases habort : ∃ env now id, m.event = .look env now (.command (.abort id))
    · obtain ⟨env, now, id, hevent⟩ := habort
      exact h.link_abort howns hc hphase hevent
    · exact h.link_quiet hc hphase (fun env now heq => hadvance ⟨env, now, heq⟩)
        fun env now id heq => habort ⟨env, now, id, heq⟩

/-! ## §4. The frames of a link. -/

theorem Moment.handed_of_others
    (h : ∀ c ∈ m.before.connections, ∀ live, c.phase = .connected live → live.link ≠ link) :
    m.handed link = [] := by
  by_cases hadvance : ∃ env now, m.event = .advance env now
  · obtain ⟨env, now, hevent⟩ := hadvance
    unfold Moment.handed
    rw [hevent]
    exact handedInTurn_of_others h env _ now _
  · by_cases habort : ∃ env now id, m.event = .look env now (.command (.abort id))
    · obtain ⟨env, now, id, hevent⟩ := habort
      have heffects : m.effects = (cancelIn env id m.before.connections).2 := by
        unfold Moment.effects
        rw [hevent]
        rfl
      unfold Moment.handed
      rw [hevent, heffects]
      rcases effects_cancelIn env id m.before.connections with
        hnone | ⟨c, hc, live, n, call, hphase, -, -, hsent⟩
      · rw [hnone]
        rfl
      · rw [hsent]
        exact List.filterMap_cons_none (cancelOn?_of_ne (h c hc live hphase) env call _)
    · exact (m.handed_eq_nil (fun env now heq => hadvance ⟨env, now, heq⟩)
        (fun env now id heq => habort ⟨env, now, id, heq⟩) link).1

/-- The link belongs to one connection, if it is attached for no other. -/
theorem Run.owns (run : Run config history p)
    (hkey : ∀ other number, .attach other number link ∈ effectsOf history → other = key) :
    Owns key link p.connections := by
  intro c hc live hphase hlink
  obtain ⟨number, hmem⟩ := run.attached (connection?_of_mem run.accounts.tidy.keys hc) hphase
  exact hkey c.key number (hlink ▸ hmem)

/-- **The frames that are handed to a writer are those of the pool.** -/
theorem Run.filter_effects (run : Run config history p)
    (hkey : ∀ other number, .attach other number link ∈ effectsOf history → other = key) :
    ∀ m ∈ history,
      m.effects.filter (·.isOn link) = (m.handed link).map (·.effect link key.interface) := by
  intro m hm
  obtain ⟨past, later, rfl⟩ := List.append_of_mem hm
  rw [effectsOf_append] at hkey
  exact m.filter_effects ((run.at_split rfl).1.owns fun other number hmem =>
    hkey other number (List.mem_append_left _ hmem))

/-- Nothing is handed to a writer before its link is attached. -/
theorem Run.handedOn_eq_nil (run : Run config history p)
    (hnone : ∀ other number, .attach other number link ∉ effectsOf history) :
    handedOn link history = [] := by
  induction run with
  | start _ => rfl
  | @next history p run event _ ih =>
    rw [effectsOf_concat] at hnone
    have hbefore : ∀ other number, .attach other number link ∉ effectsOf history :=
      fun other number hmem => hnone other number (List.mem_append_left _ hmem)
    rw [handedOn_concat, ih hbefore, Moment.handed_of_others]
    · rfl
    · intro c hc live hphase hlink
      obtain ⟨number, hmem⟩ := run.attached (connection?_of_mem run.accounts.tidy.keys hc) hphase
      exact hbefore c.key number (hlink ▸ hmem)

/-- What the frames of a link say of it. -/
structure Told (key : ConnectionKey) (link : LinkId) (history : List Moment) (p : Pool) : Prop where
  justified : Justified (handedOn link history)
  backs : ∀ live, p.live? key = some live → live.link = link → Backs (handedOn link history) live
  numbers : (numbersOf (handedOn link history)).length < 2 ^ 64 →
    numbersOf (handedOn link history)
      = List.range (numbersOf (handedOn link history)).length
  counts : (numbersOf (handedOn link history)).length < 2 ^ 64 →
    ∀ live, p.live? key = some live → live.link = link → CountsUp (handedOn link history) live

/-- A link that goes on, while nothing is handed to its writer. -/
theorem Told.goes (h : Told key link history m.before) (hlive : m.before.live? key = some live)
    (hlink : live.link = link) (hhanded : m.handed link = [])
    (hlive' : m.after.live? key = some live') (hgoes : Goes live live')
    (hflight : live'.inFlight.Sublist live.inFlight) : Told key link (history ++ [m]) m.after := by
  have hsame : handedOn link (history ++ [m]) = handedOn link history := by
    rw [handedOn_concat, hhanded, List.append_nil]
  refine ⟨?_, ?_, ?_, ?_⟩
  · rw [hsame]
    exact h.justified
  · rw [hsame]
    intro other hother _
    rw [hlive'] at hother
    cases hother
    exact (h.backs live hlive hlink).of_sublist hflight
  · rw [hsame]
    exact h.numbers
  · rw [hsame]
    intro hroom other hother _
    rw [hlive'] at hother
    cases hother
    exact (h.counts hroom live hlive hlink).of_sublist hflight hgoes.next hgoes.discarded

/-- A connection is afterwards what doing what is due has made of it. -/
theorem Tidy.phase_of_advance (h : Tidy effects m.before) (hevent : m.event = .advance env now)
    (hturn : InTurn (Connection.advance env m.before.config now) m.before c l)
    (hlive' : m.after.live? c.key = some live') :
    (c.advance env m.before.config now l).connection.phase = .connected live' := by
  obtain ⟨c', hc', hphase'⟩ := live?_eq_some.mp hlive'
  obtain ⟨before, after, hsplit, rfl⟩ := hturn
  have hfind : (m.before.advance env now).1.connection? c.key = some c' := by
    rw [← hc', Moment.after, hevent]
    rfl
  rw [← connection?_of_advances h.keys ⟨before, after, hsplit, rfl⟩ hfind]
  exact hphase'

/-- **What is due is done.** -/
theorem Told.advance (h : Told key link history m.before) (htidy : Tidy effects m.before)
    (hc : m.before.connection? key = some c) (hphase : c.phase = .connected live)
    (hlink : live.link = link) (hevent : m.event = .advance env now)
    (hturn : InTurn (Connection.advance env m.before.config now) m.before c l)
    (hhanded : m.handed link = c.handed env m.before.config now link l) :
    Told key link (history ++ [m]) m.after := by
  subst hlink
  obtain ⟨hmem, rfl⟩ := mem_of_connection? hc
  have hlive := live?_eq_some.mpr ⟨c, hc, hphase⟩
  obtain ⟨hjustified, hbacks⟩ := Connection.justified_advance hphase
    (htidy.numbered c hmem live hphase).1 h.justified (h.backs live hlive rfl) env
    m.before.config now l
  have hmoved : ∀ live', m.after.live? c.key = some live' →
      (c.advance env m.before.config now l).connection.phase = .connected live' :=
    fun _ hlive' => htidy.phase_of_advance hevent hturn hlive'
  have hcounts : (numbersOf (handedOn live.link (history ++ [m]))).length < 2 ^ 64 →
      ∀ live', (c.advance env m.before.config now l).connection.phase = .connected live' →
        CountsUp (handedOn live.link (history ++ [m])) live' := by
    rw [handedOn_concat, hhanded]
    intro hroom live' hphase'
    have hbefore : (numbersOf (handedOn live.link history)).length < 2 ^ 64 := by
      rw [numbersOf_append, List.length_append] at hroom
      omega
    exact (Connection.counts_advance hphase (h.counts hbefore live hlive rfl) hroom hphase').1
  refine ⟨?_, ?_, ?_, fun hroom live' hlive' _ => hcounts hroom live' (hmoved live' hlive')⟩
  · rw [handedOn_concat, hhanded]
    exact hjustified
  · rw [handedOn_concat, hhanded]
    exact fun live' hlive' _ => hbacks live' (hmoved live' hlive')
  · intro hroom
    obtain ⟨-, hnumbers⟩ := hcounts hroom _
      (Connection.phase_advance_of_connected hphase env m.before.config now l)
    rw [hnumbers, List.length_range]

/-- **A call in flight is let go of.** -/
theorem Told.letGo (h : Told key link history m.before) (hlive : m.before.live? key = some live)
    (hlink : live.link = link) {n : SequenceNumber} {call : PendingCall} {taken : Bool}
    (hmem : (n, call) ∈ live.inFlight) (hhanded : m.handed link = [.cancel n call taken])
    (hlive' : m.after.live? key = some (live.takeOut n)) :
    Told key link (history ++ [m]) m.after := by
  have hbacks := h.backs live hlive hlink
  have hnumbers :
      numbersOf (handedOn link (history ++ [m])) = numbersOf (handedOn link history) := by
    rw [handedOn_concat, hhanded, numbersOf_append]
    exact List.append_nil _
  refine ⟨?_, ?_, ?_, ?_⟩
  · rw [handedOn_concat, hhanded]
    refine h.justified.append fun before after k other took heq => ?_
    cases before with
    | nil =>
      cases heq
      rw [List.append_nil]
      exact hbacks _ hmem
    | cons first rest => exact absurd (List.cons.inj heq).2 (by simp)
  · intro other hother _
    rw [hlive'] at hother
    cases hother
    rw [handedOn_concat, hhanded]
    intro x hx
    obtain ⟨hx, hne⟩ := List.mem_filter.mp hx
    refine (hbacks x hx).append fun hcanceled => ?_
    rw [List.mem_singleton.mp (show x.1 ∈ [n] from hcanceled)] at hne
    simp at hne
  · rw [hnumbers]
    exact h.numbers
  · intro hroom other hother _
    rw [hlive'] at hother
    cases hother
    rw [hnumbers] at hroom
    have hcounts : CountsUp (handedOn link history) (live.takeOut n) :=
      (h.counts hroom live hlive hlink).of_sublist List.filter_sublist rfl (List.Sublist.refl _)
    exact ⟨hcounts.1, hnumbers.trans hcounts.2⟩

/-- A link that was not there has just been attached, and nothing has been handed to its writer. -/
theorem Run.attached_anew (run : Run config history m.before)
    (hstreams : AttachedOnce (effectsOf (history ++ [m])))
    (hnone : ∀ live, m.before.live? key = some live → live.link ≠ link)
    (hlive : m.after.live? key = some live) (hlink : live.link = link) :
    handedOn link history = [] ∧ ∃ peer, live = { peer, link } := by
  obtain ⟨c', hc', hphase'⟩ := live?_eq_some.mp hlive
  rcases run.accounts.tidy.connection?_after hc' with ⟨c, hc, hbecomes⟩ | ⟨-, hfresh⟩
  · obtain ⟨-, ⟨old, hold, hfollows⟩ | ⟨peer, other, rfl, hattach⟩⟩ :=
      hbecomes.connected live hphase'
    · exact absurd (hfollows.link.symm.trans hlink)
        (hnone old (live?_eq_some.mpr ⟨c, hc, hold⟩))
    · cases hlink
      rw [effectsOf_concat] at hstreams
      exact ⟨run.handedOn_eq_nil fun other number hmem =>
        hstreams.not_again hmem hattach, peer, rfl⟩
  · obtain ⟨t, ht⟩ := hfresh.phase
    rw [ht] at hphase'
    cases hphase'

/-- A link that is not there is attached, or nothing happens to it. -/
theorem Told.attach (h : Told key link history m.before) (run : Run config history m.before)
    (hstreams : AttachedOnce (effectsOf (history ++ [m])))
    (hhanded : m.handed link = [])
    (hnone : ∀ live, m.before.live? key = some live → live.link ≠ link) :
    Told key link (history ++ [m]) m.after := by
  have hsame : handedOn link (history ++ [m]) = handedOn link history := by
    rw [handedOn_concat, hhanded, List.append_nil]
  refine ⟨hsame ▸ h.justified, fun live hlive hlink => ?_, hsame ▸ h.numbers,
    fun _ live hlive hlink => ?_⟩
  · obtain ⟨-, peer, rfl⟩ := run.attached_anew hstreams hnone hlive hlink
    exact fun x hx => absurd hx List.not_mem_nil
  · obtain ⟨hempty, peer, rfl⟩ := run.attached_anew hstreams hnone hlive hlink
    rw [hsame, hempty]
    exact ⟨Live.numbered_new peer link, rfl⟩

/-- **The frames of a link, through a run.** -/
theorem Run.told (run : Run config history p) (hstreams : AttachedOnce (effectsOf history))
    (hkey : ∀ other number, .attach other number link ∈ effectsOf history → other = key) :
    Told key link history p := by
  induction run with
  | @start directory p hnew =>
    have hnone : ∀ live, p.live? key ≠ some live := by
      intro live hlive
      rw [eq_of_new hnew] at hlive
      cases hlive
    exact ⟨justified_nil, fun live hlive => absurd hlive (hnone live), fun _ => rfl,
      fun _ live hlive => absurd hlive (hnone live)⟩
  | @next history p run event hadmits ih =>
    have hstreams' := hstreams
    have hkey' := hkey
    rw [effectsOf_concat] at hstreams' hkey'
    have hearlier : ∀ other number, .attach other number link ∈ effectsOf history → other = key :=
      fun other number hmem => hkey' other number (List.mem_append_left _ hmem)
    have htold := ih hstreams'.of_append hearlier
    have howns := run.owns hearlier
    have htidy := run.accounts.tidy
    by_cases hhas : ∃ live, p.live? key = some live ∧ live.link = link
    · obtain ⟨live, hlive, rfl⟩ := hhas
      obtain ⟨c, hc, hphase⟩ := live?_eq_some.mp hlive
      cases Tidy.link_cases (m := ⟨p, event⟩) htidy howns hc hphase with
      | advanced hevent hturn hhanded =>
        exact htold.advance htidy hc hphase rfl hevent hturn hhanded
      | letGo _ hmem hhanded hlive' => exact htold.letGo hlive rfl hmem hhanded hlive'
      | answered _ hhanded hlive' hgoes hflight =>
        exact htold.goes hlive rfl hhanded hlive' hgoes (hflight ▸ List.filter_sublist)
      | stays hhanded hlive' hgoes hflight =>
        exact htold.goes hlive rfl hhanded hlive' hgoes (hflight ▸ List.Sublist.refl _)
      | lost _ _ hhanded hlive' =>
        have hsame : handedOn live.link (history ++ [⟨p, event⟩]) = handedOn live.link history := by
          rw [handedOn_concat, hhanded, List.append_nil]
        have hnone : ∀ other, (p.after event).1.live? key ≠ some other := by
          intro other hother
          rw [show (p.after event).1.live? key = none from hlive'] at hother
          cases hother
        exact ⟨hsame ▸ htold.justified, fun other hother => absurd hother (hnone other),
          hsame ▸ htold.numbers, fun _ other hother => absurd hother (hnone other)⟩
    · have hnone : ∀ live, p.live? key = some live → live.link ≠ link :=
        fun live hlive hlink => hhas ⟨live, hlive, hlink⟩
      refine Told.attach (m := ⟨p, event⟩) htold run hstreams
        (Moment.handed_of_others fun c hc live hphase hlink => ?_) hnone
      have hfind := connection?_of_mem htidy.keys hc
      rw [howns c hc live hphase hlink] at hfind
      exact hnone live (live?_eq_some.mpr ⟨c, hfind, hphase⟩) hlink

end Pool

end RemoteCall
