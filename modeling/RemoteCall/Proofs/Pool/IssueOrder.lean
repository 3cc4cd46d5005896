/-
  RemoteCall.Proofs.Pool.IssueOrder
  ─────────────────────────────────
  **THE ORDER OF ISSUE SURVIVES RECONNECTS.**

  The pool takes up the calls for a key in the order in which they were issued,
  and no response sends one of them back to the queue.  Then the line of the
  connection stays in that order, whatever becomes of its links (`InLine`):

      in flight        …  <  …  <  …
      waiting                         <  …  <  …
      asked for next                               <  …

  The writer of each link is handed the calls in that order too.  Only a frame
  that the writer has not taken is followed by one for the same call.

  Main statements:
    • `Run.inLine`     — the line of a connection, through a run,
    • `Run.sentInLine` — the frames of a link, through a run,
    • `issue_order_survives_reconnects` — the whole.
-/
import RemoteCall.Proofs.Pool.Ordering
import RemoteCall.Proofs.Pool.Telling

namespace RemoteCall

open Connection

namespace Pool

variable {config : PoolConfig} {history : List Moment} {effects : List Effect} {p : Pool}
  {m : Moment} {event : Event} {key : ConnectionKey} {link : LinkId} {generation : Nat}
  {c c' : Connection} {live live' : Live} {env : Surroundings} {now : Time} {call : PendingCall}

/-! ## §1. The line of a connection. -/

/-- The numbers of the calls for a key whose command the pool has looked at, in order. -/
def takenFor (key : ConnectionKey) (history : List Moment) : List CallId :=
  ((takenUp history).filter (·.1 = key)).map (·.2.id)

theorem takenFor_concat (key : ConnectionKey) (history : List Moment) (m : Moment) :
    takenFor key (history ++ [m])
      = takenFor key history ++ (m.takenUp?.toList.filter (·.1 = key)).map (·.2.id) := by
  unfold takenFor
  rw [takenUp_concat, List.filter_append, List.map_append]

theorem subset_takenFor (key : ConnectionKey) (history : List Moment) (m : Moment) :
    takenFor key history ⊆ takenFor key (history ++ [m]) := by
  rw [takenFor_concat]
  exact List.subset_append_left _ _

/-- A call for the key is taken up. -/
theorem takenFor_of_call (hevent : m.event = .look env now (.command (.call key call)))
    (history : List Moment) :
    takenFor key (history ++ [m]) = takenFor key history ++ [call.id] := by
  have htaken : m.takenUp? = some (key, call) := by
    unfold Moment.takenUp?
    rw [hevent]
  rw [takenFor_concat, htaken, Option.toList_some, List.filter_cons_of_pos (by simp)]
  rfl

/-- If the calls for a key are taken up in order, the next is above all others. -/
theorem lt_of_call (htaken : (takenFor key (history ++ [m])).Pairwise (· < ·))
    (hevent : m.event = .look env now (.command (.call key call))) {id : CallId}
    (hid : id ∈ takenFor key history) : id < call.id := by
  rw [takenFor_of_call hevent] at htaken
  exact (List.pairwise_append.mp htaken).2.2 id hid call.id (List.mem_singleton_self _)

/-- The line of the connection for a key is in order, and the calls in it have been taken up. -/
def InLine (key : ConnectionKey) (history : List Moment) (p : Pool) : Prop :=
  ∀ c, p.connection? key = some c →
    c.InOrder ∧ ∀ call ∈ c.calls, call.id ∈ takenFor key history

/-- **One more event.** -/
theorem InLine.next (h : InLine key history m.before) (haccounts : Accounts history m.before)
    (htaken : (takenFor key (history ++ [m])).Pairwise (· < ·)) (hback : m.sentBack key = []) :
    InLine key (history ++ [m]) m.after := by
  intro c' hc'
  cases hc : m.before.connection? key with
  | none =>
    -- a new connection holds one call at most
    unfold InOrder
    rcases added_cases hc hc' with ⟨env, now, -, hcalls⟩ | ⟨env, now, call, hevent, hcalls⟩
    · rw [hcalls]
      exact ⟨List.Pairwise.nil, nofun⟩
    · rw [hcalls]
      refine ⟨List.pairwise_singleton _ _, fun other hother => ?_⟩
      rw [List.mem_singleton.mp hother, takenFor_of_call hevent]
      exact List.mem_append_right _ (List.mem_singleton_self _)
  | some c =>
    obtain ⟨horder, hknown⟩ := h c hc
    obtain ⟨hmem, rfl⟩ := mem_of_connection? hc
    rcases (haccounts.tidy.steps hc hc').order hc horder (haccounts.tidy.numbered c hmem) hback
      with ⟨env, now, call, hevent, rfl⟩ | hthins
    · -- the call that joins the end is above all others
      refine ⟨horder.asked fun x hx => lt_of_call htaken hevent (hknown x hx), fun x hx => ?_⟩
      rw [calls_asked] at hx
      rw [takenFor_of_call hevent]
      rcases List.mem_append.mp hx with hold | hnew
      · exact List.mem_append_left _ (hknown x hold)
      · rw [List.mem_singleton.mp hnew]
        exact List.mem_append_right _ (List.mem_singleton_self _)
    · refine ⟨horder.of_thins hthins, fun x hx => ?_⟩
      obtain ⟨old, hold, hid⟩ := List.mem_map.mp (hthins.calls.subset (List.mem_map_of_mem hx))
      rw [← hid]
      exact subset_takenFor _ history m (hknown old hold)

/-- Up to any earlier moment, the calls were taken up in order too. -/
theorem pairwise_takenFor (htaken : (takenFor key (history ++ [m])).Pairwise (· < ·)) :
    (takenFor key history).Pairwise (· < ·) := by
  rw [takenFor_concat] at htaken
  exact (List.pairwise_append.mp htaken).1

/-- **The line of a connection, through a run.** -/
theorem Run.inLine (run : Run config history p)
    (htaken : (takenFor key history).Pairwise (· < ·))
    (hback : ∀ m ∈ history, m.sentBack key = []) : InLine key history p := by
  induction run with
  | @start directory p hnew =>
    intro c hc
    rw [eq_of_new hnew] at hc
    cases hc
  | @next history p run event _ ih =>
    refine InLine.next (m := ⟨p, event⟩) (ih (pairwise_takenFor htaken) fun m hm =>
      hback m (List.mem_append_left _ hm)) run.accounts htaken ?_
    exact hback _ (List.mem_append_right _ (List.mem_singleton_self _))

/-! ## §2. The frames of a link. -/

/-- The calls whose frames have been handed to the writer of a link come before those that wait for
it, and they have been taken up. -/
structure SentInLine (key : ConnectionKey) (link : LinkId) (history : List Moment) (p : Pool) :
    Prop where
  ordered : SentAhead (originalsIn (handedOn link history)) []
  ahead : ∀ c live, p.connection? key = some c → c.phase = .connected live → live.link = link →
    SentAhead (originalsIn (handedOn link history)) (c.waiting.map (·.id))
  taken : ∀ x ∈ originalsIn (handedOn link history), x.1 ∈ takenFor key history

/-- Only doing what is due sends calls. -/
theorem Moment.originalsIn_handed (hadvance : ∀ env now, m.event ≠ .advance env now)
    (link : LinkId) : originalsIn (m.handed link) = [] := by
  unfold handed
  split
  · next env now heq => exact absurd heq (hadvance env now)
  · unfold originalsIn
    rw [List.filterMap_filterMap, List.filterMap_eq_nil_iff]
    intro effect _
    cases effect with
    | send target call frame taken =>
      unfold Effect.cancelOn?
      dsimp only
      split <;> rfl
    | _ => rfl

/-- Nothing is sent. -/
theorem SentInLine.of_silent (h : SentInLine key link history m.before)
    (hsilent : originalsIn (m.handed link) = [])
    (hahead : ∀ c live, m.after.connection? key = some c → c.phase = .connected live →
      live.link = link → SentAhead (originalsIn (handedOn link history)) (c.waiting.map (·.id))) :
    SentInLine key link (history ++ [m]) m.after := by
  have hsame :
      originalsIn (handedOn link (history ++ [m])) = originalsIn (handedOn link history) := by
    rw [handedOn_concat, originalsIn_append, hsilent, List.append_nil]
  refine ⟨hsame ▸ h.ordered, hsame ▸ hahead, fun x hx => ?_⟩
  rw [hsame] at hx
  exact subset_takenFor key history m (h.taken x hx)

/-- **What is due is done.** -/
theorem SentInLine.advance (h : SentInLine key link history m.before)
    (hline : InLine key history m.before) (haccounts : Accounts history m.before)
    (howns : Owns key link m.before.connections) (hc : m.before.connection? key = some c)
    (hphase : c.phase = .connected live) (hlink : live.link = link)
    (hevent : m.event = .advance env now) : SentInLine key link (history ++ [m]) m.after := by
  subst hlink
  obtain ⟨horder, hknown⟩ := hline c hc
  have hbefore := h.ahead c live hc hphase rfl
  obtain ⟨hmem, rfl⟩ := mem_of_connection? hc
  obtain ⟨l, hturn, hhanded⟩ := howns.handedInTurn haccounts.tidy.keys hmem env now
  have hnumbered := haccounts.tidy.numbered c hmem
  have hsent : originalsIn (handedOn live.link (history ++ [m]))
      = originalsIn (handedOn live.link history)
        ++ originalsIn (c.handed env m.before.config now live.link l) := by
    rw [handedOn_concat, originalsIn_append, ← hhanded]
    unfold Moment.handed
    rw [hevent]
  obtain ⟨hnew, hids⟩ := sentAhead_advance hphase horder env m.before.config now l
  have hthins := thins_advance hnumbered env m.before.config now l
  have hwaiting := (hthins.waiting live _ hphase
    (phase_advance_of_connected hphase env m.before.config now l)).subset
  have hafter := hbefore.append hnew hids hwaiting
  refine ⟨hsent ▸ hafter.of_subset (List.nil_subset _), fun c' live' hc' _ _ => ?_, fun x hx => ?_⟩
  · have hfind : (m.before.advance env now).1.connection? c.key = some c' := by
      rw [← hc', Moment.after, hevent]
      rfl
    obtain ⟨before, after, hsplit, rfl⟩ := hturn
    rw [connection?_of_advances haccounts.tidy.keys ⟨before, after, hsplit, rfl⟩ hfind, hsent]
    exact hafter
  · rw [hsent] at hx
    refine subset_takenFor c.key history m ?_
    rcases List.mem_append.mp hx with hold | hnew
    · exact h.taken x hold
    · obtain ⟨call, hcall, hid⟩ := List.mem_map.mp (hids x hnew)
      rw [← hid]
      exact hknown call (List.mem_append_right _ hcall)

/-- **Anything else happens** to the connection: a call joins the end of its queue, or some leave
it. -/
theorem SentInLine.quiet (h : SentInLine key link history m.before)
    (hline : InLine key history m.before) (haccounts : Accounts history m.before)
    (htaken : (takenFor key (history ++ [m])).Pairwise (· < ·)) (hback : m.sentBack key = [])
    (hc : m.before.connection? key = some c) (hphase : c.phase = .connected live)
    (hlink : live.link = link) (hadvance : ∀ env now, m.event ≠ .advance env now) :
    SentInLine key link (history ++ [m]) m.after := by
  obtain ⟨horder, -⟩ := hline c hc
  have hbefore := h.ahead c live hc hphase hlink
  obtain ⟨hmem, rfl⟩ := mem_of_connection? hc
  refine h.of_silent (m.originalsIn_handed hadvance link) fun c' live' hc' hphase' _ => ?_
  rcases (haccounts.tidy.steps hc hc').order hc horder (haccounts.tidy.numbered c hmem) hback
    with ⟨env, now, call, hevent, rfl⟩ | hthins
  · show SentAhead _ ((c.waiting ++ [call]).map (·.id))
    rw [List.map_append]
    exact hbefore.concat fun x hx => lt_of_call htaken hevent (h.taken x hx)
  · exact hbefore.of_subset (hthins.waiting live live' hphase hphase').subset

/-- **The frames of a link, through a run.** -/
theorem Run.sentInLine (run : Run config history p)
    (htaken : (takenFor key history).Pairwise (· < ·))
    (hback : ∀ m ∈ history, m.sentBack key = []) (hstreams : AttachedOnce (effectsOf history))
    (hkey : ∀ other number, .attach other number link ∈ effectsOf history → other = key) :
    SentInLine key link history p := by
  induction run with
  | @start directory p hnew =>
    refine ⟨sentAhead_nil [], fun c live hc => ?_, nofun⟩
    rw [eq_of_new hnew] at hc
    cases hc
  | @next history p run event _ ih =>
    have hstreams' := hstreams
    have hkey' := hkey
    rw [effectsOf_concat] at hstreams' hkey'
    have hearlier : ∀ other number, .attach other number link ∈ effectsOf history → other = key :=
      fun other number hmem => hkey' other number (List.mem_append_left _ hmem)
    have htaken' := pairwise_takenFor htaken
    have hback' : ∀ m ∈ history, m.sentBack key = [] :=
      fun m hm => hback m (List.mem_append_left _ hm)
    have hsent := ih htaken' hback' hstreams'.of_append hearlier
    have hline := run.inLine htaken' hback'
    have howns := run.owns hearlier
    have haccounts := run.accounts
    by_cases hhas : ∃ live, p.live? key = some live ∧ live.link = link
    · obtain ⟨live, hlive, hlink⟩ := hhas
      obtain ⟨c, hc, hphase⟩ := live?_eq_some.mp hlive
      by_cases hadvance : ∃ env now, event = .advance env now
      · obtain ⟨env, now, hevent⟩ := hadvance
        exact SentInLine.advance (m := ⟨p, event⟩) hsent hline haccounts howns hc hphase hlink
          hevent
      · exact SentInLine.quiet (m := ⟨p, event⟩) hsent hline haccounts htaken
          (hback _ (List.mem_append_right _ (List.mem_singleton_self _))) hc hphase hlink
          fun env now heq => hadvance ⟨env, now, heq⟩
    · have hnone : ∀ live, p.live? key = some live → live.link ≠ link :=
        fun live hlive hlink => hhas ⟨live, hlive, hlink⟩
      have hhanded : Moment.handed link ⟨p, event⟩ = [] := by
        refine Moment.handed_of_others fun c hc live hphase hlink => ?_
        have hfind := connection?_of_mem haccounts.tidy.keys hc
        rw [howns c hc live hphase hlink] at hfind
        exact hnone live (live?_eq_some.mpr ⟨c, hfind, hphase⟩) hlink
      refine SentInLine.of_silent (m := ⟨p, event⟩) hsent (by rw [hhanded]; rfl)
        fun c' live hc' hphase hlink => ?_
      -- the link has just been attached
      obtain ⟨hempty, -⟩ := Run.attached_anew (m := ⟨p, event⟩) run hstreams hnone
        (live?_eq_some.mpr ⟨c', hc', hphase⟩) hlink
      rw [hempty]
      exact sentAhead_nil _

/-! ## §3. The whole. -/

/-- The writer of a link is handed the calls in order. -/
structure SendsInOrder (key : ConnectionKey) (link : LinkId) (history : List Moment) : Prop where
  /-- The frames are those of the pool, with what they are for. -/
  frames : ∀ m ∈ history,
    m.effects.filter (·.isOn link) = (m.handed link).map (·.effect link key.interface)
  /-- The calls whose frames the writer takes have rising numbers. -/
  taken : (((originalsIn (handedOn link history)).filter (·.2)).map (·.1)).Pairwise (· < ·)
  /-- So have all calls whose frames are handed over, but that a call may come again when the writer
  has not taken its frame. -/
  handed : (originalsIn (handedOn link history)).Pairwise fun x y => Precedes x y.1

/-- **The order of issue survives reconnects**, if the pool takes up the calls for a key in order
and no response sends one back to the queue. -/
theorem issue_order_survives_reconnects (run : Run config history p)
    (htaken : (takenFor key history).Pairwise (· < ·))
    (hback : ∀ m ∈ history, m.sentBack key = []) :
    (∀ c, p.connection? key = some c →
        (c.waiting.map (·.id)).Pairwise (· < ·) ∧ ∀ a ∈ c.inFlight, ∀ b ∈ c.waiting, a.id < b.id)
      ∧ ∀ link generation, AttachedOnce (effectsOf history) →
        .attach key generation link ∈ effectsOf history → SendsInOrder key link history := by
  constructor
  · intro c hc
    exact (inOrder_iff.mp (run.inLine htaken hback c hc).1).2
  · intro link generation hstreams hattach
    have hkey : ∀ other number, .attach other number link ∈ effectsOf history → other = key :=
      fun other number hmem => hstreams.key_eq hattach hmem
    have hsent := run.sentInLine htaken hback hstreams hkey
    exact ⟨run.filter_effects hkey, hsent.ordered.taken, hsent.ordered.ordered⟩

section ThreeCalls

/-- One more call to the agent. -/
def thirdCall : PendingCall := ⟨3, [9], none, false, 0⟩

/-- The same surroundings, with writers that take one frame and no more. -/
def oneFrame : Surroundings := { oneAddress with takes := fun _ frame => frame.sequence == 0 }

/-- Two calls are in flight, the first is aborted, and a third waits when the link is lost.  On the
next link, the second is sent again, and then the third, whose frame the writer does not take. -/
theorem issue_order_survives_reconnects_when_a_link_is_lost :
    ∃ (history : List Moment) (p : Pool) (c : Connection), Run {} history p
      ∧ takenFor oneAgent history = [1, 2, 3] ∧ (∀ m ∈ history, m.sentBack oneAgent = [])
      ∧ AttachedOnce (effectsOf history) ∧ p.connection? oneAgent = some c
      ∧ c.inFlight.map (·.id) = [2] ∧ c.waiting.map (·.id) = [3]
      ∧ (∀ a ∈ c.inFlight, ∀ b ∈ c.waiting, a.id < b.id)
      ∧ SendsInOrder oneAgent 9 history ∧ SendsInOrder oneAgent 10 history
      ∧ originalsIn (handedOn 9 history) = [(1, true), (2, true)]
      ∧ originalsIn (handedOn 10 history) = [(2, true), (3, false)] := by
  have aborted := ((run_twoCallsSent.next (.settle 1 .aborted) fun _ => .inr (.inl rfl)).next
    (.send (.abort 1)) (show _ = true by decide +kernel)).next
      (.look oneAddress 0 (.command (.abort 1))) ⟨rfl, rfl⟩
  have asked := ((aborted.next (.issue .unit) trivial).next (.send (.call oneAgent thirdCall))
    ⟨by decide +kernel, by decide +kernel, rfl⟩).next
      (.look oneAddress 0 (.command (.call oneAgent thirdCall))) ⟨rfl, rfl⟩
  have lost := (asked.next (.report (.failed oneAgent 1 .connectionClosed)) trivial).next
    (.look oneAddress 0 (.notice (.failed oneAgent 1 .connectionClosed))) ⟨rfl, rfl⟩
  have sought := (lost.next (.advance oneAddress 0) trivial).next (.advance oneAddress 200) trivial
  have sent := ((sought.next (.report (.connected oneAgent 2 (.unix ⟨"/a"⟩) 10)) trivial).next
    (.look oneAddress 200 (.notice (.connected oneAgent 2 (.unix ⟨"/a"⟩) 10))) ⟨rfl, rfl⟩).next
      (.advance oneFrame 200) trivial
  obtain ⟨history, p, run, htaken, hback, honce, hfirst, hlive, hline, hold, hnew⟩ :
      ∃ (history : List Moment) (p : Pool), Run {} history p
        ∧ takenFor oneAgent history = [1, 2, 3]
        ∧ (∀ m ∈ history, m.sentBack oneAgent = []) ∧ AttachedOnce (effectsOf history)
        ∧ .attach oneAgent 1 9 ∈ effectsOf history ∧ (p.live? oneAgent).map (·.link) = some 10
        ∧ (p.connection? oneAgent).map (fun c => (c.inFlight.map (·.id), c.waiting.map (·.id)))
          = some ([2], [3])
        ∧ originalsIn (handedOn 9 history) = [(1, true), (2, true)]
        ∧ originalsIn (handedOn 10 history) = [(2, true), (3, false)] := by
    refine ⟨_, _, sent, ?_, ?_, ?_, List.mem_of_getElem? (show _[1]? = some _ from rfl), ?_, ?_, ?_,
      ?_⟩
    · decide +kernel
    · decide +kernel
    · unfold AttachedOnce
      decide +kernel
    · decide +kernel
    · decide +kernel
    · decide +kernel
    · decide +kernel
  obtain ⟨live, hlive, hlink⟩ := Option.map_eq_some_iff.mp hlive
  obtain ⟨c, hc, hphase⟩ := live?_eq_some.mp hlive
  obtain ⟨generation, hnext⟩ := run.attached hc hphase
  rw [hlink] at hnext
  rw [hc, Option.map_some, Option.some.injEq, Prod.mk.injEq] at hline
  obtain ⟨hqueue, hsends⟩ := issue_order_survives_reconnects run (by rw [htaken]; decide) hback
  exact ⟨history, p, c, run, htaken, hback, honce, hc, hline.1, hline.2, (hqueue c hc).2,
    hsends 9 1 honce hfirst, hsends 10 generation honce hnext, hold, hnew⟩

end ThreeCalls

end Pool

end RemoteCall
