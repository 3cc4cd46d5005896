/-
  RemoteCall.Proofs.Pool.Ordering
  ───────────────────────────────
  **A CONNECTION KEEPS ITS CALLS IN ORDER.**

  The calls of a connection stand in one line, those in flight before those that
  wait.  Whatever happens, one call joins the end of the line, or some leave it
  and the others keep their places:

      asked        a call joins the end
      sent         from the head of the queue to the end of those in flight
      lost         those in flight come before the queue again
      otherwise    some leave, none moves

  Calls that a response sends back are the exception (`Pool.Moment.sentBack`):
  they join the end of the queue, and may have been issued before others that
  wait.

  A loss takes those in flight by age and not by place
  (`Connection.inFlightByAge`), so it is only of a line in the order of issue
  that it moves none (`Connection.InOrder.inFlightByAge_eq`).

  Main statements:
    • `Ledger.ids_chargeAll`       — charging moves no call,
    • `Connection.Steps.order`     — what becomes of the line at each step,
    • `Live.sentAhead_flush`       — frames are handed over in the order of the queue,
    • `Connection.sentAhead_advance` — and the queue that is left comes after them.
-/
import RemoteCall.Proofs.Pool.Handing
import RemoteCall.Proofs.Pool.Reaping

namespace RemoteCall

/-! ## §1. The line of a connection. -/

/-- A call that is given back keeps its place. -/
theorem Ledger.ids_chargeAll (limit : UInt32) (e : Failure) (calls : List PendingCall)
    (l : Ledger) : ((chargeAll limit e calls l).1.map (·.id)).Sublist (calls.map (·.id)) := by
  induction calls generalizing l with
  | nil => exact List.Sublist.refl _
  | cons call rest ih =>
    unfold chargeAll
    split
    · exact (ih l).cons call.id
    · split
      · exact (ih _).cons call.id
      · exact (ih l).cons_cons call.id

theorem Ledger.ids_unsettled (l : Ledger) (calls : List PendingCall) :
    ((l.unsettled calls).map (·.id)).Sublist (calls.map (·.id)) :=
  List.filter_sublist.map _

namespace Connection

variable {env : Surroundings} {config : PoolConfig} {now : Time} {c c' : Connection} {l : Ledger}
  {live live' : Live} {effects : List Effect} {frame : ResponseFrame}

/-- The calls are in the order in which they were issued, those in flight before those that
wait. -/
def InOrder (c : Connection) : Prop :=
  (c.calls.map (·.id)).Pairwise (· < ·)

theorem inOrder_iff : c.InOrder ↔ (c.inFlight.map (·.id)).Pairwise (· < ·)
    ∧ (c.waiting.map (·.id)).Pairwise (· < ·) ∧ ∀ a ∈ c.inFlight, ∀ b ∈ c.waiting, a.id < b.id := by
  unfold InOrder calls
  rw [List.map_append, List.pairwise_append]
  simp only [List.forall_mem_map]

theorem calls_asked (c : Connection) (call : PendingCall) :
    calls { c with waiting := c.waiting ++ [call] } = c.calls ++ [call] :=
  (List.append_assoc _ _ _).symm

/-- A call with a number above all others joins the end. -/
theorem InOrder.asked (h : c.InOrder) {call : PendingCall} (hlt : ∀ x ∈ c.calls, x.id < call.id) :
    InOrder { c with waiting := c.waiting ++ [call] } := by
  unfold InOrder
  rw [calls_asked, List.map_append, List.pairwise_append]
  refine ⟨h, List.pairwise_singleton _ _, fun id hid other hother => ?_⟩
  obtain ⟨x, hx, rfl⟩ := List.mem_map.mp hid
  rw [List.mem_singleton.mp hother]
  exact hlt x hx

/-- **By age is by place**, if the calls are in order. -/
theorem InOrder.inFlightByAge_eq (h : c.InOrder) : c.inFlightByAge = c.inFlight := by
  obtain ⟨hflight, -, -⟩ := inOrder_iff.mp h
  refine List.mergeSort_of_pairwise ((List.pairwise_map.mp hflight).imp fun hlt => ?_)
  exact decide_eq_true (Nat.le_of_lt hlt)

/-- Some calls leave, and the others keep their places, in the whole line and in the queue of a
link. -/
structure Thins (c c' : Connection) : Prop where
  calls : (c'.calls.map (·.id)).Sublist (c.calls.map (·.id))
  waiting : ∀ live live', c.phase = .connected live → c'.phase = .connected live' →
    (c'.waiting.map (·.id)).Sublist (c.waiting.map (·.id))

theorem InOrder.of_thins (h : c.InOrder) (hthins : c.Thins c') : c'.InOrder :=
  List.Pairwise.sublist hthins.calls h

/-- No call comes to those in flight or to the queue. -/
theorem thins_of_sublist (hflight : c'.inFlight.Sublist c.inFlight)
    (hwaiting : c'.waiting.Sublist c.waiting) : c.Thins c' :=
  ⟨(hflight.append hwaiting).map _, fun _ _ _ _ => hwaiting.map _⟩

/-- There is no link any more. -/
theorem thins_of_over (hlive : c'.live? = none)
    (hcalls : (c'.waiting.map (·.id)).Sublist (c.calls.map (·.id))) : c.Thins c' := by
  refine ⟨?_, fun _ live' _ hphase' => ?_⟩
  · rw [calls_of_live?_eq_none hlive]
    exact hcalls
  · rw [live?_of_phase hphase'] at hlive
    cases hlive

/-- A call is taken out of flight. -/
theorem thins_takeOut (hphase : c.phase = .connected live) (n : SequenceNumber) :
    c.Thins { c with phase := .connected (live.takeOut n) } := by
  refine thins_of_sublist ?_ (List.Sublist.refl _)
  rw [inFlight_of_connected hphase]
  exact List.filter_sublist.map _

/-- **A failure moves no call**: those in flight come before the queue, as they did. -/
theorem ids_lose (h : c.InOrder) (config : PoolConfig) (e : Failure) (l : Ledger) :
    ((c.lose config e l).connection.waiting.map (·.id)).Sublist (c.calls.map (·.id)) := by
  cases hlive? : c.live? with
  | none =>
    rw [lose_attempt hlive?, calls_of_live?_eq_none hlive?]
    exact Ledger.ids_chargeAll _ e c.waiting l
  | some live =>
    have hphase := phase_of_live? hlive?
    unfold calls
    rw [List.map_append]
    cases he : e.isProtocol || e.isVersionRejection with
    | true =>
      rw [lose_at_fault hphase he]
      exact (Ledger.ids_unsettled _ c.waiting).trans (List.sublist_append_right _ _)
    | false =>
      rw [lose_link hphase he, h.inFlightByAge_eq]
      dsimp only
      rw [List.map_append]
      exact (Ledger.ids_chargeAll _ e c.inFlight l).append (Ledger.ids_unsettled _ c.waiting)

theorem thins_lose (h : c.InOrder) (config : PoolConfig) (e : Failure) (l : Ledger) :
    c.Thins (c.lose config e l).connection :=
  thins_of_over (live?_lose e l) (ids_lose h config e l)

/-- **A response that sends no call back moves none.** -/
theorem thins_respond (h : c.InOrder)
    (hback : c.paysForResponse config frame l ++ c.refusedBy frame = []) :
    c.Thins (c.respond config frame l).connection := by
  obtain ⟨hpays, hrefused⟩ := List.append_eq_nil_iff.mp hback
  have hresponded := responded config frame c l
  generalize c.respond config frame l = moved at *
  cases hresponded with
  | ignored _ => exact thins_of_sublist (List.Sublist.refl _) (List.Sublist.refl _)
  | dropped hphase _ =>
    refine thins_of_sublist ?_ (List.Sublist.refl _)
    rw [inFlight_of_connected hphase]
    exact List.Sublist.refl _
  | delivered hfinds _ _ | unreadable hfinds _ _ _ | failed hfinds _ _ _ =>
    exact thins_takeOut hfinds.phase _
  | retried hfinds hresult hreads hbudget =>
    rw [paysForResponse_of_not_reads config hfinds hresult hreads, if_pos hbudget] at hpays
    cases hpays
  | refused hfinds hresult hrefusal =>
    rw [refusedBy_of_finds hfinds hresult hrefusal] at hrefused
    cases hrefused
  | rejected hfinds _ _ _ =>
    -- one call is answered, and the link is lost
    have htaken := thins_takeOut hfinds.phase frame.sequence
    exact thins_of_over (live?_lose _ _)
      ((ids_lose (h.of_thins htaken) config _ _).trans htaken.calls)

theorem thins_cancel {id : CallId} {sent : List Effect}
    (hcancel : c.cancel? env id = some (c', sent)) : c.Thins c' := by
  cases letGo hcancel with
  | waiting => exact thins_of_sublist (List.Sublist.refl _) List.eraseP_sublist
  | inFlight hphase _ _ => exact thins_takeOut hphase _

theorem thins_reconsider (h : c.InOrder) (env : Surroundings) (config : PoolConfig) (now : Time)
    (l : Ledger) : c.Thins (c.reconsider env config now l).connection := by
  have hreconsidered := reconsidered env config now c l
  generalize c.reconsider env config now l = moved at *
  cases hreconsidered with
  | kept _ => exact thins_of_sublist (List.Sublist.refl _) (List.Sublist.refl _)
  | withdrawn _ _ =>
    exact thins_of_over (live?_lose _ _) (ids_lose (c := { c with looking := false }) h config _ l)
  | restarted _ => exact thins_of_sublist (List.nil_sublist _) (List.Sublist.refl _)

/-- **Doing what is due moves no call**: those that are sent go from the head of the queue to the
end of those in flight. -/
theorem thins_advance (h : c.NumberedIn effects) (env : Surroundings) (config : PoolConfig)
    (now : Time) (l : Ledger) : c.Thins (c.advance env config now l).connection := by
  constructor
  · refine ((h.sublist_advance env config now l).map _).trans ?_
    rw [calls_expire]
    exact Ledger.ids_unsettled _ c.calls
  · intro live live' hphase _
    obtain ⟨idleSince, hnoted⟩ := noteDemand_eq
      ((c.sought env config now l).1.flush env config (c.expire env now l).ledger).1 now
    have hsent := ((numberedIn_sought env config now h l).sublist_flush env config
      (c.expire env now l).ledger).2
    rw [advance_eq, hnoted]
    refine (hsent.map _).trans ?_
    rw [sought_of_connected hphase]
    exact Ledger.ids_unsettled _ c.waiting

end Connection

namespace Pool

variable {p : Pool} {m : Moment} {key : ConnectionKey} {c c' : Connection} {effects : List Effect}
  {env : Surroundings} {now : Time} {frame : ResponseFrame}

/-- The calls of the connection for a key that a response sends back to the queue: it cannot be
read, or the agent is shutting down. -/
def Moment.sentBack (key : ConnectionKey) (m : Moment) : List PendingCall :=
  match m.event, m.before.connection? key with
  | .look _ _ (.notice (.response other generation frame)), some c =>
    if other = key ∧ generation = c.generation then
      c.paysForResponse m.before.config frame m.before.ledger ++ c.refusedBy frame
    else []
  | _, _ => []

theorem Moment.sentBack_of_response (hc : m.before.connection? key = some c)
    (hevent : m.event = .look env now (.notice (.response key c.generation frame))) :
    m.sentBack key
      = c.paysForResponse m.before.config frame m.before.ledger ++ c.refusedBy frame := by
  unfold sentBack
  rw [hevent, hc]
  exact if_pos ⟨rfl, rfl⟩

end Pool

/-- **What becomes of the line of a connection**: a call joins its end, or some leave and none
moves. -/
theorem Connection.Steps.order {m : Pool.Moment} {c c' : Connection} {effects : List Effect}
    (h : c.Steps m.before m.event c') (hc : m.before.connection? c.key = some c)
    (horder : c.InOrder) (hnumbered : c.NumberedIn effects) (hback : m.sentBack c.key = []) :
    (∃ env now call, m.event = .look env now (.command (.call c.key call))
        ∧ c' = { c with waiting := c.waiting ++ [call] })
      ∨ c.Thins c' := by
  have hsame : ∀ {d : Connection}, d.inFlight = c.inFlight → d.waiting = c.waiting → c.Thins d :=
    fun hflight hwaiting =>
      thins_of_sublist (hflight ▸ List.Sublist.refl _) (hwaiting ▸ List.Sublist.refl _)
  cases h with
  | stays | kept _ => exact .inr (hsame rfl rfl)
  | asked hevent _ => exact .inl ⟨_, _, _, hevent, rfl⟩
  | letGo _ hcancel => exact .inr (thins_cancel hcancel)
  | attached _ _ => exact .inr (thins_of_sublist (List.nil_sublist _) (List.Sublist.refl _))
  | responded hevent _ =>
    rw [Pool.Moment.sentBack_of_response hc hevent] at hback
    exact .inr (thins_respond horder hback)
  | attemptFailed _ _ _ | linkFailed _ _ _ => exact .inr (thins_lose horder _ _ _)
  | reconsidered _ _ => exact .inr (thins_reconsider horder _ _ _ _)
  | advanced _ _ => exact .inr (thins_advance hnumbered _ _ _ _)

/-! ## §2. Frames. -/

/-- The number of the call whose frame this is, unless it is sent a second time or cancelled, and
whether the writer takes the frame. -/
def Handed.original? : Handed → Option (CallId × Bool)
  | .original _ call taken => some (call.id, taken)
  | .duplicate _ _ _ | .cancel _ _ _ => none

/-- The calls that are sent by these frames, in order, and whether the writer takes the frame. -/
def originalsIn (frames : List Handed) : List (CallId × Bool) := frames.filterMap (·.original?)

@[simp] theorem originalsIn_append (xs ys : List Handed) :
    originalsIn (xs ++ ys) = originalsIn xs ++ originalsIn ys :=
  List.filterMap_append

/-- What has been sent comes before a call: it has a lower number, or it is the same call, and the
writer has not taken its frame. -/
def Precedes (sent : CallId × Bool) (id : CallId) : Prop :=
  sent.1 < id ∨ sent.2 = false ∧ sent.1 = id

/-- Calls have been sent in order, and those that wait come after them. -/
structure SentAhead (sent : List (CallId × Bool)) (waiting : List CallId) : Prop where
  ordered : sent.Pairwise fun x y => Precedes x y.1
  ahead : ∀ x ∈ sent, ∀ id ∈ waiting, Precedes x id

namespace SentAhead

variable {sent more : List (CallId × Bool)} {waiting waiting' : List CallId} {id : CallId}

theorem of_subset (h : SentAhead sent waiting) (hsub : waiting' ⊆ waiting) :
    SentAhead sent waiting' :=
  ⟨h.ordered, fun x hx id hid => h.ahead x hx id (hsub hid)⟩

/-- A call joins the end of the queue. -/
theorem concat (h : SentAhead sent waiting) (hlt : ∀ x ∈ sent, x.1 < id) :
    SentAhead sent (waiting ++ [id]) := by
  refine ⟨h.ordered, fun x hx other hother => ?_⟩
  rcases List.mem_append.mp hother with hold | hnew
  · exact h.ahead x hx other hold
  · rw [List.mem_singleton.mp hnew]
    exact .inl (hlt x hx)

/-- **Calls of the queue are sent.** -/
theorem append (h : SentAhead sent waiting) (hmore : SentAhead more waiting')
    (hids : ∀ x ∈ more, x.1 ∈ waiting) (hsub : waiting' ⊆ waiting) :
    SentAhead (sent ++ more) waiting' := by
  refine ⟨List.pairwise_append.mpr ⟨h.ordered, hmore.ordered, fun x hx y hy => ?_⟩,
    fun x hx id hid => ?_⟩
  · exact h.ahead x hx y.1 (hids y hy)
  · exact (List.mem_append.mp hx).elim (fun hold => h.ahead x hold id (hsub hid))
      fun hnew => hmore.ahead x hnew id hid

/-- **No call is taken by the writer twice, and none before one of a lower number.** -/
theorem taken (h : SentAhead sent waiting) :
    ((sent.filter (·.2)).map (·.1)).Pairwise (· < ·) := by
  rw [List.pairwise_map]
  refine (h.ordered.filter _).imp_of_mem fun {x y} hx _ hprecedes => ?_
  obtain ⟨-, htaken⟩ := List.mem_filter.mp hx
  rcases hprecedes with hlt | ⟨hrefused, -⟩
  · exact hlt
  · rw [hrefused] at htaken
    cases htaken

end SentAhead

theorem sentAhead_nil (waiting : List CallId) : SentAhead [] waiting :=
  ⟨List.Pairwise.nil, fun _ hx => absurd hx List.not_mem_nil⟩

namespace Live

/-- A second frame is not the original. -/
theorem originalsIn_again (env : Surroundings) (config : PoolConfig) (interface : UInt32)
    (live : Live) (call : PendingCall) :
    originalsIn (live.again env config interface call) = [] := by
  unfold again
  split <;> rfl

theorem originalsIn_cancels (env : Surroundings) (interface : UInt32) (ledger : Ledger)
    (live : Live) : originalsIn (live.cancels env interface ledger) = [] := by
  unfold originalsIn cancels
  rw [List.filterMap_map, List.filterMap_eq_nil_iff]
  exact fun _ _ => rfl

/-- **Sending takes the queue from its head**: the frames are for calls of the queue, in its order,
and the calls that still wait come after them. -/
theorem sentAhead_flush (env : Surroundings) (config : PoolConfig) (interface : UInt32)
    (ledger : Ledger) (waiting : List PendingCall) (live : Live)
    (hsorted : (waiting.map (·.id)).Pairwise (· < ·)) :
    SentAhead (originalsIn (live.sends env config interface ledger waiting))
        ((live.flush env config interface ledger waiting).waiting.map (·.id))
      ∧ (∀ x ∈ originalsIn (live.sends env config interface ledger waiting),
          x.1 ∈ waiting.map (·.id))
      ∧ (live.flush env config interface ledger waiting).waiting ⊆ waiting := by
  induction waiting generalizing live with
  | nil => exact ⟨sentAhead_nil _, nofun, List.Subset.refl _⟩
  | cons call rest ih =>
    rw [List.map_cons] at hsorted ⊢
    obtain ⟨hfirst, hrest⟩ := List.pairwise_cons.mp hsorted
    cases hfin : ledger.isFinished call.id with
    | true =>
      rw [flush_finished hfin, sends_finished hfin]
      obtain ⟨hahead, hids, hsub⟩ := ih live hrest
      exact ⟨hahead, fun x hx => List.mem_cons_of_mem _ (hids x hx),
        List.subset_cons_of_subset _ hsub⟩
    | false =>
      cases htakes : env.takes live.link (.call interface live.next call.request) with
      | true =>
        obtain ⟨hahead, hids, hsub⟩ := ih (live.transmit env config interface call).1 hrest
        have hsent : originalsIn (live.sends env config interface ledger (call :: rest))
            = (call.id, true) :: originalsIn
              ((live.transmit env config interface call).1.sends env config interface ledger rest)
            := by
          rw [sends_taken hfin htakes]
          show (call.id, true) :: originalsIn (_ ++ _) = _
          rw [originalsIn_append, originalsIn_again, List.nil_append]
        rw [flush_taken hfin htakes, hsent]
        dsimp only
        -- the first of the queue is below all others, sent or not
        refine ⟨⟨List.pairwise_cons.mpr ⟨fun y hy => .inl (hfirst _ (hids y hy)), hahead.ordered⟩,
          fun x hx id hid => ?_⟩, fun x hx => ?_, List.subset_cons_of_subset _ hsub⟩
        · rcases List.mem_cons.mp hx with rfl | hx
          · exact .inl (hfirst id (List.map_subset _ hsub hid))
          · exact hahead.ahead x hx id hid
        · rcases List.mem_cons.mp hx with rfl | hx
          · exact List.mem_cons_self
          · exact List.mem_cons_of_mem _ (hids x hx)
      | false =>
        rw [flush_refused hfin htakes, sends_refused hfin htakes]
        refine ⟨⟨List.pairwise_singleton _ _, fun x hx id hid => ?_⟩, fun x hx => ?_,
          List.Subset.refl _⟩
        · -- the frame is lost, and its call is still the first
          obtain rfl := List.mem_singleton.mp hx
          rcases List.mem_cons.mp hid with rfl | hid
          · exact .inr ⟨rfl, rfl⟩
          · exact .inl (hfirst id hid)
        · obtain rfl := List.mem_singleton.mp hx
          exact List.mem_cons_self

end Live

/-- **What is due is done**: calls of the queue are sent in order, and those that still wait come
after them. -/
theorem Connection.sentAhead_advance {c : Connection} {live : Live}
    (hphase : c.phase = .connected live) (horder : c.InOrder) (env : Surroundings)
    (config : PoolConfig) (now : Time) (l : Ledger) :
    SentAhead (originalsIn (c.handed env config now live.link l))
        ((c.advance env config now l).connection.waiting.map (·.id))
      ∧ ∀ x ∈ originalsIn (c.handed env config now live.link l), x.1 ∈ c.waiting.map (·.id) := by
  obtain ⟨-, hwaiting, -⟩ := inOrder_iff.mp horder
  have hopen := (c.expire env now l).ledger.ids_unsettled c.waiting
  obtain ⟨idleSince, hnoted⟩ :=
    noteDemand_eq ((c.sought env config now l).1.flush env config (c.expire env now l).ledger).1 now
  rw [advance_eq, hnoted, sought_of_connected hphase, handed_of_connected hphase,
    originalsIn_append, Live.originalsIn_cancels, List.nil_append]
  cases hdraining : live.draining with
  | true => exact ⟨sentAhead_nil _, nofun⟩
  | false =>
    rw [flush_of_connected (show _ = Phase.connected (live.forget _) from rfl) hdraining,
      if_neg Bool.false_ne_true]
    obtain ⟨hahead, hids, -⟩ := Live.sentAhead_flush env config c.key.interface
      (c.expire env now l).ledger ((c.expire env now l).ledger.unsettled c.waiting)
      (live.forget (c.expire env now l).ledger) (hwaiting.sublist hopen)
    exact ⟨hahead, fun x hx => hopen.subset (hids x hx)⟩

end RemoteCall
