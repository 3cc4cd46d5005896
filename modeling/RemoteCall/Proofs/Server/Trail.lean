/-
  RemoteCall.Proofs.Server.Trail
  ──────────────────────────────
  **WHAT BECOMES OF A SEQUENCE NUMBER.**

  A peer may use a sequence number again when nothing is outstanding under it.
  A call that the service rejects is answered at once, and its number is free at
  once; yet its resolution is still to come.

  The log of a worker tells of the calls that it has handed to the service and
  of the resolutions that it has taken up.  Let no call be handed over under the
  number of a rejected one whose resolution has not been taken up (`Waits`).
  Then of the calls under one number one at most has not been taken up, and the
  outstanding calls are the accepted ones that have not (`Attributed`).  There is
  one lemma for each thing that may happen to a call.

  Main statements:
    • `waits_of_accepted`, `waits_of_distinct` — when no call need wait,
    • `Attributed.accept`, `Attributed.reject` — a call is handed over,
    • `Attributed.own_of_outstanding`          — a resolution finds its own call,
    • `Attributed.takeUp`                      — a resolution is taken up.
-/
import RemoteCall.Proofs.Server.Standing

namespace RemoteCall.Worker

variable {σ : Type} {service : Service σ} {limits : EndpointConfig} {shutdown : Bool}

/-! ## §1. The log of a worker. -/

/-- What the log of a worker tells of. -/
inductive Deed where
  /-- A call was handed to the service. -/
  | handed (d : Dispatch)
  /-- A resolution was taken up. -/
  | tookUp (done : Completed)

/-- The call that was handed over. -/
def Deed.handed? : Deed → Option Dispatch
  | .handed d => some d
  | .tookUp _ => none

/-- The resolution that was taken up. -/
def Deed.tookUp? : Deed → Option Completed
  | .handed _ => none
  | .tookUp done => some done

/-- The calls that were handed to the service, in order. -/
def handedIn (log : List Deed) : List Dispatch := log.filterMap (·.handed?)

/-- The resolutions that were taken up, in order. -/
def takenUpIn (log : List Deed) : List Completed := log.filterMap (·.tookUp?)

/-- The calls whose resolution was taken up, in order. -/
def settledIn (log : List Deed) : List IncompleteCall := (takenUpIn log).map (·.call)

/-- The resolution that the worker takes up at a moment. -/
def Moment.takenUp? (m : Moment σ) : Option Completed :=
  match m.occurrence with
  | .worked .drained => m.before.worker.completions.head?
  | _ => none

/-- What the log tells of a moment.  A resolution is taken up before frames are taken. -/
def Moment.deeds (service : Service σ) (limits : EndpointConfig) (m : Moment σ) : List Deed :=
  (m.takenUp?.map .tookUp).toList ++ (dispatchesIn (m.effects service limits)).map .handed

/-- The log of a run. -/
def deedsOf (service : Service σ) (limits : EndpointConfig) (history : List (Moment σ)) :
    List Deed :=
  history.flatMap (·.deeds service limits)

/-- No call is handed over under the number of a rejected call whose resolution has not been taken
up. -/
def Waits (log : List Deed) : Prop :=
  ∀ {before : List Deed} {d : Dispatch} {after : List Deed}, log = before ++ .handed d :: after →
    ∀ rejected ∈ handedIn before, rejected.verdict ≠ .ok () →
      rejected.call.sequence = d.call.sequence → rejected.call ∈ settledIn before

@[simp] theorem handedIn_append (xs ys : List Deed) :
    handedIn (xs ++ ys) = handedIn xs ++ handedIn ys :=
  List.filterMap_append

@[simp] theorem settledIn_append (xs ys : List Deed) :
    settledIn (xs ++ ys) = settledIn xs ++ settledIn ys := by
  unfold settledIn takenUpIn
  rw [List.filterMap_append, List.map_append]

@[simp] theorem handedIn_map_handed (ds : List Dispatch) : handedIn (ds.map .handed) = ds := by
  unfold handedIn
  rw [List.filterMap_map]
  exact List.filterMap_some

@[simp] theorem dispatchesIn_map_queued (frames : List ResponseFrame) :
    dispatchesIn (frames.map .queued) = [] := by
  unfold dispatchesIn
  rw [List.filterMap_map, List.filterMap_eq_nil_iff]
  exact fun _ _ => rfl

@[simp] theorem finishedIn_map_queued (frames : List ResponseFrame) :
    finishedIn (frames.map .queued) = [] := by
  unfold finishedIn
  rw [List.filterMap_map, List.filterMap_eq_nil_iff]
  exact fun _ _ => rfl

theorem deedsOf_concat (history : List (Moment σ)) (m : Moment σ) :
    deedsOf service limits (history ++ [m])
      = deedsOf service limits history ++ m.deeds service limits := by
  simp [deedsOf]

/-- The log tells of all calls that were handed over. -/
theorem handedIn_deedsOf (history : List (Moment σ)) :
    handedIn (deedsOf service limits history)
      = dispatchesIn (effectsOf service limits history) := by
  induction history with
  | nil => rfl
  | cons m history ih =>
    have hfirst : handedIn (m.deeds service limits) = dispatchesIn (m.effects service limits) := by
      unfold Moment.deeds
      rw [handedIn_append, handedIn_map_handed]
      cases m.takenUp? <;> rfl
    have hdeeds : deedsOf service limits (m :: history)
        = m.deeds service limits ++ deedsOf service limits history := List.flatMap_cons
    have heffects : effectsOf service limits (m :: history)
        = m.effects service limits ++ effectsOf service limits history := List.flatMap_cons
    rw [hdeeds, heffects, handedIn_append, dispatchesIn_append, hfirst, ih]

/-- Whether all calls wait can be read off the positions of the log. -/
theorem waits_iff (log : List Deed) :
    Waits log ↔ ∀ i < log.length, ∀ d ∈ log[i]?.bind (·.handed?),
      ∀ rejected ∈ handedIn (log.take i), rejected.verdict ≠ .ok () →
        rejected.call.sequence = d.call.sequence → rejected.call ∈ settledIn (log.take i) := by
  constructor
  · intro h i hi d hd
    obtain ⟨deed, hget, hhanded⟩ := Option.bind_eq_some_iff.mp hd
    have hdeed : log[i] = .handed d := by
      rw [List.getElem?_eq_getElem hi, Option.some.injEq] at hget
      rw [hget]
      cases deed with
      | handed d' => exact congrArg Deed.handed (Option.some.inj hhanded)
      | tookUp _ => cases hhanded
    have hsplit : log = log.take i ++ .handed d :: log.drop (i + 1) := by
      rw [← hdeed, List.getElem_cons_drop, List.take_append_drop]
    exact h hsplit
  · rintro h before d after rfl
    have hhere := h before.length (by simp) d (by simp [Deed.handed?])
    rw [List.take_left] at hhere
    exact hhere

instance (log : List Deed) : Decidable (Waits log) :=
  decidable_of_iff _ (waits_iff log).symm

theorem Waits.left {xs ys : List Deed} (h : Waits (xs ++ ys)) : Waits xs := by
  intro before d after heq
  have hsplit : xs ++ ys = before ++ .handed d :: (after ++ ys) := by
    rw [heq, List.append_assoc]
    rfl
  exact h hsplit

/-- The next call to be handed over waits. -/
theorem Waits.next {log : List Deed} {d : Dispatch} (h : Waits (log ++ [.handed d]))
    {rejected : Dispatch} (hr : rejected ∈ handedIn log) (hverdict : rejected.verdict ≠ .ok ())
    (hsame : rejected.call.sequence = d.call.sequence) : rejected.call ∈ settledIn log :=
  h rfl rejected hr hverdict hsame

/-- **Where the service rejects no call, none need wait.** -/
theorem waits_of_accepted {log : List Deed} (h : ∀ d ∈ handedIn log, d.verdict = .ok ()) :
    Waits log := by
  rintro before d after rfl rejected hr hverdict -
  refine absurd (h rejected ?_) hverdict
  rw [handedIn_append]
  exact List.mem_append_left _ hr

/-- **Where no two calls have the same number, none need wait.** -/
theorem waits_of_distinct {log : List Deed} (h : ((handedIn log).map (·.call.sequence)).Nodup) :
    Waits log := by
  rintro before d after rfl rejected hr - hsame
  rw [handedIn_append, List.map_append] at h
  have hlast : d.call.sequence ∈ (handedIn (.handed d :: after)).map (·.call.sequence) :=
    List.mem_cons_self
  exact absurd hsame ((List.nodup_append.mp h).2.2 _ (List.mem_map_of_mem hr) _ hlast)

/-! ## §2. Calls and what has become of them. -/

/-- What there is to tell of a worker. -/
structure Trail where
  /-- Its log. -/
  log : List Deed := []
  /-- The calls that are outstanding no more. -/
  finished : List Completed := []
  /-- How others than the service have resolved calls. -/
  outside : List Completed := []
  /-- The calls that the service has kept and that have not been resolved. -/
  held : List IncompleteCall := []

namespace Trail

/-- The calls that were handed over. -/
def handed (t : Trail) : List Dispatch := handedIn t.log

/-- The resolutions that were taken up. -/
def takenUp (t : Trail) : List Completed := takenUpIn t.log

/-- The calls whose resolution was taken up. -/
def settled (t : Trail) : List IncompleteCall := settledIn t.log

/-- How the calls have been resolved: by the service, and by others. -/
def resolutions (t : Trail) : List Completed :=
  t.handed.filterMap (·.resolution?) ++ t.outside

/-- What there is to tell when the worker has done some more. -/
def add (t : Trail) (effects : List WorkerEffect) : Trail :=
  { t with
    log := t.log ++ (dispatchesIn effects).map .handed
    finished := t.finished ++ finishedIn effects
    held := t.held ++ (dispatchesIn effects).filterMap (·.kept?) }

theorem add_of_quiet (t : Trail) {effects : List WorkerEffect} (h : dispatchesIn effects = [])
    (h' : finishedIn effects = []) : t.add effects = t := by
  simp [add, h, h']

theorem add_append (t : Trail) (xs ys : List WorkerEffect) :
    t.add (xs ++ ys) = (t.add xs).add ys := by
  simp [add]

end Trail

/-- Each call that was handed over is in one place: it is held, or its resolution waits in the
queue, or it has been taken up. -/
structure Placed (t : Trail) (w : Worker σ) : Prop where
  tickets : ∀ d ∈ t.handed, d.call.ticket < w.nextTicket
  distinct : (t.handed.map (·.call)).Nodup
  owed : (t.handed.map (·.call)).Perm (t.held ++ w.completions.map (·.call) ++ t.settled)
  /-- What was resolved waits in the queue, or was taken up. -/
  resolved : t.resolutions.Perm (w.completions ++ t.takenUp)

/-- A call is outstanding exactly if it was accepted and has not been taken up, and of all calls
under one number one at most has not been taken up. -/
structure Attributed (t : Trail) (w : Worker σ) : Prop extends Placed t w where
  keys : (w.outstanding.map (·.1)).Nodup
  /-- What was handed over is outstanding or finished. -/
  entries : (t.handed.map fun d => entryOf d.call).Perm
    (w.outstanding ++ t.finished.map fun done => entryOf done.call)
  outstanding_iff : ∀ d ∈ t.handed, entryOf d.call ∈ w.outstanding ↔
    d.verdict = .ok () ∧ d.call ∉ t.settled
  alone : ∀ d ∈ t.handed, ∀ d' ∈ t.handed, d.call.sequence = d'.call.sequence →
    d.call ∉ t.settled → d'.call ∉ t.settled → d = d'
  /-- What is finished has come to its own outcome. -/
  outcomes : ∀ done ∈ t.finished, ∃ d ∈ t.handed, d.call = done.call
    ∧ ComesTo t.resolutions d done.outcome

variable {t : Trail} {w w' : Worker σ} {d : Dispatch} {frame : RequestFrame}

theorem Placed.of_eq (h : Placed t w) (hcompletions : w'.completions = w.completions)
    (hnext : w'.nextTicket = w.nextTicket) : Placed t w' :=
  ⟨hnext ▸ h.tickets, h.distinct, hcompletions ▸ h.owed, hcompletions ▸ h.resolved⟩

/-- What waits in the queue is a resolution. -/
theorem Placed.mem_resolutions (h : Placed t w) {done : Completed} (hdone : done ∈ w.completions) :
    done ∈ t.resolutions :=
  h.resolved.symm.subset (List.mem_append_left _ hdone)

namespace Attributed

theorem new (service : Service σ) (peer : PeerName) :
    Attributed {} (.new service peer : Worker σ) where
  tickets _ hd := by cases hd
  distinct := List.nodup_nil
  owed := .refl _
  resolved := .refl _
  keys := List.nodup_nil
  entries := .refl _
  outstanding_iff _ hd := by cases hd
  alone _ hd := by cases hd
  outcomes _ hdone := by cases hdone

/-- What is not told of is left alone. -/
theorem of_eq (h : Attributed t w) (houtstanding : w'.outstanding = w.outstanding)
    (hcompletions : w'.completions = w.completions) (hnext : w'.nextTicket = w.nextTicket) :
    Attributed t w' where
  toPlaced := h.toPlaced.of_eq hcompletions hnext
  keys := houtstanding ▸ h.keys
  entries := houtstanding ▸ h.entries
  outstanding_iff := houtstanding ▸ h.outstanding_iff
  alone := h.alone
  outcomes := h.outcomes

theorem revoke (h : Attributed t w) (n : SequenceNumber) : Attributed t (w.revoke n) := by
  unfold Worker.revoke
  split
  · exact h.of_eq rfl rfl rfl
  · exact h

theorem revokeAll (h : Attributed t w) (ns : List SequenceNumber) :
    Attributed t (w.revokeAll ns) := by
  unfold Worker.revokeAll
  induction ns generalizing w with
  | nil => exact h
  | cons n ns ih => exact ih (h.revoke n)

/-- Whatever is outstanding was handed over. -/
theorem handed_of_outstanding (h : Attributed t w) {entry : SequenceNumber × Ticket}
    (hmem : entry ∈ w.outstanding) : ∃ d ∈ t.handed, entryOf d.call = entry := by
  obtain ⟨d, hd, heq⟩ := List.mem_map.mp (h.entries.symm.subset (List.mem_append_left _ hmem))
  exact ⟨d, hd, heq⟩

end Attributed

/-! ## §3. A call is handed over. -/

/-- Nothing is outstanding under a number that is free. -/
theorem ne_of_outstanding?_eq_none {n : SequenceNumber} (hfree : w.outstanding? n = none)
    {entry : SequenceNumber × Ticket} (hmem : entry ∈ w.outstanding) : entry.1 ≠ n := by
  unfold outstanding? at hfree
  rw [Option.map_eq_none_iff, List.find?_eq_none] at hfree
  simpa using hfree entry hmem

/-- The trail of a worker that has handed over a call. -/
def Trail.hand (t : Trail) (d : Dispatch) (finished : List Completed) : Trail :=
  { t with
    log := t.log ++ [.handed d]
    finished := t.finished ++ finished
    held := t.held ++ [d].filterMap (·.kept?) }

@[simp] theorem Trail.handed_hand (t : Trail) (d : Dispatch) (finished : List Completed) :
    (t.hand d finished).handed = t.handed ++ [d] :=
  handedIn_append t.log [.handed d]

@[simp] theorem Trail.settled_hand (t : Trail) (d : Dispatch) (finished : List Completed) :
    (t.hand d finished).settled = t.settled :=
  (settledIn_append t.log [.handed d]).trans (List.append_nil _)

@[simp] theorem Trail.takenUp_hand (t : Trail) (d : Dispatch) (finished : List Completed) :
    (t.hand d finished).takenUp = t.takenUp :=
  List.filterMap_append.trans (List.append_nil _)

theorem perm_append_right_comm {α : Type} (xs ys zs : List α) :
    (xs ++ ys ++ zs).Perm (xs ++ zs ++ ys) := by
  rw [List.append_assoc, List.append_assoc]
  exact List.perm_append_comm.append_left xs

/-- The service may have resolved the new call. -/
theorem Trail.resolutions_hand (t : Trail) (d : Dispatch) (finished : List Completed) :
    (t.hand d finished).resolutions.Perm (t.resolutions ++ [d].filterMap (·.resolution?)) := by
  unfold Trail.resolutions
  rw [handed_hand, List.filterMap_append]
  exact perm_append_right_comm _ _ t.outside

/-- A new call goes to those that are held, or to those that wait in the queue. -/
theorem perm_deal {α : Type} [DecidableEq α] (held queue settled kept resolved : List α) :
    (held ++ queue ++ settled ++ (kept ++ resolved)).Perm
      (held ++ kept ++ (queue ++ resolved) ++ settled) := by
  refine List.perm_iff_count.mpr fun a => ?_
  simp only [List.count_append]
  omega

/-- The ticket of a call that is handed over now is new. -/
theorem Placed.notMem_handed (h : Placed t w) (hover : HandedOver frame d w w') :
    d.call ∉ t.handed.map (·.call) := by
  intro hmem
  obtain ⟨d', hd', heq⟩ := List.mem_map.mp hmem
  have hlt := h.tickets d' hd'
  rw [heq, show d.call.ticket = w.nextTicket from congrArg Prod.snd hover.entry] at hlt
  exact Nat.lt_irrefl _ hlt

/-- **A call that is handed over is held, or waits in the queue.** -/
theorem Placed.hand (h : Placed t w) (hover : HandedOver frame d w w')
    (hnext : w'.nextTicket = w.nextTicket + 1) (finished : List Completed) :
    Placed (t.hand d finished) w' := by
  constructor
  · intro d' hd'
    rw [Trail.handed_hand] at hd'
    rw [hnext]
    rcases List.mem_append.mp hd' with hold | hlast
    · exact Nat.lt_succ_of_lt (h.tickets d' hold)
    · rw [List.mem_singleton.mp hlast,
        show d.call.ticket = w.nextTicket from congrArg Prod.snd hover.entry]
      exact Nat.lt_succ_self _
  · rw [Trail.handed_hand, List.map_append]
    refine List.nodup_append.mpr ⟨h.distinct, List.nodup_singleton _, ?_⟩
    rintro a ha b hb rfl
    rw [List.mem_singleton.mp hb] at ha
    exact h.notMem_handed hover ha
  · rw [Trail.handed_hand, Trail.settled_hand, List.map_append, hover.completions,
      List.map_append]
    exact (h.owed.append d.perm_kept_resolved).trans (perm_deal _ _ _ _ _)
  · rw [hover.completions, Trail.takenUp_hand]
    refine (t.resolutions_hand d finished).trans ((h.resolved.append_right _).trans ?_)
    exact perm_append_right_comm _ _ _

namespace Attributed

/-- What was handed over under a number that is free has been taken up, if calls wait for those
that were rejected. -/
theorem settled_of_free (h : Attributed t w) (hwaits : Waits (t.log ++ [.handed d]))
    (hfree : w.outstanding? d.call.sequence = none) {d' : Dispatch} (hd' : d' ∈ t.handed)
    (hsame : d'.call.sequence = d.call.sequence) : d'.call ∈ t.settled := by
  by_cases hverdict : d'.verdict = .ok ()
  · -- an accepted call that was not taken up would be outstanding
    refine Classical.byContradiction fun hopen => ?_
    have hentry := (h.outstanding_iff d' hd').mpr ⟨hverdict, hopen⟩
    exact ne_of_outstanding?_eq_none hfree hentry hsame
  · exact hwaits.next hd' hverdict hsame

/-- A call that is handed over now is the only one under its number that was not taken up. -/
theorem alone_hand (h : Attributed t w) (hwaits : Waits (t.log ++ [.handed d]))
    (hfree : w.outstanding? d.call.sequence = none) (finished : List Completed) :
    ∀ x ∈ (t.hand d finished).handed, ∀ y ∈ (t.hand d finished).handed,
      x.call.sequence = y.call.sequence → x.call ∉ (t.hand d finished).settled →
        y.call ∉ (t.hand d finished).settled → x = y := by
  intro x hx y hy hsame hopen hopen'
  rw [Trail.handed_hand, List.mem_append, List.mem_singleton] at hx hy
  rw [Trail.settled_hand] at hopen hopen'
  rcases hx with hx | rfl
  · rcases hy with hy | rfl
    · exact h.alone x hx y hy hsame hopen hopen'
    · exact absurd (h.settled_of_free hwaits hfree hx hsame) hopen
  · rcases hy with hy | rfl
    · exact absurd (h.settled_of_free hwaits hfree hy hsame.symm) hopen'
    · rfl

/-- What came to its outcome before has come to it. -/
theorem outcomes_hand (h : Attributed t w) (finished : List Completed) {done : Completed}
    (hdone : done ∈ t.finished) : ∃ d' ∈ (t.hand d finished).handed, d'.call = done.call
      ∧ ComesTo (t.hand d finished).resolutions d' done.outcome := by
  obtain ⟨d', hd', hcall, hgives⟩ := h.outcomes done hdone
  refine ⟨d', ?_, hcall, hgives.mono fun _ hmem => ?_⟩
  on_goal 2 => exact (t.resolutions_hand d finished).symm.subset (List.mem_append_left _ hmem)
  rw [Trail.handed_hand]
  exact List.mem_append_left _ hd'

/-- A call that is handed over now has not been taken up. -/
theorem notMem_settled (h : Attributed t w) (hover : HandedOver frame d w w') :
    d.call ∉ t.settled := fun hmem =>
  h.notMem_handed hover (h.owed.symm.subset (List.mem_append_right _ hmem))

/-- **The service accepts a call**, which is outstanding then. -/
theorem accept (h : Attributed t w) (hwaits : Waits (t.log ++ [.handed d]))
    (hfree : w.outstanding? frame.sequence = none) (hover : HandedOver frame d w w')
    (hnext : w'.nextTicket = w.nextTicket + 1) (hverdict : d.verdict = .ok ()) :
    Attributed (t.hand d []) w' := by
  have hsequence : d.call.sequence = frame.sequence := congrArg Prod.fst hover.entry
  rw [← hsequence] at hfree
  refine ⟨h.toPlaced.hand hover hnext [], ?_, ?_, ?_, h.alone_hand hwaits hfree [], ?_⟩
  · rw [hover.outstanding, List.map_append]
    refine List.nodup_append.mpr ⟨h.keys, List.nodup_singleton _, ?_⟩
    rintro n hn m hm rfl
    obtain ⟨entry, hentry, rfl⟩ := List.mem_map.mp hn
    exact ne_of_outstanding?_eq_none hfree hentry (List.mem_singleton.mp hm)
  · -- outstanding calls stand before the finished ones, so the new entry moves over these
    rw [Trail.handed_hand, hover.outstanding, List.map_append]
    show List.Perm _ (_ ++ (t.finished ++ []).map _)
    rw [List.append_nil, List.append_assoc]
    refine (h.entries.append_right _).trans ?_
    rw [List.append_assoc]
    exact List.perm_append_comm.append_left _
  · intro d' hd'
    rw [Trail.handed_hand] at hd'
    rw [Trail.settled_hand, hover.outstanding, List.mem_append, List.mem_singleton]
    rcases List.mem_append.mp hd' with hold | hlast
    · rw [← h.outstanding_iff d' hold, or_iff_left]
      -- another call has another ticket
      intro heq
      have hlt := h.tickets d' hold
      have hticket : d'.call.ticket = w.nextTicket :=
        congrArg Prod.snd (heq.trans hover.entry)
      exact Nat.lt_irrefl _ (hticket ▸ hlt)
    · rw [List.mem_singleton.mp hlast]
      exact ⟨fun _ => ⟨hverdict, h.notMem_settled hover⟩, fun _ => .inr rfl⟩
  · intro done hdone
    exact h.outcomes_hand [] (List.append_nil t.finished ▸ hdone)

/-- **The service rejects a call**, which is finished at once; its number is free. -/
theorem reject (h : Attributed t w) (hwaits : Waits (t.log ++ [.handed d]))
    (hfree : w.outstanding? frame.sequence = none) (hover : HandedOver frame d w w')
    (hnext : w'.nextTicket = w.nextTicket + 1) {e : Failure} (hverdict : d.verdict = .error e)
    {outstanding : List (SequenceNumber × Ticket)} (hsame : outstanding = w.outstanding) :
    Attributed (t.hand d [⟨d.call, .error e⟩]) { w' with outstanding } := by
  have hsequence : d.call.sequence = frame.sequence := congrArg Prod.fst hover.entry
  rw [← hsequence] at hfree
  subst hsame
  refine ⟨(h.toPlaced.hand hover hnext _).of_eq rfl rfl, h.keys, ?_, ?_,
    h.alone_hand hwaits hfree _, ?_⟩
  · rw [Trail.handed_hand, List.map_append]
    show List.Perm _ (_ ++ (t.finished ++ [(⟨d.call, .error e⟩ : Completed)]).map _)
    rw [List.map_append, ← List.append_assoc]
    exact h.entries.append_right _
  · intro d' hd'
    rw [Trail.handed_hand] at hd'
    rw [Trail.settled_hand]
    rcases List.mem_append.mp hd' with hold | hlast
    · exact h.outstanding_iff d' hold
    · -- the call itself is not accepted, and nothing is outstanding under its number
      rw [List.mem_singleton.mp hlast]
      refine ⟨fun hmem => absurd rfl (ne_of_outstanding?_eq_none hfree hmem), fun hok => ?_⟩
      rw [hverdict] at hok
      exact absurd hok.1 (by simp)
  · intro done hdone
    rcases List.mem_append.mp hdone with hold | hlast
    · exact h.outcomes_hand _ hold
    · rw [List.mem_singleton.mp hlast]
      refine ⟨d, ?_, rfl, ?_⟩
      · rw [Trail.handed_hand]
        exact List.mem_append_right _ (List.mem_singleton_self d)
      · unfold ComesTo
        rw [hverdict]

end Attributed

/-! ## §4. A resolution is taken up. -/

/-- The trail of a worker that may have taken up a resolution. -/
def Trail.note (t : Trail) (taken : Option Completed) : Trail :=
  { t with log := t.log ++ (taken.map .tookUp).toList }

theorem Trail.note_none (t : Trail) : t.note none = t := by
  simp [note]

@[simp] theorem Trail.handed_note (t : Trail) (taken : Option Completed) :
    (t.note taken).handed = t.handed := by
  unfold handed note
  rw [handedIn_append]
  cases taken <;> exact List.append_nil _

@[simp] theorem Trail.settled_note (t : Trail) (done : Completed) :
    (t.note (some done)).settled = t.settled ++ [done.call] :=
  settledIn_append t.log [.tookUp done]

@[simp] theorem Trail.takenUp_note (t : Trail) (done : Completed) :
    (t.note (some done)).takenUp = t.takenUp ++ [done] :=
  List.filterMap_append

@[simp] theorem Trail.resolutions_note (t : Trail) (taken : Option Completed) :
    (t.note taken).resolutions = t.resolutions := by
  unfold resolutions
  rw [handed_note]
  rfl

/-- The first call in the queue goes to those that were taken up. -/
theorem perm_take {α : Type} [DecidableEq α] (held queue settled : List α) (first : α) :
    (held ++ first :: queue ++ settled).Perm (held ++ queue ++ (settled ++ [first])) := by
  refine List.perm_iff_count.mpr fun a => ?_
  rw [← List.singleton_append]
  simp only [List.count_append]
  omega

/-- **A resolution leaves the queue.** -/
theorem Placed.note {done : Completed} {later : List Completed} (h : Placed t w)
    (hcompletions : w.completions = done :: later) :
    Placed (t.note (some done)) { w with completions := later } := by
  refine ⟨?_, ?_, ?_, ?_⟩
  · rw [Trail.handed_note]
    exact h.tickets
  · rw [Trail.handed_note]
    exact h.distinct
  · have howed := h.owed
    rw [hcompletions, List.map_cons] at howed
    rw [Trail.handed_note, Trail.settled_note]
    exact howed.trans (perm_take _ _ _ _)
  · have hresolved := h.resolved
    rw [hcompletions] at hresolved
    rw [Trail.resolutions_note, Trail.takenUp_note, ← List.append_assoc]
    exact hresolved.trans (List.perm_append_singleton _ _).symm

/-- A call whose resolution waits in the queue was handed over, and has not been taken up. -/
theorem Placed.handed_of_completions (h : Placed t w) {done : Completed}
    (hdone : done ∈ w.completions) :
    done.call ∉ t.settled ∧ ∃ d ∈ t.handed, d.call = done.call := by
  have hwaiting : done.call ∈ t.held ++ w.completions.map (·.call) :=
    List.mem_append_right _ (List.mem_map_of_mem hdone)
  refine ⟨fun hsettled => ?_, ?_⟩
  · exact (List.nodup_append.mp (h.owed.nodup h.distinct)).2.2 _ hwaiting _ hsettled rfl
  · obtain ⟨d, hd, heq⟩ := List.mem_map.mp (h.owed.symm.subset (List.mem_append_left _ hwaiting))
    exact ⟨d, hd, heq⟩

namespace Attributed

/-- **A resolution finds its own call outstanding**, if it finds one. -/
theorem own_of_outstanding (h : Attributed t w) {done : Completed} (hdone : done ∈ w.completions)
    {ticket : Ticket} (hfind : w.outstanding? done.call.sequence = some ticket) :
    ticket = done.call.ticket
      ∧ ∃ d ∈ t.handed, d.call = done.call ∧ d.verdict = .ok () := by
  have hentry := mem_of_find?_key hfind
  obtain ⟨hopen, d, hd, hcall⟩ := h.handed_of_completions hdone
  obtain ⟨d', hd', heq⟩ := h.handed_of_outstanding hentry
  obtain ⟨haccepted, hopen'⟩ := (h.outstanding_iff d' hd').mp (heq ▸ hentry)
  -- neither has been taken up, so they are the same call
  have hsame : d'.call.sequence = d.call.sequence := by
    rw [hcall]
    exact congrArg Prod.fst heq
  obtain rfl := h.alone d' hd' d hd hsame hopen' (hcall ▸ hopen)
  refine ⟨?_, d', hd, hcall, haccepted⟩
  rw [← hcall]
  exact (congrArg Prod.snd heq).symm

/-- A resolution whose call is outstanding no more is dropped. -/
theorem drop (h : Attributed t w) {done : Completed} {later : List Completed}
    (hcompletions : w.completions = done :: later)
    (hfree : w.outstanding? done.call.sequence = none) :
    Attributed (t.note (some done)) { w with completions := later } := by
  refine ⟨h.toPlaced.note hcompletions, h.keys, ?_, ?_, ?_, ?_⟩
  · rw [Trail.handed_note]
    exact h.entries
  · intro d hd
    rw [Trail.handed_note] at hd
    rw [Trail.settled_note, List.mem_append, List.mem_singleton]
    refine ⟨fun hmem => ?_, fun hopen => ?_⟩
    · obtain ⟨haccepted, hopen⟩ := (h.outstanding_iff d hd).mp hmem
      refine ⟨haccepted, not_or.mpr ⟨hopen, fun heq => ?_⟩⟩
      exact ne_of_outstanding?_eq_none hfree hmem (congrArg IncompleteCall.sequence heq)
    · exact (h.outstanding_iff d hd).mpr ⟨hopen.1, (not_or.mp hopen.2).1⟩
  · intro x hx y hy hsame hopen hopen'
    rw [Trail.handed_note] at hx hy
    rw [Trail.settled_note, List.mem_append, not_or] at hopen hopen'
    exact h.alone x hx y hy hsame hopen.1 hopen'.1
  · rw [Trail.handed_note, Trail.resolutions_note]
    exact h.outcomes

/-- **A resolution is taken up by its own call**, which is finished. -/
theorem finish (h : Attributed t w) {done : Completed} {later : List Completed}
    (hcompletions : w.completions = done :: later) {ticket : Ticket}
    (hfind : w.outstanding? done.call.sequence = some ticket) :
    Attributed { t.note (some done) with finished := t.finished ++ [done] }
      { w with
        completions := later
        outstanding := w.outstanding.filter (·.1 != done.call.sequence) } := by
  have hdone : done ∈ w.completions := hcompletions ▸ List.mem_cons_self
  obtain ⟨rfl, d, hd, hcall, haccepted⟩ := h.own_of_outstanding hdone hfind
  have hopen := (h.handed_of_completions hdone).1
  obtain ⟨htickets, hdistinct, howed, hresolved⟩ := h.toPlaced.note hcompletions
  refine ⟨⟨htickets, hdistinct, howed, hresolved⟩, ?_, ?_, ?_, ?_, ?_⟩
  · exact h.keys.sublist (List.filter_sublist.map _)
  · -- the entry of the call leaves the outstanding ones; no other has its number
    have hout := perm_cons_filter_of_nodup h.keys (mem_of_find?_key hfind)
    show List.Perm ((t.note (some done)).handed.map _) (_ ++ (t.finished ++ [done]).map _)
    rw [Trail.handed_note, List.map_append, ← List.append_assoc]
    refine h.entries.trans ((hout.append_right _).trans ?_)
    exact (List.perm_append_singleton _ _).symm
  · intro d' hd'
    replace hd' : d' ∈ t.handed := Trail.handed_note t _ ▸ hd'
    show entryOf d'.call ∈ w.outstanding.filter _ ↔ _ ∧ d'.call ∉ (t.note (some done)).settled
    rw [Trail.settled_note, List.mem_append, List.mem_singleton, List.mem_filter,
      h.outstanding_iff d' hd']
    refine ⟨fun ⟨⟨hok, hopen'⟩, hne⟩ => ⟨hok, not_or.mpr ⟨hopen', ?_⟩⟩,
      fun ⟨hok, hopen'⟩ => ⟨⟨hok, (not_or.mp hopen').1⟩, ?_⟩⟩
    · rintro heq
      exact absurd (congrArg IncompleteCall.sequence heq) (by simpa [entryOf] using hne)
    · -- under the number of the call, all others have been taken up
      have hne : d'.call.sequence ≠ done.call.sequence := by
        intro heq
        have hsame := h.alone d' hd' d hd (heq.trans (hcall ▸ rfl)) (not_or.mp hopen').1
          (hcall ▸ hopen)
        exact (not_or.mp hopen').2 (hsame ▸ hcall)
      simpa [entryOf] using hne
  · intro x hx y hy hsame hx' hy'
    replace hx : x ∈ t.handed := Trail.handed_note t _ ▸ hx
    replace hy : y ∈ t.handed := Trail.handed_note t _ ▸ hy
    replace hx' : x.call ∉ (t.note (some done)).settled := hx'
    replace hy' : y.call ∉ (t.note (some done)).settled := hy'
    rw [Trail.settled_note, List.mem_append, not_or] at hx' hy'
    exact h.alone x hx y hy hsame hx'.1 hy'.1
  · show ∀ other ∈ t.finished ++ [done], ∃ d ∈ (t.note (some done)).handed, d.call = other.call
      ∧ ComesTo (t.note (some done)).resolutions d other.outcome
    rw [Trail.handed_note, Trail.resolutions_note]
    intro other hother
    rcases List.mem_append.mp hother with hold | hlast
    · exact h.outcomes other hold
    · rw [List.mem_singleton.mp hlast]
      refine ⟨d, hd, hcall, ?_⟩
      unfold ComesTo
      rw [haccepted]
      exact hcall ▸ h.mem_resolutions hdone

/-- **The oldest resolution is taken up.** -/
theorem takeUp (h : Attributed t w) (limits : EndpointConfig) {done : Completed}
    {later : List Completed} (hcompletions : w.completions = done :: later) :
    Attributed ((t.note (some done)).add
        ({ w with completions := later }.complete limits done).2)
      ({ w with completions := later }.complete limits done).1 := by
  cases hfind : w.outstanding? done.call.sequence with
  | none =>
    have hfind' : { w with completions := later }.outstanding? done.call.sequence = none := hfind
    rw [complete_eq_self hfind', Trail.add_of_quiet _ rfl rfl]
    exact h.drop hcompletions hfind
  | some ticket =>
    have hfind' : { w with completions := later }.outstanding? done.call.sequence = some ticket :=
      hfind
    rw [complete_eq hfind']
    have hadd : ∀ frames : List ResponseFrame,
        (t.note (some done)).add (.finished done.call done.outcome :: frames.map .queued)
          = { t.note (some done) with finished := t.finished ++ [done] } := by
      intro frames
      rw [← List.singleton_append, Trail.add_append]
      rw [Trail.add_of_quiet _ (dispatchesIn_map_queued frames) (finishedIn_map_queued frames)]
      simp [Trail.add, Trail.note, dispatchesIn, finishedIn, dispatch?, finished?]
    dsimp only
    rw [hadd]
    exact (h.finish hcompletions hfind).of_eq rfl rfl rfl

/-- **A call that is held is resolved.** -/
theorem resolve (h : Attributed t w) {call : IncompleteCall} (hheld : call ∈ t.held)
    (outcome : Outcome Bytes) :
    Attributed { t with outside := t.outside ++ [⟨call, outcome⟩], held := t.held.erase call }
      (w.resolve call outcome) := by
  have hresolutions : Trail.resolutions
      { t with outside := t.outside ++ [⟨call, outcome⟩], held := t.held.erase call }
        = t.resolutions ++ [⟨call, outcome⟩] := by
    unfold Trail.resolutions
    rw [List.append_assoc]
    rfl
  refine ⟨⟨h.tickets, h.distinct, ?_, ?_⟩, h.keys, h.entries, h.outstanding_iff, h.alone, ?_⟩
  · -- the call moves from those that are held to the end of the queue
    show List.Perm (t.handed.map _)
      (t.held.erase call ++ (w.completions ++ [(⟨call, outcome⟩ : Completed)]).map _ ++ t.settled)
    rw [List.map_append]
    refine h.owed.trans (.append_right _ ?_)
    refine ((List.perm_cons_erase hheld).append_right _).trans ?_
    rw [← List.append_assoc]
    exact (List.perm_append_singleton _ _).symm
  · rw [hresolutions]
    exact (h.resolved.append_right _).trans (perm_append_right_comm _ _ _)
  · rw [hresolutions]
    intro done hdone
    obtain ⟨d, hd, hcall, hgives⟩ := h.outcomes done hdone
    exact ⟨d, hd, hcall, hgives.mono fun _ => List.mem_append_left _⟩

end Attributed

end RemoteCall.Worker
