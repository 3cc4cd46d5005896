/-
  RemoteCall.Proofs.Server.Attribution
  ────────────────────────────────────
  **WHOSE OUTCOME A CALL IS ANSWERED WITH.**

  If no call is handed over under the number of a rejected one whose resolution
  has not been taken up, then whatever the peer sends, the service does and
  order things happen in, a resolution that is taken up finds its own call
  outstanding, or none (`outcomes_go_to_their_own_calls`).

  The condition is needed.  A rejected call is answered at once, and its number
  is free.  If a call comes under the same number before the resolution of the
  rejected one has been taken up, then it is answered with that
  (`leftover_answers_another_call`).

  Main statements:
    • `Attributed.pumpFrom`, `Attributed.worked` — the frames of a buffer, a step,
    • `Run.attributed`                           — a run,
    • `outcomes_go_to_their_own_calls`           — the statement about runs.
-/
import RemoteCall.Proofs.Frame.RoundTrip
import RemoteCall.Proofs.Server.Trail

namespace RemoteCall.Worker

variable {σ : Type} {service : Service σ} {limits : EndpointConfig} {shutdown : Bool} {t : Trail}
  {w : Worker σ}

namespace Attributed

/-! ## §1. One frame. -/

/-- **A call is handed to the service**, if its number is free. -/
theorem dispatch (h : Attributed t w) (frame : RequestFrame)
    (hwaits : Waits (t.add (w.dispatch service limits shutdown frame).effects).log) :
    Attributed (t.add (w.dispatch service limits shutdown frame).effects)
      (w.dispatch service limits shutdown frame).worker := by
  cases hfree : w.outstanding? frame.sequence with
  | some ticket =>
    -- a number that is not free is a fault
    unfold Worker.dispatch
    dsimp only
    rw [hfree]
    dsimp only
    rw [t.add_of_quiet rfl rfl]
    exact h
  | none =>
    have hover := handedOver service shutdown frame w
    have hnext : (w.handOver service shutdown frame).nextTicket = w.nextTicket + 1 := rfl
    rw [dispatch_eq hfree] at hwaits ⊢
    dsimp only at hwaits ⊢
    generalize w.dispatchOf service shutdown frame = d at *
    generalize w.handOver service shutdown frame = w' at *
    cases hverdict : d.verdict with
    | ok _ =>
      rw [hverdict] at hwaits
      dsimp only at hwaits ⊢
      have hadd : t.add [d.effect] = t.hand d [] := rfl
      rw [hadd] at hwaits ⊢
      exact h.accept hwaits hfree hover hnext hverdict
    | error e =>
      rw [hverdict] at hwaits
      dsimp only at hwaits ⊢
      have hadd : t.add [d.effect, .finished d.call (.error e),
          .queued (.failure frame.sequence e)] = t.hand d [⟨d.call, .error e⟩] := rfl
      rw [hadd] at hwaits ⊢
      -- the call leaves the outstanding ones again, and no other does
      have hfreed : w'.outstanding.filter (·.1 != frame.sequence) = w.outstanding := by
        rw [hover.outstanding, hover.entry, List.filter_append, List.filter_cons_of_neg (by simp),
          List.filter_nil, List.append_nil, List.filter_eq_self]
        intro entry hentry
        simpa using ne_of_outstanding?_eq_none hfree hentry
      exact (h.reject hwaits hfree hover hnext hverdict hfreed).of_eq rfl rfl rfl

theorem checkVersion (h : Attributed t w) (service : Service σ) (limits : EndpointConfig)
    (frame : RequestFrame) :
    Attributed (t.add (w.checkVersion service limits frame).effects)
      (w.checkVersion service limits frame).worker := by
  unfold Worker.checkVersion
  cases w.version with
  | some expected =>
    dsimp only
    split
    · rw [t.add_of_quiet rfl rfl]
      exact h
    · rw [t.add_of_quiet rfl rfl]
      exact h
  | none =>
    dsimp only
    split
    · rw [t.add_of_quiet rfl rfl]
      exact h.of_eq rfl rfl rfl
    · rw [t.add_of_quiet rfl rfl]
      exact h.of_eq rfl rfl rfl

/-- **A frame is taken in.** -/
theorem takeIn (h : Attributed t w) (service : Service σ) (limits : EndpointConfig)
    (shutdown : Bool) (frame : RequestFrame)
    (hwaits : Waits (t.add (w.takeIn service limits shutdown frame).effects).log) :
    Attributed (t.add (w.takeIn service limits shutdown frame).effects)
      (w.takeIn service limits shutdown frame).worker := by
  have hchecked := h.checkVersion service limits frame
  unfold Worker.takeIn at hwaits ⊢
  generalize w.checkVersion service limits frame = checked at *
  obtain ⟨w', fault, effects⟩ := checked
  cases fault with
  | some e => exact hchecked
  | none =>
    cases hkind : frame.kind with
    | cancel => exact hchecked.revoke frame.sequence
    | call =>
      rw [hkind] at hwaits
      dsimp only at hwaits ⊢
      rw [Trail.add_append] at hwaits ⊢
      exact hchecked.dispatch frame hwaits

end Attributed

theorem Waits.of_add {t : Trail} {effects : List WorkerEffect} (h : Waits (t.add effects).log) :
    Waits t.log :=
  h.left

namespace Attributed

/-! ## §2. The frames of a buffer. -/

/-- **Frames are taken off a buffer.** -/
theorem pumpFrom (service : Service σ) (limits : EndpointConfig) (shutdown : Bool)
    (buffer : Bytes) {t : Trail} {w : Worker σ} (h : Attributed t w)
    (hwaits : Waits (t.add (w.pumpFrom service limits shutdown buffer).effects).log) :
    Attributed (t.add (w.pumpFrom service limits shutdown buffer).effects)
      (w.pumpFrom service limits shutdown buffer).worker := by
  -- each frame shortens the buffer
  induction hlength : buffer.length using Nat.strongRecOn generalizing buffer t w with
  | ind n ih =>
    rw [Worker.pumpFrom] at hwaits ⊢
    split
    · rw [t.add_of_quiet rfl rfl]
      exact h.revokeAll _
    · next hroom =>
      rw [if_neg hroom] at hwaits
      split
      · rw [t.add_of_quiet rfl rfl]
        exact h
      · rw [t.add_of_quiet rfl rfl]
        exact h
      · next frame rest hframe =>
        have htaken := h.takeIn service limits shutdown frame
        have hshorter : rest.length < n := hlength ▸ Frame.length_of_decodeWith hframe
        split at hwaits
        · next hmore => rw [hframe] at hmore; cases hmore
        · next hmore => rw [hframe] at hmore; cases hmore
        · next frame' rest' hframe' =>
          cases hframe.symm.trans hframe'
          generalize w.takeIn service limits shutdown frame = admitted at *
          obtain ⟨w', fault, effects⟩ := admitted
          cases fault with
          | some e => exact htaken hwaits
          | none =>
            dsimp only at htaken hwaits ⊢
            rw [Trail.add_append] at hwaits ⊢
            exact ih rest.length hshorter rest (htaken hwaits.of_add) hwaits rfl

theorem pump (h : Attributed t w)
    (hwaits : Waits (t.add (w.pump service limits shutdown).2).log) :
    Attributed (t.add (w.pump service limits shutdown).2)
      (w.pump service limits shutdown).1 := by
  have hpumped := h.pumpFrom service limits shutdown w.received
  unfold Worker.pump at hwaits ⊢
  generalize w.pumpFrom service limits shutdown w.received = pumped at *
  obtain ⟨w', buffer, fault, effects⟩ := pumped
  cases fault with
  | none => exact (hpumped hwaits).of_eq rfl rfl rfl
  | some e => exact (hpumped hwaits).of_eq rfl rfl rfl

/-- The calls that are left at the end are not handed over. -/
theorem refuseFrom (limits : EndpointConfig) (buffer : Bytes) {t : Trail} {w : Worker σ}
    (h : Attributed t w) :
    Attributed (t.add (w.refuseFrom limits buffer).effects)
      (w.refuseFrom limits buffer).worker := by
  induction hlength : buffer.length using Nat.strongRecOn generalizing buffer w with
  | ind n ih =>
    rw [Worker.refuseFrom]
    split
    · rw [t.add_of_quiet rfl rfl]
      exact h
    · rw [t.add_of_quiet rfl rfl]
      exact h
    · next frame rest hframe =>
      have hshorter : rest.length < n := hlength ▸ Frame.length_of_decodeWith hframe
      split
      · exact ih rest.length hshorter rest (h.revoke frame.sequence) rfl
      · dsimp only
        rw [Trail.add_append, t.add_of_quiet rfl rfl]
        exact ih rest.length hshorter rest (h.of_eq rfl rfl rfl) rfl

/-! ## §3. Steps and runs. -/

/-- **One step of the worker.** -/
theorem worked (h : Attributed t w) (event : Event) (held : List IncompleteCall)
    (hwaits : Waits ((t.note (⟨⟨w, shutdown, held⟩, .worked event⟩ : Moment σ).takenUp?).add
      (w.step service limits shutdown event).2).log) :
    Attributed ((t.note (⟨⟨w, shutdown, held⟩, .worked event⟩ : Moment σ).takenUp?).add
      (w.step service limits shutdown event).2) (w.step service limits shutdown event).1 := by
  cases event with
  | drained =>
    unfold step at hwaits ⊢
    unfold Moment.takenUp? at hwaits ⊢
    dsimp only at hwaits ⊢
    cases hcompletions : w.completions with
    | nil =>
      dsimp only [List.head?_nil]
      rw [Trail.note_none, t.add_of_quiet rfl rfl]
      exact h
    | cons done later =>
      rw [hcompletions] at hwaits
      dsimp only [List.head?_cons] at hwaits ⊢
      have htaken := h.takeUp limits hcompletions
      generalize ({ w with completions := later } : Worker σ).complete limits done = result at *
      obtain ⟨w', effects⟩ := result
      dsimp only at hwaits htaken ⊢
      -- a worker that reads may now take more frames, since a call has ended
      by_cases hreads : w'.reading = true
      · rw [if_pos hreads] at hwaits ⊢
        dsimp only at hwaits ⊢
        rw [Trail.add_append] at hwaits ⊢
        exact htaken.pump hwaits
      · rw [if_neg hreads]
        exact htaken
  | received chunk =>
    have hreceived : Attributed t { w with received := w.received ++ chunk } :=
      h.of_eq rfl rfl rfl
    rw [show (⟨⟨w, shutdown, held⟩, .worked (.received chunk)⟩ : Moment σ).takenUp? = none from rfl,
      Trail.note_none] at hwaits ⊢
    exact hreceived.pump hwaits
  | shutdown =>
    rw [show (⟨⟨w, shutdown, held⟩, .worked .shutdown⟩ : Moment σ).takenUp? = none from rfl,
      Trail.note_none]
    have hstopped : Attributed t { w with reading := false } := h.of_eq rfl rfl rfl
    exact (hstopped.refuseFrom limits w.received).of_eq rfl rfl rfl
  | lost =>
    rw [show (⟨⟨w, shutdown, held⟩, .worked .lost⟩ : Moment σ).takenUp? = none from rfl,
      Trail.note_none, Trail.add_of_quiet _ rfl rfl]
    exact h.of_eq rfl rfl rfl
  | wrote count =>
    rw [show (⟨⟨w, shutdown, held⟩, .worked (.wrote count)⟩ : Moment σ).takenUp? = none from rfl,
      Trail.note_none, Trail.add_of_quiet _ rfl rfl]
    exact h.of_eq rfl rfl rfl
  | writeFailed =>
    rw [show (⟨⟨w, shutdown, held⟩, .worked .writeFailed⟩ : Moment σ).takenUp? = none from rfl,
      Trail.note_none, Trail.add_of_quiet _ rfl rfl]
    exact h.of_eq rfl rfl rfl

end Attributed

section Runs

variable {history : List (Moment σ)} {s : Scene σ}

/-- What there is to tell of a run. -/
def trailOf (service : Service σ) (limits : EndpointConfig) (history : List (Moment σ))
    (s : Scene σ) : Trail where
  log := deedsOf service limits history
  finished := finishedIn (effectsOf service limits history)
  outside := history.filterMap (·.resolution?)
  held := s.held

/-- The calls that there are to tell of are those that the service was handed. -/
theorem handed_trailOf (service : Service σ) (limits : EndpointConfig)
    (history : List (Moment σ)) (s : Scene σ) :
    (trailOf service limits history s).handed = dispatchesIn (effectsOf service limits history) :=
  handedIn_deedsOf history

theorem resolutions_trailOf (service : Service σ) (limits : EndpointConfig)
    (history : List (Moment σ)) (s : Scene σ) :
    (trailOf service limits history s).resolutions = resolutionsOf service limits history := by
  unfold Trail.resolutions resolutionsOf
  rw [handed_trailOf]
  rfl

/-- A step of the worker adds what the worker has taken up and done. -/
theorem trailOf_worked (service : Service σ) (limits : EndpointConfig)
    (history : List (Moment σ)) (s : Scene σ) (event : Event) :
    trailOf service limits (history ++ [⟨s, .worked event⟩])
        (s.after service limits (.worked event)).1
      = ((trailOf service limits history s).note
          (⟨s, .worked event⟩ : Moment σ).takenUp?).add
            (s.worker.step service limits s.shutdown event).2 := by
  unfold trailOf Trail.add Trail.note
  rw [effectsOf_concat, deedsOf_concat, finishedIn_append, List.filterMap_append]
  have hnone : [(⟨s, .worked event⟩ : Moment σ)].filterMap (·.resolution?) = [] := rfl
  rw [hnone, List.append_nil, Moment.deeds, ← List.append_assoc]
  rfl

/-- Nothing is done at a moment at which the worker makes no step. -/
theorem deedsOf_idle (service : Service σ) (limits : EndpointConfig)
    (history : List (Moment σ)) {m : Moment σ} (htaken : m.takenUp? = none)
    (heffects : m.effects service limits = []) :
    deedsOf service limits (history ++ [m]) = deedsOf service limits history
      ∧ effectsOf service limits (history ++ [m]) = effectsOf service limits history := by
  rw [deedsOf_concat, effectsOf_concat, Moment.deeds, htaken, heffects]
  exact ⟨List.append_nil _, List.append_nil _⟩

/-- **After a run each call is where it belongs**, if calls wait for those that were rejected. -/
theorem Run.attributed (run : Run service limits history s)
    (hwaits : Waits (deedsOf service limits history)) :
    Attributed (trailOf service limits history s) s.worker := by
  induction run with
  | start peer => exact .new service peer
  | @next history s run occurrence hadmits ih =>
    have hbefore : Waits (deedsOf service limits history) := by
      rw [deedsOf_concat] at hwaits
      exact hwaits.left
    have h := ih hbefore
    cases occurrence with
    | signalled =>
      obtain ⟨hdeeds, heffects⟩ :=
        deedsOf_idle service limits history (m := ⟨s, .signalled⟩) rfl rfl
      unfold trailOf
      rw [hdeeds, heffects, List.filterMap_append]
      have hnone : [(⟨s, .signalled⟩ : Moment σ)].filterMap (·.resolution?) = [] := rfl
      rw [hnone, List.append_nil]
      exact h
    | worked event =>
      have hlog := congrArg Trail.log (trailOf_worked service limits history s event)
      replace hlog : deedsOf service limits (history ++ [⟨s, .worked event⟩]) = _ := hlog
      rw [hlog] at hwaits
      rw [trailOf_worked]
      exact h.worked event s.held hwaits
    | resolved call outcome =>
      obtain ⟨hdeeds, heffects⟩ :=
        deedsOf_idle service limits history (m := ⟨s, .resolved call outcome⟩) rfl rfl
      unfold trailOf
      rw [hdeeds, heffects, List.filterMap_append]
      exact h.resolve hadmits outcome

/-- What is taken up is the oldest in the queue. -/
theorem of_takenUp {m : Moment σ} {done : Completed} (htaken : m.takenUp? = some done) :
    m.occurrence = .worked .drained ∧ ∃ later, m.before.worker.completions = done :: later := by
  unfold Moment.takenUp? at htaken
  split at htaken
  · exact ⟨‹_›, List.head?_eq_some_iff.mp htaken⟩
  · cases htaken

/-- To take up a resolution whose call is outstanding is to end the call, and to answer it if the
peer is there. -/
theorem effects_of_takenUp {m : Moment σ} {done : Completed} {ticket : Ticket}
    (htaken : m.takenUp? = some done)
    (hfind : m.before.worker.outstanding? done.call.sequence = some ticket) :
    ∃ more, m.effects service limits
      = .finished done.call done.outcome :: (m.before.worker.answers done).map .queued ++ more := by
  obtain ⟨hdrained, later, hcompletions⟩ := of_takenUp htaken
  obtain ⟨⟨w, shutdown, held⟩, occurrence⟩ := m
  dsimp only at hdrained hcompletions hfind
  subst hdrained
  have hfind' : { w with completions := later }.outstanding? done.call.sequence = some ticket :=
    hfind
  unfold Moment.effects Scene.after step
  dsimp only
  rw [hcompletions]
  dsimp only
  rw [complete_eq hfind']
  dsimp only
  split
  · exact ⟨_, rfl⟩
  · exact ⟨[], (List.append_nil _).symm⟩

/-- **A resolution is taken up by its own call, or by none**, if calls wait for those that were
rejected. -/
theorem Run.own_of_takenUp (run : Run service limits history s)
    (hwaits : Waits (deedsOf service limits history)) {m : Moment σ} (hm : m ∈ history)
    {done : Completed} (htaken : m.takenUp? = some done) {ticket : Ticket}
    (hfind : m.before.worker.outstanding? done.call.sequence = some ticket) :
    ticket = done.call.ticket := by
  induction run with
  | start peer => cases hm
  | @next history s run occurrence hadmits ih =>
    have hbefore : Waits (deedsOf service limits history) := by
      rw [deedsOf_concat] at hwaits
      exact hwaits.left
    rcases List.mem_append.mp hm with hold | hlast
    · exact ih hbefore hold
    · obtain rfl := List.mem_singleton.mp hlast
      obtain ⟨-, later, hcompletions⟩ := of_takenUp htaken
      have hdone : done ∈ s.worker.completions := hcompletions ▸ List.mem_cons_self
      exact ((run.attributed hbefore).own_of_outstanding hdone hfind).1

/-- **Outcomes go to their own calls**, whatever stream the worker accepts and whatever the service
does, if no call is handed over under the number of a rejected call whose resolution has not been
taken up.  A resolution that is taken up finds its own call outstanding or none; if it finds its
call, the call ends with it and is answered with it.  Every call that was handed over is outstanding
or has ended, once, and has ended with its own outcome. -/
theorem outcomes_go_to_their_own_calls (run : Run service limits history s)
    (hwaits : Waits (deedsOf service limits history)) :
    let dispatched := dispatchesIn (effectsOf service limits history)
    let finished := finishedIn (effectsOf service limits history)
    let resolutions := resolutionsOf service limits history
    (∀ m ∈ history, ∀ done, m.takenUp? = some done →
        m.before.worker.outstanding? done.call.sequence = none
        ∨ m.before.worker.outstanding? done.call.sequence = some done.call.ticket
          ∧ ∃ more, m.effects service limits = .finished done.call done.outcome
            :: (m.before.worker.answers done).map .queued ++ more)
      ∧ (dispatched.map (·.call)).Nodup
      ∧ (resolutions.map (·.call)).Nodup
      ∧ (dispatched.map fun d => entryOf d.call).Perm
        (s.worker.outstanding ++ finished.map fun done => entryOf done.call)
      ∧ ∀ done ∈ finished, ∃ d ∈ dispatched, d.call = done.call
        ∧ ComesTo resolutions d done.outcome := by
  have h := run.attributed hwaits
  have hhanded : (trailOf service limits history s).handed
      = dispatchesIn (effectsOf service limits history) := handedIn_deedsOf history
  have hresolutions : (trailOf service limits history s).resolutions
      = resolutionsOf service limits history := by
    unfold Trail.resolutions resolutionsOf
    rw [hhanded]
    rfl
  refine ⟨fun m hm done htaken => ?_, hhanded ▸ h.distinct, ?_, hhanded ▸ h.entries,
    hhanded ▸ hresolutions ▸ h.outcomes⟩
  · cases hfind : m.before.worker.outstanding? done.call.sequence with
    | none => exact .inl rfl
    | some ticket =>
      refine .inr ⟨?_, effects_of_takenUp htaken hfind⟩
      rw [run.own_of_takenUp hwaits hm htaken hfind]
  · -- what was resolved is no more held, and what was handed over is in one place
    have hplaced := h.owed.nodup h.distinct
    rw [List.append_assoc] at hplaced
    have hwaiting := (List.nodup_append.mp hplaced).2.1
    have hresolved := h.resolved.map (·.call)
    rw [List.map_append] at hresolved
    rw [← hresolutions]
    exact hresolved.symm.nodup hwaiting

end Runs

/-- A service that rejects calls without a payload, and keeps all others. -/
def picky : Service Unit where
  supports version := version == defaultVersion
  connected _ := ()
  called _ incoming :=
    if incoming.payload.isEmpty then ⟨(), .dropped, .error (.invalidMessage "empty")⟩
    else ⟨(), .kept, .ok ()⟩

/-- The written form of a call that the picky service rejects. -/
def emptyCall : Bytes := (RequestFrame.call defaultVersion 0 []).bytes

/-- The written form of a call under the same number that it keeps. -/
def fullCall : Bytes := (RequestFrame.call defaultVersion 0 [7]).bytes

/-- A call is rejected, what is left of it is taken up, and a call comes under its number: it is
answered with its own outcome. -/
theorem outcomes_go_to_their_own_calls_when_numbers_wait :
    ∃ (history : List (Moment Unit)) (s : Scene Unit),
      Run picky {} history s ∧ Waits (deedsOf picky {} history)
      ∧ (dispatchesIn (effectsOf picky {} history)).map (·.call.sequence) = [0, 0]
      ∧ s.worker.outstanding = []
      ∧ (finishedIn (effectsOf picky {} history)).map (·.call)
        = [⟨0, 0, defaultVersion⟩, ⟨1, 0, defaultVersion⟩]
      ∧ ∀ done ∈ finishedIn (effectsOf picky {} history),
        ∃ d ∈ dispatchesIn (effectsOf picky {} history), d.call = done.call
          ∧ ComesTo (resolutionsOf picky {} history) d done.outcome := by
  have start : Run picky {} [] _ := .start (.unix ⟨"/agent"⟩)
  have rejected := start.next (.worked (.received emptyCall)) (by decide +kernel)
  have emptied := rejected.next (.worked .drained) (by decide +kernel)
  have accepted := emptied.next (.worked (.received fullCall)) (by decide +kernel)
  have resolved := accepted.next (.resolved ⟨1, 0, defaultVersion⟩ (.ok [9])) (by decide +kernel)
  have drained := resolved.next (.worked .drained) (by decide +kernel)
  have hown := outcomes_go_to_their_own_calls drained (by decide +kernel)
  exact ⟨_, _, drained, by decide +kernel, by decide +kernel, by decide +kernel,
    by decide +kernel, hown.2.2.2.2⟩

/-- **What is left of a rejected call answers another call.**  A call is rejected and dropped, and
another comes under its number before what is left of the first has been taken up.  When it is, it
ends the second call, which has not been resolved and is still held. -/
theorem leftover_answers_another_call :
    ∃ (history : List (Moment Unit)) (s : Scene Unit) (m : Moment Unit)
      (first second : IncompleteCall),
      Run picky {} history s ∧ m ∈ history ∧ m.takenUp?.map (·.call) = some first
      ∧ m.before.worker.outstanding? first.sequence = some second.ticket
      ∧ second.ticket ≠ first.ticket
      ∧ second ∈ s.held ∧ s.worker.outstanding = []
      ∧ (queuedIn (effectsOf picky {} history)).map (·.sequence)
        = [second.sequence, second.sequence] := by
  have start : Run picky {} [] _ := .start (.unix ⟨"/agent"⟩)
  have arrived := start.next (.worked (.received (emptyCall ++ fullCall))) (by decide +kernel)
  have drained := arrived.next (.worked .drained) (by decide +kernel)
  exact ⟨_, _, _, ⟨0, 0, defaultVersion⟩, ⟨1, 0, defaultVersion⟩, drained,
    List.mem_append_right _ (List.mem_singleton_self _), by decide +kernel, by decide +kernel,
    by decide +kernel, by decide +kernel, by decide +kernel, by decide +kernel⟩

end RemoteCall.Worker
