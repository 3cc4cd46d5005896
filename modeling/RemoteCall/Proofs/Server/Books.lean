/-
  RemoteCall.Proofs.Server.Books
  ──────────────────────────────
  **THE BOOKS OF A WORKER.**

  Every call that a worker takes off its stream is either handed to the service
  or turned away with a failure.  A call that was handed over is held by the
  service or has been resolved; and it is outstanding or has been finished, and
  then it is answered:

      calls taken  =  dispatched ++ turned away
      dispatched   ~  held ++ resolved
      dispatched   ~  outstanding ++ finished
      queued       ~  finished ++ turned away

  The sequence numbers of the calls are distinct, so a resolution that comes
  late finds its own call outstanding, or none (`Books`).  There is one lemma
  for each thing that may happen to a call.

  Main statements:
    • `Books.accept`, `Books.finish`  — a call is handed over, and answered,
    • `Books.turn`                    — a call is turned away,
    • `Books.resolve`, `Books.complete` — a resolution is made, and taken up.
-/
import RemoteCall.Proofs.Keyed
import RemoteCall.Proofs.PartOf
import RemoteCall.Proofs.Server.Run

namespace RemoteCall

/-- The frames that ask for calls. -/
def callsIn (frames : List RequestFrame) : List RequestFrame :=
  frames.filter (·.kind == .call)

@[simp] theorem callsIn_append (xs ys : List RequestFrame) :
    callsIn (xs ++ ys) = callsIn xs ++ callsIn ys :=
  List.filter_append xs ys

/-- What a request asks the service: a number, a version and a payload. -/
def RequestFrame.asks (frame : RequestFrame) : SequenceNumber × UInt32 × Bytes :=
  (frame.sequence, frame.version, frame.payload)

namespace Worker

/-- What the service was asked. -/
def Dispatch.asks (d : Dispatch) : SequenceNumber × UInt32 × Bytes :=
  (d.call.sequence, d.call.interface, d.incoming.payload)

/-- The number of a call, and the dispatch that it is outstanding for. -/
def entryOf (call : IncompleteCall) : SequenceNumber × Ticket :=
  (call.sequence, call.ticket)

/-- The answer that the end of a call amounts to. -/
def answerTo (done : Completed) : ResponseFrame :=
  .ofOutcome done.call.sequence done.outcome

/-- The answer to a frame that is turned away. -/
def refusalOf (x : RequestFrame × Failure) : ResponseFrame :=
  .failure x.1.sequence x.2

/-- What a worker has done. -/
structure Tally where
  /-- The frames that it has taken off its stream. -/
  taken : List RequestFrame := []
  /-- Those of them that it has turned away, and why. -/
  turned : List (RequestFrame × Failure) := []
  /-- The calls that it has handed to the service. -/
  dispatched : List Dispatch := []
  /-- Those of them that are outstanding no more. -/
  finished : List Completed := []
  /-- The responses that it has queued. -/
  queued : List ResponseFrame := []
  /-- How others than the service have resolved calls. -/
  outside : List Completed := []
  /-- The calls that the service has kept and that have not been resolved. -/
  held : List IncompleteCall := []

/-- How the calls have been resolved: by the service, and by others. -/
def Tally.resolutions (t : Tally) : List Completed :=
  t.dispatched.filterMap (·.resolution?) ++ t.outside

/-- A dispatch comes to an outcome: the failure that it was rejected for, or else the resolution of
its call. -/
def ComesTo (resolutions : List Completed) (d : Dispatch) (outcome : Outcome Bytes) : Prop :=
  match d.verdict with
  | .error e => outcome = .error e
  | .ok _ => (⟨d.call, outcome⟩ : Completed) ∈ resolutions

/-- What a dispatch has come to stays when more calls are resolved. -/
theorem ComesTo.mono {resolutions more : List Completed} {d : Dispatch} {outcome : Outcome Bytes}
    (h : ComesTo resolutions d outcome) (hmore : ∀ done ∈ resolutions, done ∈ more) :
    ComesTo more d outcome := by
  unfold ComesTo at h ⊢
  split at h
  · exact h
  · exact hmore _ h

/-- The service keeps a call, or has resolved it. -/
theorem Dispatch.perm_kept_resolved (d : Dispatch) :
    [d.call].Perm ([d].filterMap (·.kept?) ++ ([d].filterMap (·.resolution?)).map (·.call)) := by
  unfold kept? resolution?
  cases hres : d.fate.resolution? with
  | none =>
    simp only [List.filterMap_cons, hres, Option.map_none, List.filterMap_nil, List.map_nil,
      List.append_nil]
    exact .refl _
  | some outcome =>
    simp only [List.filterMap_cons, hres, Option.map_some, List.filterMap_nil, List.map_cons,
      List.map_nil, List.nil_append]
    exact .refl _

variable {σ : Type}

/-- The books of a worker. -/
structure Books (t : Tally) (w : Worker σ) : Prop where
  /-- A call is dispatched or turned away. -/
  calls : t.dispatched.map (·.asks) ++ (callsIn (t.turned.map (·.1))).map (·.asks)
    = (callsIn t.taken).map (·.asks)
  /-- What was dispatched is held or resolved. -/
  owed : (t.dispatched.map (·.call)).Perm (t.held ++ t.resolutions.map (·.call))
  /-- What waits in the queue is a resolution. -/
  pending : ∀ done ∈ w.completions, done ∈ t.resolutions
  /-- What was dispatched is outstanding or finished. -/
  entries : (t.dispatched.map fun d => entryOf d.call).Perm
    (w.outstanding ++ t.finished.map fun done => entryOf done.call)
  /-- What is finished has come to its outcome. -/
  outcomes : ∀ done ∈ t.finished, ∃ d ∈ t.dispatched, d.call = done.call
    ∧ ComesTo t.resolutions d done.outcome
  /-- A call that is finished or turned away is answered, if the peer is there. -/
  answers : PartOf (w.broken = false) t.queued
    (t.finished.map answerTo ++ t.turned.map refusalOf)

/-- Whatever is outstanding has been accepted. -/
def Accepted (t : Tally) (w : Worker σ) : Prop :=
  ∀ d ∈ t.dispatched, entryOf d.call ∈ w.outstanding → d.verdict = .ok ()

namespace Books

variable {t : Tally} {w w' : Worker σ}

/-! ## §1. What the books say. -/

/-- The books of a new worker. -/
theorem new (service : Service σ) (peer : PeerName) :
    Books {} (.new service peer : Worker σ) :=
  ⟨rfl, .refl _, by simp [Worker.new], .refl _, by simp, .refl _⟩

/-- The books are about a few of the things that a worker keeps. -/
theorem of_eq (h : Books t w) (houtstanding : w'.outstanding = w.outstanding)
    (hcompletions : w'.completions = w.completions) (hbroken : w'.broken = w.broken) :
    Books t w' :=
  ⟨h.calls, h.owed, hcompletions ▸ h.pending, houtstanding ▸ h.entries, h.outcomes,
    hbroken ▸ h.answers⟩

/-- The numbers of the calls that were dispatched are those of calls that were taken. -/
theorem sequences (h : Books t w) :
    (t.dispatched.map (·.call.sequence)).Sublist ((callsIn t.taken).map (·.sequence)) := by
  have hcalls := congrArg (List.map Prod.fst) h.calls
  rw [List.map_append, List.map_map, List.map_map, List.map_map] at hcalls
  -- the dispatched calls are the first of those that were taken
  have hinitial := List.sublist_append_left (t.dispatched.map (Prod.fst ∘ (·.asks)))
    ((callsIn (t.turned.map (·.1))).map (Prod.fst ∘ (·.asks)))
  rw [hcalls] at hinitial
  exact hinitial

/-- What was dispatched under a number was dispatched once. -/
theorem eq_of_sequence (h : Books t w) (hdistinct : ((callsIn t.taken).map (·.sequence)).Nodup)
    {d d' : Dispatch} (hd : d ∈ t.dispatched) (hd' : d' ∈ t.dispatched)
    (hsame : d.call.sequence = d'.call.sequence) : d = d' :=
  List.inj_on_of_nodup_map (hdistinct.sublist h.sequences) hd hd' hsame

theorem dispatch_of_outstanding (h : Books t w) {n : SequenceNumber} {ticket : Ticket}
    (hmem : (n, ticket) ∈ w.outstanding) : ∃ d ∈ t.dispatched, entryOf d.call = (n, ticket) := by
  obtain ⟨d, hd, heq⟩ := List.mem_map.mp (h.entries.symm.subset (List.mem_append_left _ hmem))
  exact ⟨d, hd, heq⟩

/-- The numbers that are outstanding are distinct. -/
theorem outstanding_nodup (h : Books t w)
    (hdistinct : ((callsIn t.taken).map (·.sequence)).Nodup) :
    (w.outstanding.map (·.1)).Nodup := by
  have hnumbers := h.entries.map Prod.fst
  rw [List.map_map, List.map_append] at hnumbers
  have hall : (t.dispatched.map (·.call.sequence)).Nodup := hdistinct.sublist h.sequences
  exact (List.nodup_append.mp (hnumbers.nodup hall)).1

/-- A call that was resolved had been dispatched. -/
theorem dispatch_of_resolution (h : Books t w) {done : Completed} (hmem : done ∈ t.resolutions) :
    ∃ d ∈ t.dispatched, d.call = done.call := by
  have hcall := h.owed.symm.subset (List.mem_append_right _ (List.mem_map_of_mem hmem))
  obtain ⟨d, hd, heq⟩ := List.mem_map.mp hcall
  exact ⟨d, hd, heq⟩

/-! ## §2. Frames. -/

/-- A frame is taken that asks for no call. -/
theorem skip (h : Books t w) {frame : RequestFrame} (hkind : frame.kind = .cancel) :
    Books { t with taken := t.taken ++ [frame] } w := by
  refine ⟨?_, h.owed, h.pending, h.entries, h.outcomes, h.answers⟩
  have hnone : callsIn [frame] = [] := List.filter_cons_of_neg (by simp [hkind])
  dsimp only
  rw [callsIn_append, hnone, List.append_nil]
  exact h.calls

/-- **A frame is turned away** with a failure. -/
theorem turn (h : Books t w) (frame : RequestFrame) (e : Failure) :
    Books { t with
      taken := t.taken ++ [frame]
      turned := t.turned ++ [(frame, e)]
      queued := t.queued ++ [.failure frame.sequence e] } w := by
  refine ⟨?_, h.owed, h.pending, h.entries, h.outcomes, ?_⟩
  · dsimp only
    rw [List.map_append, callsIn_append, callsIn_append, List.map_append, List.map_append,
      ← List.append_assoc, h.calls]
    rfl
  · dsimp only
    rw [List.map_append, ← List.append_assoc]
    exact h.answers.append (.refl _)

/-- What has been resolved stays resolved when another call is handed over. -/
theorem mem_resolutions_dispatched (t : Tally) (taken : List RequestFrame) (d : Dispatch)
    (held : List IncompleteCall) {done : Completed}
    (h : done ∈ t.resolutions ∨ d.resolution? = some done) :
    done ∈ Tally.resolutions { t with taken, dispatched := t.dispatched ++ [d], held } := by
  unfold Tally.resolutions at h ⊢
  dsimp only
  rw [List.filterMap_append, List.mem_append, List.mem_append]
  rcases h with h | h
  · rcases List.mem_append.mp h with hservice | houtside
    · exact .inl (.inl hservice)
    · exact .inr houtside
  · exact .inl (.inr (List.mem_filterMap.mpr ⟨d, List.mem_singleton_self d, h⟩))

/-- **A call is handed to the service**, which may resolve it at once. -/
theorem accept (h : Books t w) {frame : RequestFrame} (hkind : frame.kind = .call)
    (hturned : t.turned = []) {d : Dispatch} (hasks : d.asks = frame.asks)
    (houtstanding : w'.outstanding = w.outstanding ++ [entryOf d.call])
    (hcompletions : w'.completions = w.completions ++ [d].filterMap (·.resolution?))
    (hbroken : w'.broken = w.broken) :
    Books { t with
      taken := t.taken ++ [frame]
      dispatched := t.dispatched ++ [d]
      held := t.held ++ [d].filterMap (·.kept?) } w' := by
  refine ⟨?_, ?_, ?_, ?_, ?_, ?_⟩
  · -- nothing has been turned away yet, so the new call is also the last one taken
    have hcalls := h.calls
    have hone : callsIn [frame] = [frame] := List.filter_cons_of_pos (by simp [hkind])
    rw [hturned] at hcalls ⊢
    dsimp only
    rw [callsIn_append, hone, List.map_append, List.map_append, ← hcalls]
    simp [callsIn, hasks]
  · -- the new call goes to the calls that are held, or between the resolutions of the service and
    -- those of others
    have howed := h.owed.append d.perm_kept_resolved
    unfold Tally.resolutions at howed ⊢
    dsimp only
    rw [List.map_append, List.filterMap_append]
    refine howed.trans ?_
    rw [List.append_assoc t.held, List.append_assoc t.held]
    refine .append_left _ ((List.perm_append_comm_assoc _ _ _).trans (.append_left _ ?_))
    rw [List.map_append, List.map_append, List.map_append, List.append_assoc, List.append_assoc]
    exact List.perm_append_comm.append_left _
  · rw [hcompletions]
    intro done hdone
    refine mem_resolutions_dispatched t _ d _ ?_
    rcases List.mem_append.mp hdone with hold | hnew
    · exact .inl (h.pending done hold)
    · obtain ⟨d', hd', hres⟩ := List.mem_filterMap.mp hnew
      exact .inr (List.mem_singleton.mp hd' ▸ hres)
  · -- outstanding calls stand before the finished ones, so the new entry moves over these
    rw [houtstanding]
    dsimp only
    rw [List.map_append, List.append_assoc]
    refine (h.entries.append_right _).trans ?_
    rw [List.append_assoc]
    exact List.perm_append_comm.append_left _
  · intro done hdone
    obtain ⟨d', hd', hcall, hgives⟩ := h.outcomes done hdone
    exact ⟨d', List.mem_append_left _ hd', hcall,
      hgives.mono fun _ hmem => mem_resolutions_dispatched t _ d _ (.inl hmem)⟩
  · rw [hbroken]
    exact h.answers

/-! ## §3. Outcomes. -/

/-- **An outstanding call is finished**, and answered if the peer is there. -/
theorem finish (h : Books t w) (hdistinct : ((callsIn t.taken).map (·.sequence)).Nodup)
    {done : Completed} (hentry : entryOf done.call ∈ w.outstanding) {d : Dispatch}
    (hd : d ∈ t.dispatched) (hcall : d.call = done.call)
    (hgives : ComesTo t.resolutions d done.outcome)
    (houtstanding : w'.outstanding = w.outstanding.filter (·.1 != done.call.sequence))
    (hcompletions : ∀ later ∈ w'.completions, later ∈ w.completions)
    (hbroken : w'.broken = w.broken) {queued : List ResponseFrame}
    (hqueued : PartOf (w.broken = false) queued [answerTo done]) :
    Books { t with finished := t.finished ++ [done], queued := t.queued ++ queued } w' := by
  refine ⟨h.calls, h.owed, fun later hlater => h.pending later (hcompletions later hlater), ?_, ?_,
    ?_⟩
  · -- the entry of the call leaves the outstanding ones; no other has its number
    have hout := perm_cons_filter_of_nodup (h.outstanding_nodup hdistinct) hentry
    rw [houtstanding]
    dsimp only
    rw [List.map_append]
    refine h.entries.trans ((hout.append_right _).trans ?_)
    rw [← List.append_assoc]
    exact (List.perm_append_singleton _ _).symm
  · intro other hother
    rcases List.mem_append.mp hother with hold | hnew
    · exact h.outcomes other hold
    · rw [List.mem_singleton.mp hnew]
      exact ⟨d, hd, hcall, hgives⟩
  · rw [hbroken]
    dsimp only
    rw [List.map_append, List.append_assoc]
    refine (h.answers.append hqueued).trans (.of_perm ?_)
    rw [List.append_assoc]
    exact List.perm_append_comm.append_left _

/-- **A resolution is taken up.**  It finds its own call outstanding, or none. -/
theorem complete (h : Books t w) (haccepted : Accepted t w)
    (hdistinct : ((callsIn t.taken).map (·.sequence)).Nodup) {done : Completed}
    (hdone : done ∈ t.resolutions) {ticket : Ticket}
    (hentry : (done.call.sequence, ticket) ∈ w.outstanding) :
    ∃ d ∈ t.dispatched, d.call = done.call ∧ entryOf done.call = (done.call.sequence, ticket)
      ∧ ComesTo t.resolutions d done.outcome := by
  obtain ⟨d, hd, hcall⟩ := h.dispatch_of_resolution hdone
  obtain ⟨d', hd', hentry'⟩ := h.dispatch_of_outstanding hentry
  -- the number was dispatched once, so the entry is that of the resolved call
  have hsame : d = d' := by
    refine h.eq_of_sequence hdistinct hd hd' ?_
    rw [hcall]
    exact (congrArg Prod.fst hentry').symm
  subst hsame
  refine ⟨d, hd, hcall, hcall ▸ hentry', ?_⟩
  unfold ComesTo
  rw [haccepted d hd (hentry' ▸ hentry)]
  exact hcall ▸ hdone

/-- **A call that is held is resolved.** -/
theorem resolve (h : Books t w) {done : Completed} (hheld : done.call ∈ t.held)
    (houtstanding : w'.outstanding = w.outstanding)
    (hcompletions : w'.completions = w.completions ++ [done]) (hbroken : w'.broken = w.broken) :
    Books { t with outside := t.outside ++ [done], held := t.held.erase done.call } w' := by
  have hresolutions : Tally.resolutions
      { t with outside := t.outside ++ [done], held := t.held.erase done.call }
        = t.resolutions ++ [done] := by
    unfold Tally.resolutions
    rw [List.append_assoc]
  refine ⟨h.calls, ?_, ?_, houtstanding ▸ h.entries, ?_, hbroken ▸ h.answers⟩
  · -- the call moves from those that are held to those that are resolved
    rw [hresolutions, List.map_append]
    refine h.owed.trans (((List.perm_cons_erase hheld).append_right _).trans ?_)
    rw [← List.append_assoc]
    exact (List.perm_append_singleton _ _).symm
  · rw [hresolutions, hcompletions]
    intro other hother
    rcases List.mem_append.mp hother with hold | hnew
    · exact List.mem_append_left _ (h.pending other hold)
    · exact List.mem_append_right _ hnew
  · intro other hother
    obtain ⟨d, hd, hcall, hgives⟩ := h.outcomes other hother
    rw [hresolutions]
    exact ⟨d, hd, hcall, hgives.mono fun _ => List.mem_append_left _⟩

end Books

end Worker

end RemoteCall
