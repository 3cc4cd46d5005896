/-
  RemoteCall.Proofs.Server.Standing
  ─────────────────────────────────
  **WHERE A WORKER STANDS.**

  After any run the books are right for what has been done (`Standing`).  While
  a worker reads, it has taken some of the frames that have arrived, and the
  others are in its receive buffer.  When it has been told to shut down, and the
  stream was not at fault, it has taken all of them.

  Main statements:
    • `Standing.drained`, `Standing.receive`, … — one step,
    • `Run.standing`                            — a run.
-/
import RemoteCall.Proofs.Server.Pumping

namespace RemoteCall.Worker

variable {σ : Type} {service : Service σ} {limits : EndpointConfig} {version : UInt32}
  {received sent : Bytes} {lost : Bool} {t : Tally} {w w' : Worker σ}

/-! ## §1. Standing. -/

/-- A worker that has received some bytes and sent others has done this. -/
structure Standing (service : Service σ) (limits : EndpointConfig) (version : UInt32)
    (received sent : Bytes) (lost : Bool) (t : Tally) (w : Worker σ) : Prop where
  books : Books t w
  accepted : Accepted t w
  transmits : Transmits limits t.queued sent w
  lost : w.broken = lost
  arrived : t.taken <+: (RequestFrame.drain limits.maxMessageSize received).1
  reasons : ∀ x ∈ t.turned, (x.1.kind = .call ∧ x.2 = .shuttingDown)
    ∨ service.supports version = false
  /-- While the worker reads nothing has been turned away, and what is left is taken later. -/
  reads : w.reading = true → w.broken = false ∧ t.turned = []
    ∧ (w.version = none ∨ (w.version = some version ∧ service.supports version = true))
    ∧ ∀ tail, RequestFrame.Taken limits.maxMessageSize (received ++ tail) t.taken
        (w.received ++ tail)
  /-- When the worker has stopped reading nothing is left. -/
  ends : w.reading = false → w.broken = false → service.supports version = true →
    (RequestFrame.drain limits.maxMessageSize received).2.1 = none →
    (RequestFrame.drain limits.maxMessageSize received).1 = t.taken

/-- A new worker. -/
theorem standing_new (service : Service σ) (limits : EndpointConfig) (version : UInt32)
    (peer : PeerName) : Standing service limits version [] [] false {} (.new service peer) where
  books := .new service peer
  accepted := by
    intro d hd
    cases hd
  transmits := ⟨[], rfl, fun _ => rfl⟩
  lost := rfl
  arrived := List.nil_prefix
  reasons := by
    intro x hx
    cases hx
  reads _ := ⟨rfl, rfl, .inl rfl, fun tail => Frame.taken_nil tail⟩
  ends hreading := by cases hreading

/-- A worker that reads listens to its peer. -/
theorem Standing.desk (h : Standing service limits version received sent lost t w)
    (hreading : w.reading = true)
    (hstream : WellFormed version (RequestFrame.drain limits.maxMessageSize received).1) :
    Desk service limits version sent true t w := by
  obtain ⟨hlistens, _, hspeaks, _⟩ := h.reads hreading
  exact ⟨h.books, h.accepted, h.transmits, hlistens, hreading, hstream.of_isPrefix h.arrived,
    hspeaks, h.reasons⟩

theorem Standing.not_lost (h : Standing service limits version received sent lost t w)
    (hreading : w.reading = true) : lost = false :=
  h.lost.symm.trans (h.reads hreading).1

/-- **The frames of the receive buffer are taken.** -/
theorem Desk.pump (h : Desk service limits version sent true t w) (hturned : t.turned = [])
    {tail : Bytes} (shutdown : Bool)
    (hstream : WellFormed version
      (RequestFrame.drain limits.maxMessageSize (received ++ tail)).1)
    (hahead : ∀ more, RequestFrame.Taken limits.maxMessageSize (received ++ more) t.taken
      (w.received ++ more)) :
    ∃ taken turned, Standing service limits version received sent false
      { t.add (w.pump service limits shutdown).2 with taken, turned }
      (w.pump service limits shutdown).1 := by
  obtain ⟨taken, turned, hdesk, hinitial, hgoes, hstops⟩ :=
    Desk.pumpFrom shutdown hstream w.received h hturned hahead
  refine ⟨taken, turned, ?_⟩
  unfold Worker.pump
  generalize w.pumpFrom service limits shutdown w.received = pumped at *
  obtain ⟨w', buffer, fault, effects⟩ := pumped
  cases fault with
  | none =>
    -- no fault: the worker goes on reading
    obtain ⟨hnone, htaken⟩ := hgoes rfl
    refine ⟨hdesk.books.of_eq rfl rfl rfl, hdesk.accepted, hdesk.transmits, hdesk.listens, hinitial,
      hdesk.reasons, fun _ => ⟨hdesk.listens, hnone, hdesk.speaks, htaken⟩, fun hstopped => ?_⟩
    have hreads := hdesk.reads
    dsimp only at hstopped hreads
    rw [hreads] at hstopped
    cases hstopped
  | some e =>
    -- a fault: the worker has stopped, and the stream was not whole
    refine ⟨hdesk.books.of_eq rfl rfl rfl, hdesk.accepted, hdesk.transmits, hdesk.listens, hinitial,
      hdesk.reasons, fun hreading => ?_, fun _ _ hspoken hwhole => ?_⟩
    · cases hreading
    · exact absurd hwhole (hstops (Option.some_ne_none e) hspoken)

/-! ## §2. Resolutions. -/

/-- The answer to a resolution, if the peer is there. -/
def answers (w : Worker σ) (done : Completed) : List ResponseFrame :=
  if w.broken then [] else [answerTo done]

theorem partOf_answers (w : Worker σ) (done : Completed) :
    PartOf (w.broken = false) (w.answers done) [answerTo done] := by
  unfold answers
  cases hbroken : w.broken with
  | true => exact ⟨List.nil_subperm, fun hlistens => by cases hlistens⟩
  | false => exact .refl _

/-- To take up the resolution of an outstanding call is to end it and to answer it. -/
theorem complete_eq {done : Completed} {ticket : Ticket}
    (h : w.outstanding? done.call.sequence = some ticket) (limits : EndpointConfig) :
    w.complete limits done
      = ({ w with
          outstanding := w.outstanding.filter (·.1 != done.call.sequence)
          unsent := w.unsent ++ (w.answers done).flatMap (written limits) },
        .finished done.call done.outcome :: (w.answers done).map .queued) := by
  unfold complete answers
  dsimp only
  rw [h]
  dsimp only
  by_cases hbroken : w.broken = true
  · rw [if_pos hbroken, if_pos hbroken]
    simp
  · rw [if_neg hbroken, if_neg hbroken]
    simp [queue, answerTo]

/-- A resolution for a call that is not outstanding is dropped. -/
theorem complete_eq_self {done : Completed} (h : w.outstanding? done.call.sequence = none)
    (limits : EndpointConfig) : w.complete limits done = (w, []) := by
  unfold complete
  dsimp only
  rw [h]

/-- What an answered call leaves behind. -/
theorem Tally.add_finished (t : Tally) (done : Completed) (frames : List ResponseFrame) :
    t.add (.finished done.call done.outcome :: frames.map .queued)
      = { t with finished := t.finished ++ [done], queued := t.queued ++ frames } := by
  have hdispatched : dispatchesIn (frames.map .queued) = [] := by
    unfold dispatchesIn
    rw [List.filterMap_map, List.filterMap_eq_nil_iff]
    exact fun _ _ => rfl
  have hfinished : finishedIn (frames.map .queued) = [] := by
    unfold finishedIn
    rw [List.filterMap_map, List.filterMap_eq_nil_iff]
    exact fun _ _ => rfl
  have hqueued : queuedIn (frames.map .queued) = frames := by
    unfold queuedIn
    rw [List.filterMap_map]
    exact List.filterMap_some
  -- the end of the call first, and then the responses
  have hfirst : t.add (.finished done.call done.outcome :: frames.map .queued)
      = Tally.add { t with finished := t.finished ++ [done] } (frames.map .queued) := by
    unfold Tally.add
    rw [List.append_assoc]
    rfl
  rw [hfirst]
  unfold Tally.add
  rw [hdispatched, hfinished, hqueued]
  simp

/-- What a worker keeps besides its calls and its responses stays when it takes up a resolution. -/
theorem complete_same (limits : EndpointConfig) (done : Completed) (w : Worker σ) :
    (w.complete limits done).1.reading = w.reading ∧ (w.complete limits done).1.broken = w.broken
      ∧ (w.complete limits done).1.received = w.received
      ∧ (w.complete limits done).1.version = w.version := by
  cases hfind : w.outstanding? done.call.sequence with
  | none =>
    rw [complete_eq_self hfind]
    exact ⟨rfl, rfl, rfl, rfl⟩
  | some ticket =>
    rw [complete_eq hfind]
    exact ⟨rfl, rfl, rfl, rfl⟩

/-- **A resolution is taken up**: its call is answered if it is outstanding and the peer is
there. -/
theorem Books.take_up (h : Books t w) (haccepted : Accepted t w)
    (htransmits : Transmits limits t.queued sent w)
    (hdistinct : ((callsIn t.taken).map (·.sequence)).Nodup) {done : Completed}
    (hdone : done ∈ t.resolutions) :
    Books (t.add (w.complete limits done).2) (w.complete limits done).1
      ∧ Accepted (t.add (w.complete limits done).2) (w.complete limits done).1
      ∧ Transmits limits (t.add (w.complete limits done).2).queued sent
        (w.complete limits done).1 := by
  cases hfind : w.outstanding? done.call.sequence with
  | none =>
    rw [complete_eq_self hfind]
    dsimp only
    rw [Tally.add_nil]
    exact ⟨h, haccepted, htransmits⟩
  | some ticket =>
    have hmem := mem_of_find?_key hfind
    obtain ⟨d, hd, hcall, hentry, hgives⟩ := h.complete haccepted hdistinct hdone hmem
    have hout : entryOf done.call ∈ w.outstanding := hentry ▸ hmem
    rw [complete_eq hfind]
    dsimp only
    rw [Tally.add_finished]
    refine ⟨?_, ?_, ?_⟩
    · refine h.finish hdistinct hout hd hcall hgives ?_ ?_ ?_ (partOf_answers w done)
      · rfl
      · exact fun _ hlater => hlater
      · rfl
    · intro d' hd' hleft
      exact haccepted d' hd' (List.mem_filter.mp hleft).1
    · obtain ⟨rest, hrest, hlisten⟩ := htransmits
      refine ⟨rest ++ (w.answers done).flatMap (written limits), ?_,
        fun hlistens => congrArg (· ++ _) (hlisten hlistens)⟩
      rw [List.flatMap_append, hrest, List.append_assoc]

/-! ## §3. Steps. -/

section Steps

variable {tail : Bytes}

/-- What has arrived is well formed if what will have arrived is. -/
theorem WellFormed.arrived {max : Nat}
    (h : WellFormed version (RequestFrame.drain max (received ++ tail)).1) :
    WellFormed version (RequestFrame.drain max received).1 :=
  h.of_isPrefix (Frame.drainWith_isPrefix received tail)

/-- **Bytes arrive.** -/
theorem Standing.receive (h : Standing service limits version received sent lost t w)
    (hreading : w.reading = true) (shutdown : Bool) (chunk : Bytes)
    (hstream : WellFormed version
      (RequestFrame.drain limits.maxMessageSize (received ++ (chunk ++ tail))).1) :
    ∃ taken turned, Standing service limits version (received ++ chunk) sent lost
      { t.add (w.step service limits shutdown (.received chunk)).2 with taken, turned }
      (w.step service limits shutdown (.received chunk)).1 := by
  obtain ⟨_, hturned, _, hahead⟩ := h.reads hreading
  obtain rfl := h.not_lost hreading
  have hdesk : Desk service limits version sent true t { w with received := w.received ++ chunk } :=
    (h.desk hreading (WellFormed.arrived hstream)).of_eq rfl rfl rfl rfl rfl rfl
  rw [← List.append_assoc] at hstream
  refine hdesk.pump hturned shutdown hstream fun more => ?_
  · rw [List.append_assoc, List.append_assoc]
    exact hahead (chunk ++ more)

/-- The books do not change when a resolution leaves the queue. -/
theorem Standing.popped (h : Standing service limits version received sent lost t w)
    {done : Completed} {later : List Completed} (hcompletions : w.completions = done :: later) :
    Books t { w with completions := later } :=
  ⟨h.books.calls, h.books.owed,
    fun other hother => h.books.pending other (hcompletions ▸ List.mem_cons_of_mem _ hother),
    h.books.entries, h.books.outcomes, h.books.answers⟩

/-- A worker that reads listens to its peer when it has taken up the oldest resolution. -/
theorem Standing.freed (h : Standing service limits version received sent lost t w)
    {done : Completed} {later : List Completed} (hcompletions : w.completions = done :: later)
    (hreading : w.reading = true)
    (hstream : WellFormed version (RequestFrame.drain limits.maxMessageSize received).1) :
    Desk service limits version sent true
      (t.add (({ w with completions := later } : Worker σ).complete limits done).2)
      (({ w with completions := later } : Worker σ).complete limits done).1 := by
  have hdone : done ∈ t.resolutions :=
    h.books.pending done (hcompletions ▸ List.mem_cons_self)
  have hwell := hstream.of_isPrefix h.arrived
  have htransmitted : Transmits limits t.queued sent { w with completions := later } := h.transmits
  obtain ⟨hbooks, haccepted, htransmits⟩ :=
    (h.popped hcompletions).take_up h.accepted htransmitted hwell.distinct hdone
  obtain ⟨hreads, hbroken, -, hversion⟩ := complete_same limits done { w with completions := later }
  obtain ⟨hlistens, -, hspeaks, -⟩ := h.reads hreading
  refine ⟨hbooks, haccepted, htransmits, hbroken.trans hlistens, hreads.trans hreading, hwell, ?_,
    h.reasons⟩
  rw [hversion]
  exact hspeaks

/-- **The oldest resolution is taken up**, and frames are taken if that makes room. -/
theorem Standing.drained (h : Standing service limits version received sent lost t w)
    {done : Completed} {later : List Completed} (hcompletions : w.completions = done :: later)
    (shutdown : Bool)
    (hstream : WellFormed version
      (RequestFrame.drain limits.maxMessageSize (received ++ tail)).1) :
    ∃ taken turned, Standing service limits version received sent lost
      { t.add (w.step service limits shutdown .drained).2 with taken, turned }
      (w.step service limits shutdown .drained).1 := by
  have hdone : done ∈ t.resolutions :=
    h.books.pending done (hcompletions ▸ List.mem_cons_self)
  have hwell := (WellFormed.arrived hstream).of_isPrefix h.arrived
  have htransmitted : Transmits limits t.queued sent { w with completions := later } := h.transmits
  obtain ⟨hbooks, haccepted, htransmits⟩ :=
    (h.popped hcompletions).take_up h.accepted htransmitted hwell.distinct hdone
  obtain ⟨hreading, hbroken, hreceived, -⟩ :=
    complete_same limits done { w with completions := later }
  have hfreed := fun hreads => h.freed hcompletions hreads (WellFormed.arrived hstream)
  unfold step
  dsimp only
  rw [hcompletions]
  dsimp only
  generalize ({ w with completions := later } : Worker σ).complete limits done = result at *
  obtain ⟨w', effects⟩ := result
  dsimp only at *
  -- a worker that reads may now take more frames, since a call has ended
  by_cases hreads : w'.reading = true
  · rw [if_pos hreads]
    obtain ⟨-, hturned, -, hahead⟩ := h.reads (hreading ▸ hreads)
    obtain rfl := h.not_lost (hreading ▸ hreads)
    rw [← hreceived] at hahead
    obtain ⟨taken, turned, hstanding⟩ :=
      (hfreed (hreading ▸ hreads)).pump hturned shutdown hstream hahead
    refine ⟨taken, turned, ?_⟩
    rw [Tally.add_append]
    exact hstanding
  · rw [if_neg hreads]
    refine ⟨t.taken, t.turned, hbooks, haccepted, htransmits, hbroken.trans h.lost, h.arrived,
      h.reasons, fun hstill => absurd hstill hreads, fun hstopped hlistens => ?_⟩
    exact h.ends (hreading ▸ hstopped) (hbroken ▸ hlistens)

/-- **The worker is told to shut down**: what is left is refused. -/
theorem Standing.shutdown (h : Standing service limits version received sent lost t w)
    (hreading : w.reading = true) (shutdown : Bool)
    (hstream : WellFormed version (RequestFrame.drain limits.maxMessageSize received).1) :
    ∃ taken turned, Standing service limits version received sent lost
      { t.add (w.step service limits shutdown .shutdown).2 with taken, turned }
      (w.step service limits shutdown .shutdown).1 := by
  obtain ⟨_, _, _, hahead⟩ := h.reads hreading
  obtain rfl := h.not_lost hreading
  -- nothing more will arrive
  have hhere := hahead []
  rw [List.append_nil, List.append_nil] at hhere
  have hdesk := h.desk hreading hstream
  have hstopped : Desk service limits version sent false t { w with reading := false } :=
    ⟨hdesk.books.of_eq rfl rfl rfl, hdesk.accepted, hdesk.transmits, hdesk.listens, rfl,
      hdesk.wellFormed, hdesk.speaks, hdesk.reasons⟩
  obtain ⟨taken, turned, hrefused, hinitial, hall⟩ := hstopped.refuseFrom hstream w.received hhere
  refine ⟨taken, turned, hrefused.books.of_eq rfl rfl rfl, hrefused.accepted, hrefused.transmits,
    hrefused.listens, hinitial, hrefused.reasons, fun hstill => ?_, fun _ _ _ => hall⟩
  have hreads := hrefused.reads
  unfold step drain at hstill
  dsimp only at hstill
  rw [hreads] at hstill
  cases hstill

/-- **Bytes are written.** -/
theorem Standing.wrote (h : Standing service limits version received sent lost t w)
    (hlistens : w.broken = false) (count : Nat) :
    Standing service limits version received (sent ++ w.unsent.take count) lost t
      { w with unsent := w.unsent.drop count } := by
  refine ⟨h.books.of_eq rfl rfl rfl, h.accepted, ?_, h.lost, h.arrived, h.reasons, h.reads, h.ends⟩
  obtain ⟨rest, hrest, hlisten⟩ := h.transmits
  refine ⟨w.unsent.drop count, ?_, fun _ => rfl⟩
  rw [hrest, hlisten hlistens, List.append_assoc, List.take_append_drop]

/-- **The peer is gone.** -/
theorem Standing.disconnect (h : Standing service limits version received sent lost t w) :
    Standing service limits version received sent true t w.disconnect := by
  refine ⟨⟨h.books.calls, h.books.owed, h.books.pending, h.books.entries, h.books.outcomes,
    h.books.answers.mono fun hlistens => ?_⟩, h.accepted, ?_, rfl, h.arrived, h.reasons,
    fun hstill => ?_, fun _ hlistens => ?_⟩
  · -- what is said of a worker with a peer says nothing from now on
    cases hlistens
  · obtain ⟨rest, hrest, _⟩ := h.transmits
    exact ⟨rest, hrest, fun hlistens => by cases hlistens⟩
  · cases hstill
  · cases hlistens

/-- **A call that is held is resolved.** -/
theorem Standing.resolve (h : Standing service limits version received sent lost t w)
    {call : IncompleteCall} (hheld : call ∈ t.held) (outcome : Outcome Bytes) :
    Standing service limits version received sent lost
      { t with outside := t.outside ++ [⟨call, outcome⟩], held := t.held.erase call }
      (w.resolve call outcome) := by
  have hbooks : Books { t with
      outside := t.outside ++ [⟨call, outcome⟩], held := t.held.erase call }
      (w.resolve call outcome) := h.books.resolve hheld rfl rfl rfl
  exact ⟨hbooks, h.accepted, h.transmits, h.lost, h.arrived, h.reasons, h.reads, h.ends⟩

end Steps

/-! ## §4. Runs. -/

section Runs

variable {history : List (Moment σ)} {s : Scene σ}

/-- What has been done in a run, of which the frames that were taken are not told. -/
def tallyOf (service : Service σ) (limits : EndpointConfig) (history : List (Moment σ))
    (s : Scene σ) (taken : List RequestFrame) (turned : List (RequestFrame × Failure)) : Tally where
  taken
  turned
  dispatched := dispatchesIn (effectsOf service limits history)
  finished := finishedIn (effectsOf service limits history)
  queued := queuedIn (effectsOf service limits history)
  outside := history.filterMap (·.resolution?)
  held := s.held

/-- A step of the worker adds what the worker has done. -/
theorem tallyOf_worked (event : Event) (taken taken' : List RequestFrame)
    (turned turned' : List (RequestFrame × Failure)) :
    tallyOf service limits (history ++ [⟨s, .worked event⟩])
        (s.after service limits (.worked event)).1 taken turned
      = { (tallyOf service limits history s taken' turned').add
            (s.worker.step service limits s.shutdown event).2 with taken, turned } := by
  unfold tallyOf Tally.add
  rw [effectsOf_concat, dispatchesIn_append, finishedIn_append, queuedIn_append,
    List.filterMap_append]
  have hnone : [(⟨s, .worked event⟩ : Moment σ)].filterMap (·.resolution?) = [] := rfl
  rw [hnone, List.append_nil]
  rfl

/-- The endpoint is told to shut down: nothing has been done. -/
theorem tallyOf_signalled (taken : List RequestFrame) (turned : List (RequestFrame × Failure)) :
    tallyOf service limits (history ++ [⟨s, .signalled⟩])
        (s.after service limits .signalled).1 taken turned
      = tallyOf service limits history s taken turned := by
  unfold tallyOf
  have hnone : [(⟨s, .signalled⟩ : Moment σ)].filterMap (·.resolution?) = [] := rfl
  have heffects : (⟨s, .signalled⟩ : Moment σ).effects service limits = [] := rfl
  rw [effectsOf_concat, heffects, List.append_nil, List.filterMap_append, hnone, List.append_nil]
  rfl

/-- A call that was held is resolved. -/
theorem tallyOf_resolved (call : IncompleteCall) (outcome : Outcome Bytes)
    (taken : List RequestFrame) (turned : List (RequestFrame × Failure)) :
    tallyOf service limits (history ++ [⟨s, .resolved call outcome⟩])
        (s.after service limits (.resolved call outcome)).1 taken turned
      = { tallyOf service limits history s taken turned with
          outside := history.filterMap (·.resolution?) ++ [⟨call, outcome⟩]
          held := s.held.erase call } := by
  unfold tallyOf
  have hone : [(⟨s, .resolved call outcome⟩ : Moment σ)].filterMap (·.resolution?)
      = [⟨call, outcome⟩] := rfl
  have heffects : (⟨s, .resolved call outcome⟩ : Moment σ).effects service limits = [] := rfl
  rw [effectsOf_concat, heffects, List.append_nil, List.filterMap_append, hone]
  rfl

/-- **One step of the worker.** -/
theorem Standing.worked {t : Tally}
    (h : Standing service limits version received sent lost t w) {event : Event} {shutdown : Bool}
    (henabled : w.enabled limits shutdown event = true) {tail : Bytes}
    (hstream : WellFormed version (RequestFrame.drain limits.maxMessageSize
      (received ++ ((⟨⟨w, shutdown, []⟩, .worked event⟩ : Moment σ).arrived ++ tail))).1) :
    ∃ taken turned, Standing service limits version
      (received ++ (⟨⟨w, shutdown, []⟩, .worked event⟩ : Moment σ).arrived)
      (sent ++ (⟨⟨w, shutdown, []⟩, .worked event⟩ : Moment σ).wrote)
      (lost || (⟨⟨w, shutdown, []⟩, .worked event⟩ : Moment σ).isLoss)
      { t.add (w.step service limits shutdown event).2 with taken, turned }
      (w.step service limits shutdown event).1 := by
  cases event with
  | shutdown =>
    have hreading : w.reading = true := (Bool.and_eq_true_iff.mp henabled).2
    dsimp only [Moment.arrived, Moment.wrote, Moment.isLoss] at hstream ⊢
    rw [Bool.or_false, List.append_nil, List.append_nil]
    exact h.shutdown hreading shutdown (WellFormed.arrived hstream)
  | received chunk =>
    have hread := (Bool.and_eq_true_iff.mp henabled).1
    have hreading : w.reading = true := (Bool.and_eq_true_iff.mp hread).1
    dsimp only [Moment.arrived, Moment.wrote, Moment.isLoss] at hstream ⊢
    rw [Bool.or_false, List.append_nil]
    exact h.receive hreading shutdown chunk hstream
  | lost =>
    refine ⟨t.taken, t.turned, ?_⟩
    dsimp only [Moment.arrived, Moment.wrote, Moment.isLoss, step]
    rw [Bool.or_true, List.append_nil, List.append_nil, Tally.add_nil]
    exact h.disconnect
  | drained =>
    dsimp only [Moment.arrived, Moment.wrote, Moment.isLoss] at hstream ⊢
    rw [Bool.or_false, List.append_nil, List.append_nil]
    cases hcompletions : w.completions with
    | nil =>
      unfold enabled at henabled
      rw [hcompletions] at henabled
      simp at henabled
    | cons done later => exact h.drained hcompletions shutdown hstream
  | wrote count =>
    have hlistens : w.broken = false := by
      unfold enabled canWrite at henabled
      simp only [Bool.and_eq_true, Bool.not_eq_true'] at henabled
      exact henabled.1.1.1
    refine ⟨t.taken, t.turned, ?_⟩
    dsimp only [Moment.arrived, Moment.wrote, Moment.isLoss, step]
    rw [Bool.or_false, List.append_nil, Tally.add_nil]
    exact h.wrote hlistens count
  | writeFailed =>
    refine ⟨t.taken, t.turned, ?_⟩
    dsimp only [Moment.arrived, Moment.wrote, Moment.isLoss, step]
    rw [Bool.or_true, List.append_nil, List.append_nil, Tally.add_nil]
    exact h.disconnect

/-- **The books of a run are right**, if what has arrived begins a stream that is well formed. -/
theorem Run.standing (run : Run service limits history s) (tail : Bytes)
    (hstream : WellFormed version
      (RequestFrame.drain limits.maxMessageSize (receivedOf history ++ tail)).1) :
    ∃ taken turned, Standing service limits version (receivedOf history) (writtenOf history)
      (lossIn history) (tallyOf service limits history s taken turned) s.worker := by
  induction run generalizing tail with
  | start peer => exact ⟨[], [], standing_new service limits version peer⟩
  | @next history s run occurrence hadmits ih =>
    rw [receivedOf_concat, List.append_assoc] at hstream
    obtain ⟨taken, turned, h⟩ := ih _ hstream
    rw [receivedOf_concat, writtenOf_concat, lossIn_concat]
    cases occurrence with
    | signalled =>
      refine ⟨taken, turned, ?_⟩
      rw [tallyOf_signalled]
      dsimp only [Moment.arrived, Moment.wrote, Moment.isLoss]
      rw [Bool.or_false, List.append_nil, List.append_nil]
      exact h
    | worked event =>
      obtain ⟨taken', turned', h'⟩ := h.worked hadmits.2 hstream
      refine ⟨taken', turned', ?_⟩
      rw [tallyOf_worked event taken' taken turned' turned]
      exact h'
    | resolved call outcome =>
      refine ⟨taken, turned, ?_⟩
      rw [tallyOf_resolved]
      dsimp only [Moment.arrived, Moment.wrote, Moment.isLoss]
      rw [Bool.or_false, List.append_nil, List.append_nil]
      exact h.resolve hadmits outcome

/-- The same if what has arrived so far is well formed. -/
theorem Run.stands (run : Run service limits history s)
    (hstream : WellFormed version
      (RequestFrame.drain limits.maxMessageSize (receivedOf history)).1) :
    ∃ taken turned, Standing service limits version (receivedOf history) (writtenOf history)
      (lossIn history) (tallyOf service limits history s taken turned) s.worker :=
  run.standing [] (by rw [List.append_nil]; exact hstream)

end Runs

end RemoteCall.Worker
