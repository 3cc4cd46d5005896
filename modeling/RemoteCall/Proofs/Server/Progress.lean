/-
  RemoteCall.Proofs.Server.Progress
  ─────────────────────────────────
  **A WORKER DOES NOT GET STUCK, AND LEAVES NOTHING UNDONE.**

  A worker waits for whichever of four things comes first: the shutdown of its
  endpoint, bytes to read, a resolution to take up, room to write.  Each has a
  guard (`Branch.isOpen`).  If all four guards were closed it would wait for
  ever; if it left too early, a call would stay without its answer.

      broken       →  does not read, and nothing is unsent
      not reading  →  done, or writes what is unsent, or takes up resolutions
      outstanding  ⊆  held ++ completions
      done         →  nothing outstanding, and everything is written or the
                      stream is broken

  A worker that has stopped reading counts down: whatever happens to it brings
  what is left to do (`Scene.toDo`) closer to nothing.

  Main statements:
    • `Branch.isOpen_iff`                      — the guards,
    • `Run.awaited`, `Run.accounted`           — what a worker still owes,
    • `Moment.stopped`, `Moment.toDo_lt`       — one moment without reading,
    • `Run.comes_to_an_end`                    — the end of a worker,
    • `workers_do_not_get_stuck`               — the statement about runs.
-/
import RemoteCall.Proofs.Server.Backlog

namespace RemoteCall.Worker

variable {σ : Type} {service : Service σ} {limits : EndpointConfig} {history : List (Moment σ)}
  {s : Scene σ}

/-! ## §1. The guards. -/

/-- What a worker may wait for. -/
inductive Branch where
  /-- The endpoint is told to shut down. -/
  | shutdown
  /-- The peer sends something, or is gone. -/
  | read
  /-- A call is resolved. -/
  | drain
  /-- The stream takes bytes, or fails. -/
  | write
  deriving DecidableEq

/-- Whether a worker waits for it. -/
def Branch.isOpen (limits : EndpointConfig) (w : Worker σ) : Branch → Bool
  | .shutdown => w.reading
  | .read => w.canRead limits
  | .drain => w.canDrain limits
  | .write => w.canWrite

/-- What an event has been waited for as. -/
def Event.branch : Event → Branch
  | .shutdown => .shutdown
  | .received _ | .lost => .read
  | .drained => .drain
  | .wrote _ | .writeFailed => .write

/-- **A worker waits for something if it could happen**: once the endpoint is told to shut down, and
resolutions are there. -/
theorem Branch.isOpen_iff (limits : EndpointConfig) (w : Worker σ) (branch : Branch) :
    branch.isOpen limits w = true ↔ ∃ (event : Event) (completions : List Completed),
      event.branch = branch ∧ { w with completions }.enabled limits true event = true := by
  constructor
  · intro hopen
    cases branch with
    | shutdown => exact ⟨.shutdown, [], rfl, hopen⟩
    | read => exact ⟨.lost, [], rfl, hopen⟩
    | write => exact ⟨.writeFailed, [], rfl, hopen⟩
    | drain => exact ⟨.drained, [⟨default, .ok []⟩], rfl, Bool.and_eq_true_iff.mpr ⟨hopen, rfl⟩⟩
  · rintro ⟨event, completions, rfl, henabled⟩
    cases event with
    | shutdown => exact henabled
    | lost => exact henabled
    | writeFailed => exact henabled
    | received chunk => exact (Bool.and_eq_true_iff.mp henabled).1
    | drained => exact (Bool.and_eq_true_iff.mp henabled).1
    | wrote count =>
      exact (Bool.and_eq_true_iff.mp (Bool.and_eq_true_iff.mp henabled).1).1

/-- Limits that an endpoint accepts let a worker hold some unsent bytes. -/
theorem txBufferLimit_pos (hvalid : limits.validate = .ok ()) : 0 < limits.txBufferLimit := by
  unfold EndpointConfig.validate at hvalid
  split at hvalid
  · cases hvalid
  · split at hvalid
    · cases hvalid
    · omega

/-- Whatever is unsent can be written, unless the stream is broken. -/
theorem canWrite_iff (w : Worker σ) :
    w.canWrite = true ↔ w.broken = false ∧ w.unsent ≠ [] := by
  unfold canWrite
  cases w.broken <;> simp

/-- What a worker that does not read is done with. -/
theorem isDone_iff {w : Worker σ} (hstopped : w.reading = false) :
    w.isDone = true ↔ w.outstanding = [] ∧ (w.broken = true ∨ w.unsent = []) := by
  unfold isDone
  rw [hstopped]
  simp

/-- **A worker that does not read and is not done can write, or take up resolutions.** -/
theorem write_or_drain (hvalid : limits.validate = .ok ()) {w : Worker σ}
    (hstopped : w.reading = false) (hbusy : w.isDone = false) :
    (Branch.write.isOpen limits w = true ∧ w.unsent ≠ [])
      ∨ (Branch.drain.isOpen limits w = true ∧ w.outstanding ≠ []) := by
  by_cases hwrites : w.canWrite = true
  · exact .inl ⟨hwrites, ((canWrite_iff w).mp hwrites).2⟩
  · -- the stream is broken or everything is sent, so the calls are what is left
    have hsent : w.broken = true ∨ w.unsent = [] := by
      rw [canWrite_iff] at hwrites
      cases hbroken : w.broken with
      | true => exact .inl rfl
      | false => exact .inr (by_contra fun hunsent => hwrites ⟨hbroken, hunsent⟩)
    refine .inr ⟨?_, fun hidle => ?_⟩
    · show w.canDrain limits = true
      unfold canDrain
      rcases hsent with hbroken | hunsent
      · rw [hbroken]
        rfl
      · rw [hunsent]
        simpa using .inr (txBufferLimit_pos hvalid)
    · rw [(isDone_iff hstopped).mpr ⟨hidle, hsent⟩] at hbusy
      cases hbusy

/-! ## §2. What a worker still owes. -/

/-- The calls whose resolution is still to be taken up: they are held, or they wait in the queue. -/
def Scene.pending (s : Scene σ) : List IncompleteCall :=
  s.held ++ s.worker.completions.map (·.call)

/-- What there is after a moment. -/
def Moment.scene (service : Service σ) (limits : EndpointConfig) (m : Moment σ) : Scene σ :=
  (m.before.after service limits m.occurrence).1

theorem completions_complete (limits : EndpointConfig) (done : Completed) (w : Worker σ) :
    (w.complete limits done).1.completions = w.completions := by
  cases hfind : w.outstanding? done.call.sequence with
  | none => rw [complete_eq_self hfind]
  | some ticket => rw [complete_eq hfind]

/-- Before frames are taken, a resolution leaves the queue only if it is taken up. -/
theorem Moment.completions_opening (limits : EndpointConfig) (m : Moment σ) {done : Completed}
    (hdone : done ∈ m.before.worker.completions) :
    done ∈ (m.opening limits).1.completions ∨ m.takenUp? = some done := by
  obtain ⟨⟨w, shutdown, held⟩, occurrence⟩ := m
  dsimp only at hdone
  cases occurrence with
  | signalled => exact .inl hdone
  | resolved call outcome => exact .inl (List.mem_append_left _ hdone)
  | worked event =>
    cases event with
    | shutdown => exact .inl hdone
    | received chunk => exact .inl hdone
    | lost => exact .inl hdone
    | wrote count => exact .inl hdone
    | writeFailed => exact .inl hdone
    | drained =>
      unfold Moment.opening Moment.takenUp?
      dsimp only
      cases hcompletions : w.completions with
      | nil =>
        rw [hcompletions] at hdone
        cases hdone
      | cons first later =>
        rw [hcompletions] at hdone
        rcases List.mem_cons.mp hdone with rfl | hlater
        · exact .inr rfl
        · refine .inl ?_
          dsimp only
          rw [completions_complete]
          exact hlater

/-- **A call stays pending until its resolution is taken up.** -/
theorem Moment.pending (service : Service σ) (limits : EndpointConfig) (m : Moment σ)
    {call : IncompleteCall} (hcall : call ∈ m.before.pending) :
    call ∈ (m.scene service limits).pending
      ∨ ∃ done, m.takenUp? = some done ∧ done.call = call := by
  obtain ⟨effects, -, hpumping⟩ := m.pumping service limits
  -- what waits in the queue before frames are taken waits there afterwards
  have hqueued : ∀ done ∈ (m.opening limits).1.completions,
      done.call ∈ (m.scene service limits).pending := by
    intro done hdone
    refine List.mem_append_right _ (List.mem_map_of_mem ?_)
    show done ∈ (m.worker service limits).completions
    rw [hpumping.completions]
    exact List.mem_append_left _ hdone
  rcases List.mem_append.mp hcall with hheld | hwaits
  · left
    obtain ⟨⟨w, shutdown, held⟩, occurrence⟩ := m
    cases occurrence with
    | signalled => exact List.mem_append_left _ hheld
    | worked event => exact List.mem_append_left _ (List.mem_append_left _ hheld)
    | resolved resolved outcome =>
      by_cases hsame : call = resolved
      · subst hsame
        exact hqueued ⟨call, outcome⟩ (List.mem_append_right _ (List.mem_singleton_self _))
      · exact List.mem_append_left _ ((List.mem_erase_of_ne hsame).mpr hheld)
  · obtain ⟨done, hdone, rfl⟩ := List.mem_map.mp hwaits
    rcases m.completions_opening limits hdone with hstill | htaken
    · exact .inl (hqueued done hstill)
    · exact .inr ⟨done, htaken, rfl⟩

/-- A call that is handed over is kept, or its resolution waits. -/
theorem Moment.pending_of_dispatched {m : Moment σ} {d : Dispatch}
    (hd : d ∈ dispatchesIn (m.effects service limits)) :
    d.call ∈ (m.scene service limits).pending := by
  obtain ⟨effects, heffects, hpumping⟩ := m.pumping service limits
  rw [heffects, dispatchesIn_append, (m.opened limits).dispatched, List.nil_append] at hd
  cases hresolution : d.resolution? with
  | some done =>
    have hcall : done.call = d.call := by
      unfold Dispatch.resolution? at hresolution
      obtain ⟨outcome, -, rfl⟩ := Option.map_eq_some_iff.mp hresolution
      rfl
    rw [← hcall]
    refine List.mem_append_right _ (List.mem_map_of_mem ?_)
    show done ∈ (m.worker service limits).completions
    rw [hpumping.completions]
    exact List.mem_append_right _ (List.mem_filterMap.mpr ⟨d, hd, hresolution⟩)
  | none =>
    have hkept : d.kept? = some d.call := by
      unfold Dispatch.resolution? at hresolution
      unfold Dispatch.kept?
      rw [Option.map_eq_none_iff.mp hresolution]
    have hd' : d ∈ dispatchesIn (m.effects service limits) := by
      rw [heffects, dispatchesIn_append]
      exact List.mem_append_right _ hd
    refine List.mem_append_left _ ?_
    obtain ⟨⟨w, shutdown, held⟩, occurrence⟩ := m
    cases occurrence with
    | signalled => cases hd'
    | resolved call outcome => cases hd'
    | worked event =>
      exact List.mem_append_right _ (List.mem_filterMap.mpr ⟨d, hd', hkept⟩)

/-- **Whatever is outstanding is still to be resolved, or its resolution waits.** -/
theorem Run.awaited (run : Run service limits history s) {entry : SequenceNumber × Ticket}
    (hentry : entry ∈ s.worker.outstanding) : ∃ call ∈ s.pending, entryOf call = entry := by
  induction run with
  | start peer => cases hentry
  | @next history s run occurrence hadmits ih =>
    have houtstanding := (⟨s, occurrence⟩ : Moment σ).outstanding service limits
    replace hentry : entry ∈ ((⟨s, occurrence⟩ : Moment σ).worker service limits).outstanding :=
      hentry
    rw [houtstanding] at hentry
    rcases List.mem_append.mp hentry with hstays | hnew
    · obtain ⟨hbefore, hother⟩ := List.mem_filter.mp hstays
      obtain ⟨call, hcall, rfl⟩ := ih hbefore
      rcases (⟨s, occurrence⟩ : Moment σ).pending service limits hcall with hstill | htaken
      · exact ⟨call, hstill, rfl⟩
      · -- the resolution that is taken up takes the entry of its own call with it
        obtain ⟨done, htaken, rfl⟩ := htaken
        rw [htaken] at hother
        simp [entryOf] at hother
    · obtain ⟨d, hd, hadmitted⟩ := List.mem_filterMap.mp hnew
      refine ⟨d.call, Moment.pending_of_dispatched hd, ?_⟩
      unfold Dispatch.admitted? at hadmitted
      split at hadmitted
      · exact Option.some.inj hadmitted
      · cases hadmitted

/-! ## §3. What a worker has written. -/

@[simp] theorem queuedIn_map_queued (frames : List ResponseFrame) :
    queuedIn (frames.map .queued) = frames := by
  unfold queuedIn
  rw [List.filterMap_map]
  exact List.filterMap_some

/-- A stream breaks when it is lost, and stays broken. -/
theorem Moment.broken (service : Service σ) (limits : EndpointConfig) (m : Moment σ) :
    (m.worker service limits).broken = (m.before.worker.broken || m.isLoss) := by
  obtain ⟨effects, -, hpumping⟩ := m.pumping service limits
  rw [hpumping.broken]
  obtain ⟨⟨w, shutdown, held⟩, occurrence⟩ := m
  cases occurrence with
  | signalled => exact (Bool.or_false _).symm
  | resolved call outcome => exact (Bool.or_false _).symm
  | worked event =>
    cases event with
    | shutdown => exact (Bool.or_false _).symm
    | received chunk => exact (Bool.or_false _).symm
    | wrote count => exact (Bool.or_false _).symm
    | lost => exact (Bool.or_true _).symm
    | writeFailed => exact (Bool.or_true _).symm
    | drained =>
      unfold Moment.opening
      dsimp only
      cases w.completions with
      | nil => exact (Bool.or_false _).symm
      | cons done later =>
        exact (complete_same limits done { w with completions := later }).2.1.trans
          (Bool.or_false _).symm

/-- **Before frames are taken**, what is unsent grows by the responses that are queued and shrinks
by what is written, while the peer listens. -/
theorem Moment.sent_opening {m : Moment σ}
    (hlistens : m.before.worker.broken = false) (hstays : m.isLoss = false) :
    m.wrote ++ (m.opening limits).1.unsent
      = m.before.worker.unsent ++ (queuedIn (m.opening limits).2).flatMap (written limits) := by
  obtain ⟨⟨w, shutdown, held⟩, occurrence⟩ := m
  cases occurrence with
  | signalled => exact (List.append_nil _).symm
  | resolved call outcome => exact (List.append_nil _).symm
  | worked event =>
    cases event with
    | shutdown => exact (List.append_nil _).symm
    | received chunk => exact (List.append_nil _).symm
    | lost => cases hstays
    | writeFailed => cases hstays
    | wrote count => exact (List.take_append_drop count w.unsent).trans (List.append_nil _).symm
    | drained =>
      unfold Moment.opening Moment.wrote
      dsimp only at hlistens ⊢
      cases w.completions with
      | nil => exact (List.append_nil _).symm
      | cons done later =>
        dsimp only
        cases hfind : ({ w with completions := later } : Worker σ).outstanding?
            done.call.sequence with
        | none =>
          rw [complete_eq_self hfind]
          exact (List.append_nil _).symm
        | some ticket =>
          have hanswers : queuedIn (.finished done.call done.outcome
              :: ((({ w with completions := later } : Worker σ).answers done).map .queued))
                = ({ w with completions := later } : Worker σ).answers done :=
            queuedIn_map_queued _
          rw [complete_eq hfind, hanswers]
          rfl

/-- **Every response that was queued is written or unsent**, while the peer listens. -/
theorem Run.accounted (run : Run service limits history s) (hlistens : s.worker.broken = false) :
    writtenOf history ++ s.worker.unsent
      = (queuedIn (effectsOf service limits history)).flatMap (written limits) := by
  induction run with
  | start peer => rfl
  | @next history s run occurrence hadmits ih =>
    obtain ⟨effects, heffects, hpumping⟩ := (⟨s, occurrence⟩ : Moment σ).pumping service limits
    have hbroken := (⟨s, occurrence⟩ : Moment σ).broken service limits
    rw [show ((⟨s, occurrence⟩ : Moment σ).worker service limits).broken = false from hlistens]
      at hbroken
    obtain ⟨hbefore, hstays⟩ := Bool.or_eq_false_iff.mp hbroken.symm
    have hopening : _ ++ ((⟨s, occurrence⟩ : Moment σ).opening limits).1.unsent = _ :=
      Moment.sent_opening hbefore hstays
    show _ ++ ((⟨s, occurrence⟩ : Moment σ).worker service limits).unsent = _
    calc writtenOf (history ++ [⟨s, occurrence⟩])
          ++ ((⟨s, occurrence⟩ : Moment σ).worker service limits).unsent
        = writtenOf history ++ ((⟨s, occurrence⟩ : Moment σ).wrote
            ++ ((⟨s, occurrence⟩ : Moment σ).opening limits).1.unsent)
            ++ (queuedIn effects).flatMap (written limits) := by
          rw [writtenOf_concat, hpumping.unsent]
          simp only [List.append_assoc]
      _ = (queuedIn (effectsOf service limits history)).flatMap (written limits)
            ++ (queuedIn ((⟨s, occurrence⟩ : Moment σ).effects service limits)).flatMap
              (written limits) := by
          rw [hopening, ← List.append_assoc, ih hbefore, heffects, queuedIn_append,
            List.flatMap_append, List.append_assoc]
      _ = (queuedIn (effectsOf service limits (history ++ [⟨s, occurrence⟩]))).flatMap
            (written limits) := by
          rw [effectsOf_concat, queuedIn_append, List.flatMap_append]

/-! ## §4. A worker that does not read. -/

/-- **A worker that does not read takes no frames.** -/
theorem Moment.stopped {m : Moment σ} (hadmits : m.before.Admits limits m.occurrence)
    (hstopped : m.before.worker.reading = false) :
    m.worker service limits = (m.opening limits).1
      ∧ m.effects service limits = (m.opening limits).2 := by
  obtain ⟨⟨w, shutdown, held⟩, occurrence⟩ := m
  dsimp only at hstopped
  cases occurrence with
  | signalled => exact ⟨rfl, rfl⟩
  | resolved call outcome => exact ⟨rfl, rfl⟩
  | worked event =>
    have henabled := hadmits.2
    cases event with
    | lost => exact ⟨rfl, rfl⟩
    | writeFailed => exact ⟨rfl, rfl⟩
    | wrote count => exact ⟨rfl, rfl⟩
    | shutdown =>
      unfold enabled at henabled
      rw [hstopped, Bool.and_false] at henabled
      cases henabled
    | received chunk =>
      unfold enabled canRead at henabled
      rw [hstopped] at henabled
      cases henabled
    | drained =>
      unfold Moment.worker Moment.effects Moment.opening Scene.after step
      dsimp only
      cases w.completions with
      | nil => exact ⟨rfl, rfl⟩
      | cons done later =>
        have hstill : ¬ (({ w with completions := later } : Worker σ).complete limits
            done).1.reading = true := by
          rw [(complete_same limits done { w with completions := later }).1]
          simp [hstopped]
        dsimp only
        rw [if_neg hstill]
        exact ⟨rfl, rfl⟩

/-- **A worker that does not read does not read again.** -/
theorem Moment.stays_stopped {m : Moment σ} (hstopped : m.before.worker.reading = false) :
    (m.worker service limits).reading = false := by
  obtain ⟨effects, -, hpumping⟩ := m.pumping service limits
  cases hreading : (m.worker service limits).reading with
  | false => rfl
  | true =>
    have hopen := (m.opened limits).reading (hpumping.reading hreading)
    rw [hstopped] at hopen
    cases hopen

/-- A broken worker queues nothing, and sends nothing. -/
theorem Moment.unsent_of_broken {m : Moment σ} (hadmits : m.before.Admits limits m.occurrence)
    (hbroken : m.before.worker.broken = true) (hstopped : m.before.worker.reading = false)
    (hnothing : m.before.worker.unsent = []) : (m.worker service limits).unsent = [] := by
  rw [(Moment.stopped hadmits hstopped).1]
  obtain ⟨⟨w, shutdown, held⟩, occurrence⟩ := m
  dsimp only at hbroken hnothing
  cases occurrence with
  | signalled => exact hnothing
  | resolved call outcome => exact hnothing
  | worked event =>
    cases event with
    | shutdown => exact hnothing
    | received chunk => exact hnothing
    | lost => rfl
    | writeFailed => rfl
    | wrote count =>
      show w.unsent.drop count = []
      rw [hnothing, List.drop_nil]
    | drained =>
      unfold Moment.opening
      dsimp only
      cases w.completions with
      | nil => exact hnothing
      | cons done later =>
        dsimp only
        cases hfind : ({ w with completions := later } : Worker σ).outstanding?
            done.call.sequence with
        | none =>
          rw [complete_eq_self hfind]
          exact hnothing
        | some ticket =>
          rw [complete_eq hfind]
          simp [answers, hbroken, hnothing]

/-- **A broken worker does not read, and has nothing unsent.** -/
theorem Run.broken (run : Run service limits history s) (hbroken : s.worker.broken = true) :
    s.worker.reading = false ∧ s.worker.unsent = [] := by
  induction run with
  | start peer => cases hbroken
  | @next history s run occurrence hadmits ih =>
    have hcause := (⟨s, occurrence⟩ : Moment σ).broken service limits
    rw [show ((⟨s, occurrence⟩ : Moment σ).worker service limits).broken = true from hbroken]
      at hcause
    rcases Bool.or_eq_true_iff.mp hcause.symm with hbefore | hloss
    · obtain ⟨hstopped, hnothing⟩ := ih hbefore
      exact ⟨Moment.stays_stopped (m := ⟨s, occurrence⟩) hstopped,
        Moment.unsent_of_broken (m := ⟨s, occurrence⟩) hadmits hbefore hstopped hnothing⟩
    · -- the stream is lost now
      unfold Moment.isLoss at hloss
      split at hloss
      · next hlost =>
        dsimp only at hlost
        subst hlost
        exact ⟨rfl, rfl⟩
      · next hlost =>
        dsimp only at hlost
        subst hlost
        exact ⟨rfl, rfl⟩
      · cases hloss

/-! ## §5. What happens later. -/

/-- A worker goes on from some scene. -/
inductive Goes (service : Service σ) (limits : EndpointConfig) (s : Scene σ) :
    List (Moment σ) → Scene σ → Prop where
  /-- Nothing has happened since. -/
  | here : Goes service limits s [] s
  /-- Something else happens. -/
  | next {later : List (Moment σ)} {s' : Scene σ} (onward : Goes service limits s later s')
    (occurrence : Occurrence) : s'.Admits limits occurrence →
    Goes service limits s (later ++ [⟨s', occurrence⟩]) (s'.after service limits occurrence).1

variable {later : List (Moment σ)} {s' : Scene σ}

/-- A run that goes on is a run. -/
theorem Goes.run (onward : Goes service limits s later s') (run : Run service limits history s) :
    Run service limits (history ++ later) s' := by
  induction onward with
  | here =>
    rw [List.append_nil]
    exact run
  | next onward occurrence hadmits ih =>
    rw [← List.append_assoc]
    exact ih.next occurrence hadmits

/-- Something happens, and a worker goes on from there. -/
theorem Goes.cons {occurrence : Occurrence} (hadmits : s.Admits limits occurrence)
    (onward : Goes service limits (s.after service limits occurrence).1 later s') :
    Goes service limits s (⟨s, occurrence⟩ :: later) s' := by
  induction onward with
  | here => exact .next .here occurrence hadmits
  | next onward following hfollowing ih => exact ih.next following hfollowing

/-- **Once reading is off it stays off, and no other call is handed over.** -/
theorem Goes.stays_stopped (onward : Goes service limits s later s')
    (hstopped : s.worker.reading = false) :
    s'.worker.reading = false ∧ dispatchesIn (effectsOf service limits later) = [] := by
  induction onward with
  | here => exact ⟨hstopped, rfl⟩
  | @next later s' onward occurrence hadmits ih =>
    obtain ⟨hstill, hnone⟩ := ih
    refine ⟨Moment.stays_stopped (m := ⟨s', occurrence⟩) hstill, ?_⟩
    rw [effectsOf_concat, dispatchesIn_append, hnone, List.nil_append]
    exact Moment.dispatched_of_stopped (m := ⟨s', occurrence⟩) hadmits hstill

/-! ## §6. The end of a worker. -/

/-- What is left to do: bytes are to be written, resolutions are to be taken up and then written,
and calls are to be resolved first. -/
def Scene.toDo (limits : EndpointConfig) (s : Scene σ) : Nat :=
  s.worker.unsent.length + (responseRoom limits + 1) * s.worker.completions.length
    + (responseRoom limits + 2) * s.held.length

/-- **A step of a worker that does not read** leaves less to be taken up and written. -/
theorem Moment.backlog_lt {event : Event} (hadmits : s.Admits limits (.worked event))
    (hstopped : s.worker.reading = false) :
    ((⟨s, .worked event⟩ : Moment σ).opening limits).1.unsent.length
        + (responseRoom limits + 1)
          * ((⟨s, .worked event⟩ : Moment σ).opening limits).1.completions.length
      < s.worker.unsent.length + (responseRoom limits + 1) * s.worker.completions.length := by
  obtain ⟨w, shutdown, held⟩ := s
  have henabled := hadmits.2
  dsimp only at hstopped
  cases event with
  | shutdown =>
    unfold enabled at henabled
    rw [hstopped, Bool.and_false] at henabled
    cases henabled
  | received chunk =>
    unfold enabled canRead at henabled
    rw [hstopped] at henabled
    cases henabled
  | lost =>
    unfold enabled canRead at henabled
    rw [hstopped] at henabled
    cases henabled
  | wrote count =>
    unfold enabled at henabled
    simp only [Bool.and_eq_true, decide_eq_true_eq] at henabled
    apply Nat.add_lt_add_right
    show (w.unsent.drop count).length < w.unsent.length
    rw [List.length_drop]
    omega
  | writeFailed =>
    have hunsent := ((canWrite_iff w).mp henabled).2
    exact Nat.add_lt_add_right (List.length_pos_iff.mpr hunsent) _
  | drained =>
    unfold Moment.opening
    dsimp only
    cases hcompletions : w.completions with
    | nil =>
      unfold enabled at henabled
      dsimp only at henabled
      rw [hcompletions] at henabled
      exact absurd (Bool.and_eq_true_iff.mp henabled).2 Bool.false_ne_true
    | cons done later =>
      -- one resolution less, and one response more at most
      have hone := length_unsent_complete limits done { w with completions := later }
      dsimp only at hone ⊢
      rw [completions_complete, List.length_cons, Nat.mul_add]
      dsimp only
      omega

/-- **Whatever happens to a worker that does not read, less is left to do then.** -/
theorem Moment.toDo_lt {m : Moment σ} (hadmits : m.before.Admits limits m.occurrence)
    (hstopped : m.before.worker.reading = false) (hmatters : m.occurrence ≠ .signalled) :
    (m.scene service limits).toDo limits < m.before.toDo limits := by
  have hworker : m.worker service limits = _ := (Moment.stopped hadmits hstopped).1
  have hnone : dispatchesIn (m.effects service limits) = [] :=
    Moment.dispatched_of_stopped hadmits hstopped
  obtain ⟨s, occurrence⟩ := m
  dsimp only at hstopped hmatters
  cases occurrence with
  | signalled => exact absurd rfl hmatters
  | worked event =>
    have hheld : ((⟨s, .worked event⟩ : Moment σ).scene service limits).held = s.held := by
      show s.held ++ (dispatchesIn ((⟨s, .worked event⟩ : Moment σ).effects service
        limits)).filterMap (·.kept?) = s.held
      rw [hnone]
      exact List.append_nil s.held
    have hless := Moment.backlog_lt hadmits hstopped
    rw [← hworker] at hless
    unfold Scene.toDo
    rw [hheld]
    exact Nat.add_lt_add_right hless _
  | resolved call outcome =>
    -- a call that is held turns into a resolution that waits
    have hheld : (s.held.erase call).length + 1 = s.held.length :=
      List.length_erase_add_one hadmits
    let waiting := s.worker.completions ++ [(⟨call, outcome⟩ : Completed)]
    have hwaits : waiting.length = s.worker.completions.length + 1 := List.length_append
    show s.worker.unsent.length + (responseRoom limits + 1) * waiting.length
        + (responseRoom limits + 2) * (s.held.erase call).length < s.toDo limits
    unfold Scene.toDo
    rw [hwaits, ← hheld, Nat.mul_add, Nat.mul_add]
    omega

/-- Whether anything happens to the worker at a moment, or to a call of its. -/
def Moment.matters (m : Moment σ) : Bool :=
  match m.occurrence with
  | .signalled => false
  | .worked _ | .resolved _ _ => true

/-- **A worker that does not read has only so many moments left.** -/
theorem Goes.length_le (onward : Goes service limits s later s')
    (hstopped : s.worker.reading = false) :
    (later.filter (·.matters)).length + s'.toDo limits ≤ s.toDo limits := by
  induction onward with
  | here => exact Nat.le_of_eq (Nat.zero_add _)
  | @next later s' onward occurrence hadmits ih =>
    have hstill := (onward.stays_stopped hstopped).1
    rw [List.filter_append, List.length_append]
    by_cases hsignalled : occurrence = .signalled
    · subst hsignalled
      exact ih
    · have hless : (s'.after service limits occurrence).1.toDo limits < s'.toDo limits :=
        Moment.toDo_lt (m := ⟨s', occurrence⟩) hadmits hstill hsignalled
      have hone : ([⟨s', occurrence⟩].filter (·.matters) : List (Moment σ)).length ≤ 1 :=
        List.length_filter_le _ _
      omega

/-- **A worker that does not read and is not done goes on**, when it writes, when it takes up a
resolution, or when a call that it waits for is resolved. -/
theorem Run.goes_on (run : Run service limits history s) (hvalid : limits.validate = .ok ())
    (hstopped : s.worker.reading = false) (hbusy : s.worker.isDone = false) :
    ∃ occurrence, occurrence ≠ .signalled ∧ s.Admits limits occurrence := by
  rcases write_or_drain hvalid hstopped hbusy with ⟨hwrites, hunsent⟩ | ⟨hdrains, hcalls⟩
  · have hsome := List.length_pos_iff.mpr hunsent
    refine ⟨.worked (.wrote 1), nofun, hbusy, ?_⟩
    unfold enabled
    rw [show s.worker.canWrite = true from hwrites]
    simpa using Nat.succ_le_of_lt hsome
  · obtain ⟨entry, hentry⟩ := List.exists_mem_of_ne_nil _ hcalls
    obtain ⟨call, hcall, -⟩ := run.awaited hentry
    rcases List.mem_append.mp hcall with hheld | hwaits
    · exact ⟨.resolved call (.ok []), nofun, hheld⟩
    · obtain ⟨done, hdone, -⟩ := List.mem_map.mp hwaits
      refine ⟨.worked .drained, nofun, hbusy, ?_⟩
      unfold enabled
      rw [show s.worker.canDrain limits = true from hdrains]
      cases hcompletions : s.worker.completions with
      | nil =>
        rw [hcompletions] at hdone
        cases hdone
      | cons first rest => rfl

/-- **A worker that does not read can come to its end.** -/
theorem Run.comes_to_an_end (run : Run service limits history s)
    (hvalid : limits.validate = .ok ()) (hstopped : s.worker.reading = false) :
    ∃ later s', Goes service limits s later s' ∧ s'.worker.isDone = true := by
  -- less is left to do at each moment
  induction hleft : s.toDo limits using Nat.strongRecOn generalizing history s with
  | ind left ih =>
    cases hdone : s.worker.isDone with
    | true => exact ⟨[], s, .here, hdone⟩
    | false =>
      obtain ⟨occurrence, hmatters, hadmits⟩ := run.goes_on hvalid hstopped hdone
      have hless : (s.after service limits occurrence).1.toDo limits < s.toDo limits :=
        Moment.toDo_lt (m := ⟨s, occurrence⟩) hadmits hstopped hmatters
      have hstill : (s.after service limits occurrence).1.worker.reading = false :=
        Moment.stays_stopped (m := ⟨s, occurrence⟩) hstopped
      obtain ⟨later, s', onward, hend⟩ :=
        ih _ (hleft ▸ hless) (run.next occurrence hadmits) hstill rfl
      exact ⟨_, s', .cons hadmits onward, hend⟩

/-! ## §7. Runs. -/

/-- A worker that has come this far is not stuck, and has left nothing undone. -/
structure Unstuck (service : Service σ) (limits : EndpointConfig) (history : List (Moment σ))
    (s : Scene σ) : Prop where
  /-- A worker whose stream is broken does not read, and has nothing unsent. -/
  broken : s.worker.broken = true → s.worker.reading = false ∧ s.worker.unsent = []
  /-- A worker that is not done waits for something. -/
  waits : s.worker.isDone = false → ∃ branch, Branch.isOpen limits s.worker branch = true
  /-- If it does not read, it waits for room to write what is unsent, or for the resolution of calls
  that are outstanding. -/
  finishes : s.worker.isDone = false → s.worker.reading = false →
    (Branch.isOpen limits s.worker .write = true ∧ s.worker.unsent ≠ [])
      ∨ (Branch.isOpen limits s.worker .drain = true ∧ s.worker.outstanding ≠ [])
  /-- Whatever is outstanding is still held, or its resolution waits. -/
  awaited : ∀ entry ∈ s.worker.outstanding, ∃ call ∈ s.pending, entryOf call = entry
  /-- A worker that is done has nothing outstanding, and its stream is broken or everything that was
  queued has been written. -/
  leaves : s.worker.isDone = true → s.worker.outstanding = []
    ∧ (s.worker.broken = true
      ∨ writtenOf history
        = (queuedIn (effectsOf service limits history)).flatMap (written limits))
  /-- Once reading is off it stays off, no other call is handed over, and only so many moments are
  left. -/
  stays : s.worker.reading = false → ∀ {later : List (Moment σ)} {s' : Scene σ},
    Goes service limits s later s' →
      s'.worker.reading = false ∧ dispatchesIn (effectsOf service limits later) = []
      ∧ (later.filter (·.matters)).length ≤ s.toDo limits
  /-- And the worker can come to its end. -/
  ends : s.worker.reading = false →
    ∃ later s', Goes service limits s later s' ∧ s'.worker.isDone = true

/-- **A worker does not get stuck, and leaves nothing undone.**  The limits are any that an endpoint
accepts; the service and the peer are any, and so is the order in which bytes arrive, the stream is
lost, calls are resolved, responses are written and the endpoint is told to shut down. -/
theorem workers_do_not_get_stuck (hvalid : limits.validate = .ok ())
    (run : Run service limits history s) : Unstuck service limits history s where
  broken := run.broken
  waits hbusy := by
    cases hreading : s.worker.reading with
    | true => exact ⟨.shutdown, hreading⟩
    | false =>
      rcases write_or_drain hvalid hreading hbusy with ⟨hwrites, -⟩ | ⟨hdrains, -⟩
      · exact ⟨.write, hwrites⟩
      · exact ⟨.drain, hdrains⟩
  finishes hbusy hstopped := write_or_drain hvalid hstopped hbusy
  awaited _ hentry := run.awaited hentry
  leaves hdone := by
    have hstopped : s.worker.reading = false := by
      unfold isDone at hdone
      simp only [Bool.and_eq_true, Bool.not_eq_true'] at hdone
      exact hdone.1.1
    obtain ⟨hidle, hsent⟩ := (isDone_iff hstopped).mp hdone
    refine ⟨hidle, ?_⟩
    cases hbroken : s.worker.broken with
    | true => exact .inl rfl
    | false =>
      have hunsent := hsent.resolve_left (by rw [hbroken]; exact Bool.false_ne_true)
      have hall := run.accounted hbroken
      rw [hunsent, List.append_nil] at hall
      exact .inr hall
  stays hstopped later s' onward := by
    obtain ⟨hstill, hnone⟩ := onward.stays_stopped hstopped
    have hlength := onward.length_le hstopped
    exact ⟨hstill, hnone, by omega⟩
  ends hstopped := run.comes_to_an_end hvalid hstopped

/-- A call is kept when the endpoint shuts down: the worker waits for its resolution, and reads no
more.  When it is resolved, taken up and written, the worker is done. -/
theorem workers_do_not_get_stuck_when_one_is_kept :
    narrow.validate = .ok ()
      ∧ ∃ (before after : List (Moment Unit)) (s s' : Scene Unit),
        Run keeper narrow before s ∧ Run keeper narrow after s'
        ∧ s.worker.reading = false ∧ s.worker.isDone = false
        ∧ Unstuck keeper narrow before s
        ∧ s.pending = [⟨0, 0, defaultVersion⟩]
        ∧ s'.worker.isDone = true ∧ s'.worker.broken = false
        ∧ writtenOf after = (queuedIn (effectsOf keeper narrow after)).flatMap (written narrow)
        ∧ (queuedIn (effectsOf keeper narrow after)).length = 1 := by
  have start : Run keeper narrow [] _ := .start (.unix ⟨"/agent"⟩)
  have arrived := start.next (.worked (.received fullCall)) (by decide +kernel)
  have signalled := arrived.next .signalled (by decide +kernel)
  have stopped := signalled.next (.worked .shutdown) (by decide +kernel)
  have resolved := stopped.next (.resolved ⟨0, 0, defaultVersion⟩ (.ok [9])) (by decide +kernel)
  have drained := resolved.next (.worked .drained) (by decide +kernel)
  have wrote := drained.next (.worked (.wrote 14)) (by decide +kernel)
  have hdone := (workers_do_not_get_stuck rfl wrote).leaves (by decide +kernel)
  refine ⟨rfl, _, _, _, _, stopped, wrote, by decide +kernel, by decide +kernel,
    workers_do_not_get_stuck rfl stopped, by decide +kernel, by decide +kernel, by decide +kernel,
    hdone.2.resolve_left (by decide +kernel), by decide +kernel⟩

end RemoteCall.Worker
