/-
  RemoteCall.Proofs.Server.Backlog
  ────────────────────────────────
  **HOW MUCH A WORKER HOLDS THAT IT HAS NOT SENT.**

  A worker takes up a resolution only while fewer bytes than `txBufferLimit` are
  unsent, so resolutions bring the transmit buffer to that limit and one
  response beyond it.  The answer to a call that the service rejects is put there
  without a look at the limit.  While the worker reads, nothing else is:

      unsent  ≤  txBufferLimit + one response + answers to rejections

  The answers are those to the calls rejected since the bound last held without them.
  For a service that rejects no call this is a bound on what a peer can make the
  worker hold (`unsent_is_bounded_up_to_rejections`).  For one that does there is
  none: a peer that never reads has the worker hold as much as it wants, whatever
  the limits are (`rejections_are_unbounded`).

  Main statements:
    • `length_written_le`, `Moment.unsent`    — one response, one moment,
    • `unsent_is_bounded_up_to_rejections`    — a run,
    • `rejections_are_unbounded`              — what a peer can do.
-/
import RemoteCall.Proofs.Server.Admission
import RemoteCall.Proofs.Server.Attribution

namespace RemoteCall.Worker

variable {σ : Type} {service : Service σ} {limits : EndpointConfig} {history : List (Moment σ)}
  {s : Scene σ}

/-! ## §1. One response, one moment. -/

/-- What one response may take: its size field, and the largest body. -/
def responseRoom (limits : EndpointConfig) : Nat :=
  Frame.sizeLength + limits.maxMessageSize

theorem length_of_encode {frame : ResponseFrame} {max : Nat} {bytes : Bytes}
    (h : frame.encode max = .ok bytes) : bytes.length ≤ Frame.sizeLength + max := by
  rw [ResponseFrame.encode_eq] at h
  split at h
  · cases h
  · next hfits =>
    cases h
    unfold ResponseFrame.bytes
    rw [List.length_append, BigEndian.length_encode, ResponseFrame.length_body]
    omega

/-- **A response takes no more than there is room for one.** -/
theorem length_written_le (limits : EndpointConfig) (frame : ResponseFrame) :
    (written limits frame).length ≤ responseRoom limits := by
  unfold written
  split
  · exact length_of_encode ‹_›
  · split
    · exact length_of_encode ‹_›
    · exact Nat.zero_le _

/-- The bytes of the answers to the calls that were rejected. -/
def rejectedBytes (limits : EndpointConfig) (effects : List WorkerEffect) : Bytes :=
  (rejectionsIn effects).flatMap (written limits)

theorem rejectedBytes_append (limits : EndpointConfig) (xs ys : List WorkerEffect) :
    rejectedBytes limits (xs ++ ys) = rejectedBytes limits xs ++ rejectedBytes limits ys := by
  simp [rejectedBytes]

/-- To take up a resolution is to write one response at most. -/
theorem length_unsent_complete (limits : EndpointConfig) (done : Completed) (w : Worker σ) :
    (w.complete limits done).1.unsent.length ≤ w.unsent.length + responseRoom limits := by
  cases hfind : w.outstanding? done.call.sequence with
  | none =>
    rw [complete_eq_self hfind]
    exact Nat.le_add_right _ _
  | some ticket =>
    have hone : ((w.answers done).flatMap (written limits)).length ≤ responseRoom limits := by
      unfold answers
      split
      · exact Nat.zero_le _
      · rw [List.flatMap_singleton]
        exact length_written_le limits (answerTo done)
    rw [complete_eq hfind]
    dsimp only
    rw [List.length_append]
    omega

/-- Before frames are taken, the transmit buffer grows by one response at most, and only if it was
below its limit. -/
theorem Moment.unsent_opening {m : Moment σ} (hadmits : m.before.Admits limits m.occurrence)
    (hlistens : m.before.worker.broken = false) :
    (m.opening limits).1.unsent.length
      ≤ max m.before.worker.unsent.length (limits.txBufferLimit + responseRoom limits) := by
  obtain ⟨⟨w, shutdown, held⟩, occurrence⟩ := m
  dsimp only at hlistens
  cases occurrence with
  | signalled => exact Nat.le_max_left _ _
  | resolved call outcome => exact Nat.le_max_left _ _
  | worked event =>
    cases event with
    | shutdown => exact Nat.le_max_left _ _
    | received chunk => exact Nat.le_max_left _ _
    | lost => exact Nat.zero_le _
    | writeFailed => exact Nat.zero_le _
    | wrote count =>
      apply Nat.le_trans _ (Nat.le_max_left _ _)
      show (w.unsent.drop count).length ≤ w.unsent.length
      rw [List.length_drop]
      exact Nat.sub_le _ _
    | drained =>
      have hbelow : w.unsent.length < limits.txBufferLimit := by
        have henabled := hadmits.2
        unfold enabled canDrain at henabled
        rw [hlistens] at henabled
        simp only [Bool.false_or, Bool.and_eq_true, decide_eq_true_eq] at henabled
        exact henabled.1
      unfold Moment.opening
      dsimp only
      cases w.completions with
      | nil => exact Nat.le_max_left _ _
      | cons done later =>
        have hone := length_unsent_complete limits done { w with completions := later }
        dsimp only at hone ⊢
        omega

/-- **At one moment** the transmit buffer of a worker that reads grows by the answers to rejections,
and otherwise no further than its limit and one response beyond it. -/
theorem Moment.unsent {m : Moment σ} (hadmits : m.before.Admits limits m.occurrence)
    (hlistens : m.before.worker.broken = false)
    (hreading : (m.worker service limits).reading = true) :
    (m.worker service limits).unsent.length
      ≤ max m.before.worker.unsent.length (limits.txBufferLimit + responseRoom limits)
        + (rejectedBytes limits (m.effects service limits)).length := by
  obtain ⟨effects, heffects, hpumping⟩ := m.pumping service limits
  have hnone : rejectedBytes limits (m.opening limits).2 = [] := by
    unfold rejectedBytes rejectionsIn
    rw [(m.opened limits).dispatched]
    rfl
  have hopening := m.unsent_opening hadmits hlistens
  rw [hpumping.unsent, hpumping.rejections hreading, heffects, rejectedBytes_append, hnone,
    List.nil_append, List.length_append]
  unfold rejectedBytes
  omega

/-! ## §2. Runs. -/

/-- The stream of a worker that reads is not broken. -/
theorem Run.listens (run : Run service limits history s) (hreading : s.worker.reading = true) :
    s.worker.broken = false := by
  induction run with
  | start peer => rfl
  | @next history s run occurrence hadmits ih =>
    obtain ⟨effects, -, hpumping⟩ := (⟨s, occurrence⟩ : Moment σ).pumping service limits
    have hopened := (⟨s, occurrence⟩ : Moment σ).opened limits
    have hopen := hpumping.reading hreading
    exact hpumping.broken.trans ((hopened.listens hopen).trans (ih (hopened.reading hopen)))

/-- What has happened determines where a run stands after its last moment. -/
theorem Run.of_concat {m : Moment σ} (run : Run service limits (history ++ [m]) s) :
    s = (m.before.after service limits m.occurrence).1 := by
  generalize hhistory : history ++ [m] = whole at run
  cases run with
  | start peer => exact absurd hhistory (by simp)
  | next run occurrence hadmits =>
    obtain ⟨-, hmoment⟩ := List.append_inj' hhistory rfl
    cases hmoment
    rfl

/-- **Unsent bytes are bounded, up to rejections.**  The limits, the service and the peer are any.
From any state of a run on in which the transmit buffer of the worker holds no more than its limit
and one response beyond it, as it does at the start, the buffer of a worker that reads holds no more
than that and the answers to the calls that the service has rejected since then. -/
theorem unsent_is_bounded_up_to_rejections {past recent : List (Moment σ)} {s₀ : Scene σ}
    (before : Run service limits past s₀)
    (hbefore : s₀.worker.unsent.length ≤ limits.txBufferLimit + responseRoom limits)
    (run : Run service limits (past ++ recent) s) (hreading : s.worker.reading = true) :
    s.worker.unsent.length ≤ limits.txBufferLimit + responseRoom limits
      + (rejectedBytes limits (effectsOf service limits recent)).length := by
  generalize hhistory : past ++ recent = history at run
  induction run generalizing recent with
  | start peer => exact Nat.zero_le _
  | @next history s run occurrence hadmits ih =>
    rcases List.eq_nil_or_concat recent with rfl | ⟨recent, m, rfl⟩
    · -- nothing has happened since then
      rw [List.append_nil] at hhistory
      rw [hhistory] at before
      rw [before.of_concat] at hbefore
      exact Nat.le_trans hbefore (Nat.le_add_right _ _)
    · rw [List.concat_eq_append, ← List.append_assoc] at hhistory
      obtain ⟨hpast, hmoment⟩ := List.append_inj' hhistory rfl
      cases hmoment
      obtain ⟨effects, -, hpumping⟩ := (⟨s, occurrence⟩ : Moment σ).pumping service limits
      have hopen : s.worker.reading = true :=
        ((⟨s, occurrence⟩ : Moment σ).opened limits).reading (hpumping.reading hreading)
      have hhere := ih hopen hpast
      have hmoment := Moment.unsent (m := ⟨s, occurrence⟩) hadmits (run.listens hopen) hreading
      rw [List.concat_eq_append, effectsOf_concat, rejectedBytes_append, List.length_append]
      dsimp only at hmoment
      show ((⟨s, occurrence⟩ : Moment σ).worker service limits).unsent.length ≤ _
      omega

/-- Little may be unsent, and little received at a time. -/
def tight : EndpointConfig := { txBufferLimit := 1, maxMessageSize := 64 }

/-- The written form of some calls without a payload. -/
def emptyCalls (count : Nat) : Bytes :=
  (List.range count).flatMap fun n => (RequestFrame.call defaultVersion n.toUInt64 []).bytes

/-- A call is kept, another is rejected, and the first is answered: what is unsent is more than the
limit, and no more than the bound. -/
theorem unsent_is_bounded_up_to_rejections_of_one :
    ∃ (past recent : List (Moment Unit)) (s₀ s : Scene Unit),
      Run picky tight past s₀
      ∧ s₀.worker.unsent.length ≤ tight.txBufferLimit + responseRoom tight
      ∧ Run picky tight (past ++ recent) s ∧ s.worker.reading = true
      ∧ tight.txBufferLimit < s.worker.unsent.length
      ∧ (rejectionsIn (effectsOf picky tight recent)).length = 1
      ∧ s.worker.unsent.length ≤ tight.txBufferLimit + responseRoom tight
        + (rejectedBytes tight (effectsOf picky tight recent)).length := by
  have start : Run picky tight [] _ := .start (.unix ⟨"/agent"⟩)
  have kept := start.next (.worked (.received fullCall)) (by decide +kernel)
  have resolved := kept.next (.resolved ⟨0, 0, defaultVersion⟩ (.ok [9])) (by decide +kernel)
  have drained := resolved.next (.worked .drained) (by decide +kernel)
  have rejected := drained.next (.worked (.received emptyCall)) (by decide +kernel)
  exact ⟨_, [_], _, _, drained, by decide +kernel, rejected, by decide +kernel, by decide +kernel,
    by decide +kernel, unsent_is_bounded_up_to_rejections drained (by decide +kernel) rejected
      (by decide +kernel)⟩

/-- **The limit does not hold back rejections.**  A peer sends three calls at once and reads nothing;
the service rejects them.  The worker reads on, with more bytes unsent than its limit and one
response beyond it. -/
theorem rejections_pass_the_limit :
    tight.validate = .ok ()
      ∧ ∃ (history : List (Moment Unit)) (s : Scene Unit),
        Run picky tight history s ∧ receivedOf history = emptyCalls 3
        ∧ s.worker.reading = true
        ∧ tight.txBufferLimit + responseRoom tight < s.worker.unsent.length := by
  have start : Run picky tight [] _ := .start (.unix ⟨"/agent"⟩)
  have arrived := start.next (.worked (.received (emptyCalls 3))) (by decide +kernel)
  exact ⟨rfl, _, _, arrived, by decide +kernel, by decide +kernel, by decide +kernel⟩

/-! ## §3. What a peer can do. -/

/-- A worker that waits for requests of the default version, with nothing to do. -/
structure Idle (w : Worker Unit) : Prop where
  reading : w.reading = true
  outstanding : w.outstanding = []
  speaks : w.version = none ∨ w.version = some defaultVersion

/-- The answer to a call that the picky service rejects. -/
def emptyAnswer : ResponseFrame := .failure 0 (.invalidMessage "empty")

namespace Idle

variable {w : Worker Unit}

/-- An idle worker hands an empty call over; it is rejected and answered, and the worker is idle. -/
theorem dispatch (h : Idle w) (limits : EndpointConfig) (shutdown : Bool) :
    let admitted := w.dispatch picky limits shutdown (.call defaultVersion 0 [])
    admitted.fault = none ∧ Idle admitted.worker
      ∧ admitted.worker.unsent = w.unsent ++ written limits emptyAnswer := by
  have hfree : w.outstanding? 0 = none := by
    unfold outstanding?
    rw [h.outstanding]
    rfl
  dsimp only
  rw [dispatch_eq hfree]
  refine ⟨rfl, ⟨h.reading, ?_, h.speaks⟩, rfl⟩
  show (w.outstanding ++ [((0 : SequenceNumber), w.nextTicket)]).filter (·.1 != 0) = []
  rw [filter_outstanding_of_free hfree]
  exact h.outstanding

theorem takeIn (h : Idle w) (limits : EndpointConfig) (shutdown : Bool) :
    let admitted := w.takeIn picky limits shutdown (.call defaultVersion 0 [])
    admitted.fault = none ∧ Idle admitted.worker
      ∧ admitted.worker.unsent = w.unsent ++ written limits emptyAnswer := by
  unfold Worker.takeIn Worker.checkVersion
  rcases h.speaks with hnone | hsome
  · -- the first frame fixes the version
    rw [hnone]
    have hspeaks : Idle { w with version := some defaultVersion } :=
      ⟨h.reading, h.outstanding, .inr rfl⟩
    exact hspeaks.dispatch limits shutdown
  · rw [hsome]
    exact h.dispatch limits shutdown

/-- **An idle worker takes an empty call off its buffer**, and is idle again. -/
theorem pump (h : Idle w) (hreceived : w.received = emptyCall)
    (hroom : 0 < limits.maxOutstandingCalls) (hmax : 64 ≤ limits.maxMessageSize)
    (shutdown : Bool) :
    Idle (w.pump picky limits shutdown).1 ∧ (w.pump picky limits shutdown).1.received = []
      ∧ (w.pump picky limits shutdown).1.unsent = w.unsent ++ written limits emptyAnswer := by
  have hframe : RequestFrame.decode limits.maxMessageSize emptyCall
      = .frame (.call defaultVersion 0 []) [] := by
    have hsized : (RequestFrame.call defaultVersion 0 []).Sized := ⟨rfl, by decide⟩
    have hfits : (RequestFrame.call defaultVersion 0 []).bodyLength ≤ limits.maxMessageSize :=
      Nat.le_trans (by decide) hmax
    have hdecoded := RequestFrame.decode_bytes_of_le hsized hfits []
    rw [List.append_nil] at hdecoded
    exact hdecoded
  have hempty : RequestFrame.decode limits.maxMessageSize [] = .incomplete := rfl
  have hfree : ∀ w' : Worker Unit, Idle w' → w'.isFull limits = false := by
    intro w' h'
    unfold isFull
    rw [h'.outstanding, List.length_nil]
    simp only [decide_eq_false_iff_not]
    omega
  obtain ⟨hfault, hidle, hunsent⟩ := h.takeIn limits shutdown
  -- the call, and then nothing more
  have hlast : (w.takeIn picky limits shutdown (.call defaultVersion 0 [])).worker.pumpFrom picky
      limits shutdown [] = ⟨(w.takeIn picky limits shutdown (.call defaultVersion 0 [])).worker, [],
        none, []⟩ := by
    rw [pumpFrom, if_neg (by simp [hfree _ hidle])]
    split
    · rfl
    · next hmore => rw [hempty] at hmore; cases hmore
    · next hmore => rw [hempty] at hmore; cases hmore
  have hpumped : w.pumpFrom picky limits shutdown emptyCall
      = ⟨(w.takeIn picky limits shutdown (.call defaultVersion 0 [])).worker, [], none,
        (w.takeIn picky limits shutdown (.call defaultVersion 0 [])).effects ++ []⟩ := by
    rw [pumpFrom, if_neg (by simp [hfree w h])]
    split
    · next hmore => rw [hframe] at hmore; cases hmore
    · next hmore => rw [hframe] at hmore; cases hmore
    · next hmore =>
      rw [hframe] at hmore
      cases hmore
      dsimp only
      rw [hfault, hlast]
  unfold Worker.pump
  rw [hreceived, hpumped]
  exact ⟨⟨hidle.reading, hidle.outstanding, hidle.speaks⟩, rfl, hunsent⟩

end Idle

/-- **There is no bound on the answers to rejections**, whatever the limits are that an endpoint
accepts, if one short message fits: a peer that sends calls and never reads has the worker hold as
many bytes as it wants, and the worker reads on. -/
theorem rejections_are_unbounded (hvalid : limits.validate = .ok ())
    (hmax : 64 ≤ limits.maxMessageSize) (count : Nat) :
    ∃ (history : List (Moment Unit)) (s : Scene Unit), Run picky limits history s
      ∧ s.worker.reading = true ∧ count ≤ s.worker.unsent.length := by
  have hroom : 0 < limits.maxOutstandingCalls := by
    unfold EndpointConfig.validate at hvalid
    split at hvalid
    · cases hvalid
    · omega
  have hlonger : 0 < (written limits emptyAnswer).length := by
    have hfits : emptyAnswer.bodyLength ≤ limits.maxMessageSize :=
      Nat.le_trans (by decide) hmax
    rw [written_eq_bytes hfits]
    decide
  -- one call more, and at least one byte more
  suffices h : ∃ (history : List (Moment Unit)) (s : Scene Unit), Run picky limits history s
      ∧ Idle s.worker ∧ s.worker.received = [] ∧ count ≤ s.worker.unsent.length by
    obtain ⟨history, s, run, hidle, -, hcount⟩ := h
    exact ⟨history, s, run, hidle.reading, hcount⟩
  induction count with
  | zero => exact ⟨[], _, .start (.unix ⟨"/agent"⟩), ⟨rfl, rfl, .inl rfl⟩, rfl, Nat.zero_le _⟩
  | succ count ih =>
    obtain ⟨history, s, run, hidle, hreceived, hcount⟩ := ih
    have hadmits : s.Admits limits (.worked (.received emptyCall)) := by
      constructor
      · unfold isDone
        rw [hidle.reading]
        rfl
      · unfold enabled canRead
        rw [hidle.reading, hreceived]
        simp [readChunk, emptyCall, RequestFrame.bytes, RequestFrame.body]
    have harrived : Idle { s.worker with received := s.worker.received ++ emptyCall } :=
      ⟨hidle.reading, hidle.outstanding, hidle.speaks⟩
    obtain ⟨hidle', hreceived', hunsent'⟩ :=
      harrived.pump (by rw [hreceived]; rfl) hroom hmax s.shutdown
    refine ⟨_, _, run.next _ hadmits, hidle', hreceived', ?_⟩
    show count + 1 ≤ (({ s.worker with received := s.worker.received ++ emptyCall } :
      Worker Unit).pump picky limits s.shutdown).1.unsent.length
    rw [hunsent', List.length_append]
    dsimp only
    omega

end RemoteCall.Worker
