/-
  RemoteCall.Proofs.Server.Replies
  ────────────────────────────────
  **WHAT IS SENT WHEN A CALL ENDS.**

  While the peer is there, every call that ends is answered at once (`Replied`).
  What is put into the transmit buffer for the answer depends on its size:

      body ≤ limit, body < 2³²         the answer
      limit < body                     the failure that names the excess,
                                       if that has room itself
      there is no room for that either nothing

  The failure names two numbers and takes 44 bytes besides, so under a limit of
  66 bytes or more there is room for it.  Under a limit below 48 bytes there
  never is, and whatever does not fit is dropped (`a_response_is_dropped`).

  Main statements:
    • `isReply_written_iff`  — when what is written is one response,
    • `answerable_of_room`, `written_nothing` — under which limits it is,
    • `Run.replied`          — every call that ends is answered,
    • `drain_replies`        — what decoding finds,
    • `calls_get_a_reply_if_it_or_its_excess_fits` — the statement about runs.
-/
import RemoteCall.Proofs.Frame.SizeField
import RemoteCall.Proofs.Server.Progress
import RemoteCall.Proofs.Server.Taking

namespace RemoteCall

/-! ## §1. One response. -/

namespace ResponseFrame

/-- These bytes are decoded, under the limit, as one response with the number, and whatever stands
behind them is left. -/
def IsReply (max : Nat) (n : SequenceNumber) (bytes : Bytes) : Prop :=
  ∃ reply : ResponseFrame, reply.sequence = n
    ∧ ∀ rest, decode max (bytes ++ rest) = .frame reply rest

/-- A response within the limit is found exactly if its size field can hold its size. -/
theorem isReply_bytes_iff {max : Nat} {frame : ResponseFrame} (hmax : frame.bodyLength ≤ max) :
    IsReply max frame.sequence frame.bytes ↔ frame.bodyLength < 2 ^ 32 := by
  constructor
  · rintro ⟨reply, -, hread⟩
    -- nothing is left, so the size field says how long the rest is
    have halone : format.decode max (frame.bytes ++ []) = .frame reply [] := hread []
    have hlength := Frame.Format.length_of_decode halone
    rw [List.append_nil, List.length_nil, Nat.add_zero] at hlength
    exact (format.sizeAt_bytes_iff frame).mp hlength
  · intro hword
    exact ⟨format.sized frame, rfl, fun rest => format.decode_bytes ⟨hmax, hword⟩ rest⟩

/-- Where there is nothing there is no response. -/
theorem not_isReply_nil (max : Nat) (n : SequenceNumber) : ¬ IsReply max n [] := by
  rintro ⟨reply, -, hread⟩
  have hnone : decode max [] = .incomplete := Frame.decodeWith_short (by decide)
  exact absurd ((hread []).symm.trans hnone) nofun

end ResponseFrame

open RemoteCall.ResponseFrame

/-- A number has one digit at least, and two from ten on. -/
theorem utf8ByteSize_repr_pos (n : Nat) : 1 ≤ n.repr.utf8ByteSize := by
  by_cases hsmall : n < 10
  · rewrite [Nat.repr_of_lt hsmall, utf8ByteSize_digit hsmall]
    exact Nat.le_refl 1
  · rw [Nat.repr_of_ge (Nat.le_of_not_lt hsmall), String.utf8ByteSize_append,
      utf8ByteSize_digit (Nat.mod_lt _ (by omega))]
    omega

theorem two_le_utf8ByteSize_repr {n : Nat} (h : 10 ≤ n) : 2 ≤ n.repr.utf8ByteSize := by
  have hfront := utf8ByteSize_repr_pos (n / 10)
  rw [Nat.repr_of_ge h, String.utf8ByteSize_append, utf8ByteSize_digit (Nat.mod_lt _ (by omega))]
  omega

namespace Worker

variable {σ : Type} {service : Service σ} {limits : EndpointConfig} {shutdown : Bool}
  {w : Worker σ} {frame : ResponseFrame}

/-! ## §2. What is written for a response. -/

/-- The failure that names the excess of a response. -/
def excess (limits : EndpointConfig) (frame : ResponseFrame) : ResponseFrame :=
  .failure frame.sequence (.messageTooLarge frame.bodyLength limits.maxMessageSize)

/-- There is a response to be sent: it fits, or the failure that names its excess does. -/
def Answerable (limits : EndpointConfig) (frame : ResponseFrame) : Prop :=
  format.Fits limits.maxMessageSize frame
    ∨ limits.maxMessageSize < frame.bodyLength
      ∧ format.Fits limits.maxMessageSize (excess limits frame)

/-- What is written for a response beyond the limit. -/
theorem written_of_lt (h : limits.maxMessageSize < frame.bodyLength) :
    written limits frame
      = if limits.maxMessageSize < (excess limits frame).bodyLength then []
        else (excess limits frame).bytes := by
  unfold written
  rw [ResponseFrame.encode_eq, if_pos h]
  dsimp only
  rw [ResponseFrame.encode_eq]
  unfold excess
  split <;> split
  · next hok hlarge => rw [if_pos hlarge] at hok; cases hok
  · next hok hfits => rw [if_neg hfits] at hok; cases hok; rfl
  · rfl
  · next hfault hfits => rw [if_neg hfits] at hfault; cases hfault

/-- **When what is written is one response.** -/
theorem isReply_written_iff :
    IsReply limits.maxMessageSize frame.sequence (written limits frame)
      ↔ Answerable limits frame := by
  unfold Answerable
  rcases Nat.lt_or_ge limits.maxMessageSize frame.bodyLength with hlarge | hfits
  · have hnot : ¬ format.Fits limits.maxMessageSize frame := fun h =>
      absurd hlarge (Nat.not_lt.mpr h.1)
    rw [written_of_lt hlarge, or_iff_right hnot, and_iff_right hlarge]
    by_cases hroom : limits.maxMessageSize < (excess limits frame).bodyLength
    · rw [if_pos hroom]
      exact iff_of_false (not_isReply_nil _ _) fun h => absurd hroom (Nat.not_lt.mpr h.1)
    · rw [if_neg hroom]
      have hexcess := Nat.le_of_not_lt hroom
      exact (isReply_bytes_iff hexcess).trans (and_iff_right hexcess).symm
  · have hnot : ¬ (limits.maxMessageSize < frame.bodyLength
        ∧ format.Fits limits.maxMessageSize (excess limits frame)) := fun h =>
      absurd h.1 (Nat.not_lt.mpr hfits)
    rw [written_eq_bytes hfits, or_iff_left hnot]
    exact (isReply_bytes_iff hfits).trans (and_iff_right hfits).symm

theorem bodyLength_excess (limits : EndpointConfig) (frame : ResponseFrame) :
    (excess limits frame).bodyLength
      = 44 + frame.bodyLength.repr.utf8ByteSize + limits.maxMessageSize.repr.utf8ByteSize := by
  have hlength := length_messageTooLarge frame.bodyLength limits.maxMessageSize
  show 8 + 1 + (failurePayload (.messageTooLarge frame.bodyLength limits.maxMessageSize)).length = _
  omega

/-- **Under a limit of 66 bytes or more there is a response to be sent**, whatever its size; the
limit is one that a size field can hold. -/
theorem answerable_of_room (hroom : 66 ≤ limits.maxMessageSize)
    (hword : limits.maxMessageSize < 2 ^ 32) (hsize : frame.bodyLength < 2 ^ 64) :
    Answerable limits frame := by
  rcases Nat.lt_or_ge limits.maxMessageSize frame.bodyLength with hlarge | hfits
  · refine .inr ⟨hlarge, ?_⟩
    have hdigits : frame.bodyLength.repr.utf8ByteSize ≤ 20 :=
      utf8ByteSize_repr_le (Nat.lt_trans hsize (by decide))
    have hlimit : 64 + limits.maxMessageSize.repr.utf8ByteSize ≤ limits.maxMessageSize := by
      rcases Nat.lt_or_ge limits.maxMessageSize (10 ^ 2) with hsmall | hbig
      · have htwo : limits.maxMessageSize.repr.utf8ByteSize ≤ 2 := utf8ByteSize_repr_le hsmall
        omega
      · have hten : limits.maxMessageSize.repr.utf8ByteSize ≤ 10 :=
          utf8ByteSize_repr_le (Nat.lt_trans hword (by decide))
        omega
    have hexcess : (excess limits frame).bodyLength ≤ limits.maxMessageSize := by
      rw [bodyLength_excess]
      omega
    exact ⟨hexcess, Nat.lt_of_le_of_lt hexcess hword⟩
  · exact .inl ⟨hfits, Nat.lt_of_le_of_lt hfits hword⟩

/-- **Under a limit below 48 bytes nothing is written for a response that does not fit.** -/
theorem written_nothing (hroom : limits.maxMessageSize < 48)
    (hlarge : limits.maxMessageSize < frame.bodyLength) : written limits frame = [] := by
  have hexcess : limits.maxMessageSize < (excess limits frame).bodyLength := by
    have hone := utf8ByteSize_repr_pos limits.maxMessageSize
    have hone' := utf8ByteSize_repr_pos frame.bodyLength
    rw [bodyLength_excess]
    rcases Nat.lt_or_ge limits.maxMessageSize 10 with hsmall | hbig
    · omega
    · have htwo := two_le_utf8ByteSize_repr hbig
      have htwo' := two_le_utf8ByteSize_repr (Nat.le_trans hbig (Nat.le_of_lt hlarge))
      omega
  rw [written_of_lt hlarge, if_pos hexcess]

/-! ## §3. Every call that ends is answered. -/

/-- Every call that ends is answered at once, under its number and with its outcome. -/
inductive Replied : List WorkerEffect → Prop where
  /-- Nothing happens. -/
  | nil : Replied []
  /-- No call ends. -/
  | quiet {effect : WorkerEffect} {later : List WorkerEffect} :
    finished? effect = none → Replied later → Replied (effect :: later)
  /-- A call ends, and its answer is queued. -/
  | replied (done : Completed) {later : List WorkerEffect} : Replied later →
    Replied (.finished done.call done.outcome :: .queued (answerTo done) :: later)

namespace Replied

variable {effects more : List WorkerEffect}

theorem append (h : Replied effects) (h' : Replied more) : Replied (effects ++ more) := by
  induction h with
  | nil => exact h'
  | quiet hquiet _ ih => exact .quiet hquiet ih
  | replied done _ ih => exact .replied done ih

/-- Responses may be queued besides. -/
theorem queued (frame : ResponseFrame) : Replied [.queued frame] := .quiet rfl .nil

/-- **The answers to the calls that have ended were queued**, in their order. -/
theorem sublist (h : Replied effects) :
    ((finishedIn effects).map answerTo).Sublist (queuedIn effects) := by
  induction h with
  | nil => exact List.Sublist.refl _
  | @quiet effect later hquiet _ ih =>
    have hsame : finishedIn (effect :: later) = finishedIn later := List.filterMap_cons_none hquiet
    rw [hsame]
    exact ih.trans ((List.sublist_cons_self effect later).filterMap _)
  | replied done _ ih => exact ih.cons_cons (answerTo done)

theorem checkVersion (service : Service σ) (limits : EndpointConfig) (frame : RequestFrame)
    (w : Worker σ) : Replied (w.checkVersion service limits frame).effects := by
  unfold Worker.checkVersion
  cases w.version with
  | some expected =>
    dsimp only
    split <;> exact .nil
  | none =>
    dsimp only
    split
    · exact .quiet rfl .nil
    · exact .quiet rfl (.queued _)

/-- **A call that is rejected is answered at once.** -/
theorem dispatch (service : Service σ) (limits : EndpointConfig) (shutdown : Bool)
    (frame : RequestFrame) (w : Worker σ) :
    Replied (w.dispatch service limits shutdown frame).effects := by
  cases hfree : w.outstanding? frame.sequence with
  | some ticket =>
    unfold Worker.dispatch
    dsimp only
    rw [hfree]
    exact .nil
  | none =>
    rw [dispatch_eq hfree]
    dsimp only
    cases (w.dispatchOf service shutdown frame).verdict with
    | ok _ => exact .quiet rfl .nil
    | error e =>
      exact .quiet rfl (.replied ⟨(w.dispatchOf service shutdown frame).call, .error e⟩ .nil)

theorem takeIn (service : Service σ) (limits : EndpointConfig) (shutdown : Bool)
    (frame : RequestFrame) (w : Worker σ) :
    Replied (w.takeIn service limits shutdown frame).effects := by
  have hchecked := checkVersion service limits frame w
  unfold Worker.takeIn
  generalize w.checkVersion service limits frame = checked at *
  obtain ⟨w', fault, effects⟩ := checked
  cases fault with
  | some e => exact hchecked
  | none =>
    cases frame.kind with
    | cancel => exact hchecked
    | call => exact hchecked.append (dispatch service limits shutdown frame w')

theorem pumpFrom (service : Service σ) (limits : EndpointConfig) (shutdown : Bool)
    (buffer : Bytes) (w : Worker σ) :
    Replied (w.pumpFrom service limits shutdown buffer).effects := by
  induction hlength : buffer.length using Nat.strongRecOn generalizing buffer w with
  | ind n ih =>
    rw [Worker.pumpFrom]
    split
    · exact .nil
    · split
      · exact .nil
      · exact .nil
      · next frame rest hframe =>
        have hfirst := takeIn service limits shutdown frame w
        generalize w.takeIn service limits shutdown frame = admitted at *
        obtain ⟨w', fault, effects⟩ := admitted
        cases fault with
        | some e => exact hfirst
        | none =>
          have hshorter : rest.length < n := hlength ▸ Frame.length_of_decodeWith hframe
          exact hfirst.append (ih rest.length hshorter rest w' rfl)

theorem pump (service : Service σ) (limits : EndpointConfig) (shutdown : Bool) (w : Worker σ) :
    Replied (w.pump service limits shutdown).2 := by
  have hpumped := pumpFrom service limits shutdown w.received w
  unfold Worker.pump
  dsimp only
  split <;> exact hpumped

/-- What is refused at the end had not been handed over, so no call ends. -/
theorem refuseFrom (limits : EndpointConfig) (buffer : Bytes) (w : Worker σ) :
    Replied (w.refuseFrom limits buffer).effects := by
  induction hlength : buffer.length using Nat.strongRecOn generalizing buffer w with
  | ind n ih =>
    rw [Worker.refuseFrom]
    split
    · exact .nil
    · exact .nil
    · next frame rest hframe =>
      have hshorter : rest.length < n := hlength ▸ Frame.length_of_decodeWith hframe
      split
      · exact ih rest.length hshorter rest (w.revoke frame.sequence) rfl
      · exact (Replied.queued _).append (ih rest.length hshorter rest _ rfl)

/-- **A call that is resolved is answered at once**, if the peer is there. -/
theorem complete (hlistens : w.broken = false) (limits : EndpointConfig) (done : Completed) :
    Replied (w.complete limits done).2 := by
  cases hfind : w.outstanding? done.call.sequence with
  | none =>
    rw [complete_eq_self hfind]
    exact .nil
  | some ticket =>
    have hanswers : w.answers done = [answerTo done] := by
      unfold answers
      rw [if_neg (by rw [hlistens]; exact Bool.false_ne_true)]
    rw [complete_eq hfind, hanswers]
    exact .replied done .nil

end Replied

/-- Before frames are taken at most one call ends. -/
theorem Moment.replied_opening {m : Moment σ} (hlistens : m.before.worker.broken = false) :
    Replied (m.opening limits).2 := by
  rcases m.opening_cases limits with hnothing | ⟨done, later, -, htaken⟩
  · rw [hnothing]
    exact .nil
  · have hstill : ({ m.before.worker with completions := later } : Worker σ).broken = false :=
      hlistens
    rw [htaken]
    exact .complete hstill limits done

/-- **One moment**, at which the peer is there. -/
theorem Moment.replied {m : Moment σ} (hlistens : m.before.worker.broken = false) :
    Replied (m.effects service limits) := by
  have hopening : Replied (m.opening limits).2 := m.replied_opening hlistens
  cases hpumps : m.pumps with
  | true =>
    rw [Moment.effects_of_pumps hpumps]
    exact hopening.append (.pump service limits _ _)
  | false =>
    by_cases hgoes : m.occurrence = .worked .shutdown
    · obtain ⟨⟨w, shutdown, held⟩, occurrence⟩ := m
      obtain rfl : occurrence = .worked .shutdown := hgoes
      exact .refuseFrom limits w.received { w with reading := false }
    · rw [Moment.effects_of_not_pumps hpumps hgoes]
      exact hopening

variable {history : List (Moment σ)} {s : Scene σ}

/-- **While the peer is there every call that ends is answered.** -/
theorem Run.replied (run : Run service limits history s) (hlistens : s.worker.broken = false) :
    Replied (effectsOf service limits history) := by
  induction run with
  | start peer => exact .nil
  | @next history s run occurrence hadmits ih =>
    have hbroken := (⟨s, occurrence⟩ : Moment σ).broken service limits
    rw [show ((⟨s, occurrence⟩ : Moment σ).worker service limits).broken = false from hlistens]
      at hbroken
    have hbefore := (Bool.or_eq_false_iff.mp hbroken.symm).1
    rw [effectsOf_concat]
    exact (ih hbefore).append (Moment.replied (m := ⟨s, occurrence⟩) hbefore)

/-! ## §4. What a reader finds. -/

/-- **Decoding one response after another finds each of them**, and nothing else. -/
theorem drain_replies {max : Nat} {write : ResponseFrame → Bytes} {frames : List ResponseFrame}
    (h : ∀ frame ∈ frames, IsReply max frame.sequence (write frame)) :
    ∃ replies, ResponseFrame.drain max (frames.flatMap write) = (replies, none, [])
      ∧ replies.map (·.sequence) = frames.map (·.sequence) := by
  induction frames with
  | nil =>
    have hnone : ResponseFrame.decode max [] = .incomplete := Frame.decodeWith_short (by decide)
    exact ⟨[], Frame.drainWith_incomplete hnone, rfl⟩
  | cons frame frames ih =>
    obtain ⟨replies, hread, hnumbers⟩ := ih fun f hf => h f (List.mem_cons_of_mem frame hf)
    obtain ⟨reply, hnumber, hfirst⟩ := h frame List.mem_cons_self
    refine ⟨reply :: replies, ?_, ?_⟩
    · rw [List.flatMap_cons, ResponseFrame.drain, Frame.drainWith_frame (hfirst _)]
      unfold ResponseFrame.drain at hread
      rw [hread]
    · rw [List.map_cons, List.map_cons, hnumber, hnumbers]

/-- **A call gets a reply if its answer fits, or the failure that names the excess does.**  The
peer is there; the service, the limits, the stream and the order in which things happen are any.

Every call that ends is answered at once, under its number and with its outcome.  What was queued is
what was written and what is unsent.  There it is one response with its number, within the limit,
exactly if it fits, or if it is beyond the limit and the failure that names the excess fits; if
neither is within the limit, nothing is written for it.  If all that was queued is so, decoding the
stream finds one response for each, in order, and nothing else.  That is so under every limit of 66
bytes or more that a size field can hold. -/
theorem calls_get_a_reply_if_it_or_its_excess_fits (run : Run service limits history s)
    (hlistens : s.worker.broken = false) :
    let queued := queuedIn (effectsOf service limits history)
    let stream := writtenOf history ++ s.worker.unsent
    Replied (effectsOf service limits history)
      ∧ stream = queued.flatMap (written limits)
      ∧ (∀ frame, IsReply limits.maxMessageSize frame.sequence (written limits frame)
          ↔ Answerable limits frame)
      ∧ (∀ frame, limits.maxMessageSize < frame.bodyLength →
          limits.maxMessageSize < (excess limits frame).bodyLength → written limits frame = [])
      ∧ ((∀ frame ∈ queued, Answerable limits frame) →
          ∃ replies, ResponseFrame.drain limits.maxMessageSize stream = (replies, none, [])
            ∧ replies.map (·.sequence) = queued.map (·.sequence))
      ∧ (66 ≤ limits.maxMessageSize → limits.maxMessageSize < 2 ^ 32 →
          ∀ frame : ResponseFrame, frame.bodyLength < 2 ^ 64 → Answerable limits frame) := by
  refine ⟨run.replied hlistens, run.accounted hlistens, fun _ => isReply_written_iff,
    fun frame hlarge hexcess => ?_, fun hall => ?_,
    fun hroom hword _ hsize => answerable_of_room hroom hword hsize⟩
  · rw [written_of_lt hlarge, if_pos hexcess]
  · rw [run.accounted hlistens]
    exact drain_replies fun frame hframe => isReply_written_iff.mpr (hall frame hframe)

/-- A limit of 80 bytes. -/
def small : EndpointConfig := { maxMessageSize := 80 }

/-- A call is completed with a hundred bytes where eighty may be sent: the caller is told so. -/
theorem calls_get_a_reply_if_it_or_its_excess_fits_when_beyond_the_limit :
    ∃ (history : List (Moment Unit)) (s : Scene Unit),
      Run keeper small history s ∧ s.worker.broken = false
      ∧ (finishedIn (effectsOf keeper small history)).map (·.call) = [⟨0, 0, defaultVersion⟩]
      ∧ queuedIn (effectsOf keeper small history) = [.success 0 (List.replicate 100 7)]
      ∧ ∃ reply, ResponseFrame.drain small.maxMessageSize (writtenOf history ++ s.worker.unsent)
          = ([reply], none, [])
        ∧ reply.sequence = 0 := by
  obtain ⟨history, s, run, hlistens, hfinished, hqueued⟩ : ∃ (history : List (Moment Unit))
      (s : Scene Unit), Run keeper small history s ∧ s.worker.broken = false
      ∧ (finishedIn (effectsOf keeper small history)).map (·.call) = [⟨0, 0, defaultVersion⟩]
      ∧ queuedIn (effectsOf keeper small history) = [.success 0 (List.replicate 100 7)] := by
    have start : Run keeper small [] _ := .start (.unix ⟨"/agent"⟩)
    have arrived := start.next (.worked (.received fullCall)) (by decide +kernel)
    have resolved := arrived.next (.resolved ⟨0, 0, defaultVersion⟩ (.ok (List.replicate 100 7)))
      (by decide +kernel)
    have drained := resolved.next (.worked .drained) (by decide +kernel)
    exact ⟨_, _, drained, by decide +kernel, by decide +kernel, by decide +kernel⟩
  obtain ⟨-, -, -, -, hread, hroom⟩ := calls_get_a_reply_if_it_or_its_excess_fits run hlistens
  rw [hqueued] at hread
  obtain ⟨replies, hreplies, hnumbers⟩ := hread fun frame hframe => by
    rw [List.mem_singleton.mp hframe]
    exact hroom (by decide) (by decide) _ (by decide +kernel)
  obtain ⟨reply, rfl, hnumber⟩ := List.map_eq_singleton_iff.mp hnumbers
  exact ⟨history, s, run, hlistens, hfinished, hqueued, reply, hreplies, hnumber⟩

/-- A limit that leaves room for a call with eight bytes. -/
def scant : EndpointConfig := { maxMessageSize := 21 }

/-- **A response is dropped** under a limit that the settings of an endpoint allow.  A call is let
go of; the failure that tells of it takes 25 bytes, where 21 may be sent, and the failure that names
the excess takes 48.  The call is over, the peer is there and listens, and nothing is sent. -/
theorem a_response_is_dropped :
    ∃ (history : List (Moment Unit)) (s : Scene Unit),
      scant.validate = .ok () ∧ Run keeper scant history s ∧ s.worker.broken = false
      ∧ s.worker.outstanding = [] ∧ s.worker.completions = []
      ∧ queuedIn (effectsOf keeper scant history) = [.failure 0 .abandoned]
      ∧ writtenOf history ++ s.worker.unsent = []
      ∧ ¬ IsReply scant.maxMessageSize 0 (writtenOf history ++ s.worker.unsent) := by
  obtain ⟨history, s, run, hlistens, hover, hqueued⟩ : ∃ (history : List (Moment Unit))
      (s : Scene Unit), Run keeper scant history s ∧ s.worker.broken = false
      ∧ (s.worker.outstanding = [] ∧ s.worker.completions.length = 0)
      ∧ queuedIn (effectsOf keeper scant history) = [.failure 0 .abandoned] := by
    have start : Run keeper scant [] _ := .start (.unix ⟨"/agent"⟩)
    have arrived := start.next
      (.worked (.received (RequestFrame.call defaultVersion 0 (List.replicate 8 7)).bytes))
      (by decide +kernel)
    have resolved := arrived.next (.resolved ⟨0, 0, defaultVersion⟩ (.error .abandoned))
      (by decide +kernel)
    have drained := resolved.next (.worked .drained) (by decide +kernel)
    exact ⟨_, _, drained, by decide +kernel, by decide +kernel, by decide +kernel⟩
  have hnothing := run.accounted hlistens
  rw [hqueued, List.flatMap_singleton, written_nothing (by decide) (by decide +kernel)] at hnothing
  refine ⟨history, s, rfl, run, hlistens, hover.1, List.length_eq_zero_iff.mp hover.2, hqueued,
    hnothing, ?_⟩
  rw [hnothing]
  exact not_isReply_nil _ _

end Worker

end RemoteCall
