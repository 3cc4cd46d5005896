/-
  RemoteCall.Proofs.Server.Answers
  ────────────────────────────────
  **EVERY CALL THAT WAS RECEIVED IS ANSWERED ONCE.**

  A worker whose stream is well formed and not at fault, and whose peer stays,
  queues one response at most under each sequence number.  When it is done it
  has written one for each call that it has received: the outcome of the
  dispatch, or the refusal of a call that the service has not seen.

  A response that does not fit is replaced by a failure that names the excess.
  The failure has at most 84 bytes, so with a limit of 128 or more it always
  fits.

  Main statements:
    • `written_fits`, `written_fallback` — what is written for a response,
    • `Standing.queued_nodup`            — one response under a number,
    • `calls_are_answered_once`          — one response for each call.
-/
import RemoteCall.Proofs.Frame.RoundTrip
import RemoteCall.Proofs.Server.Standing

namespace RemoteCall

/-! ## §1. What is written for a response. -/

theorem Bytes.length_ofText (text : String) : (Bytes.ofText text).length = text.utf8ByteSize :=
  Array.length_toList

theorem utf8ByteSize_digit {d : Nat} (h : d < 10) :
    (String.singleton (Nat.digitChar d)).utf8ByteSize = 1 := by
  have hall : ∀ d : Fin 10, (String.singleton (Nat.digitChar d)).utf8ByteSize = 1 := by decide
  exact hall ⟨d, h⟩

/-- A number below a power of ten has few digits. -/
theorem utf8ByteSize_repr_le {n k : Nat} (h : n < 10 ^ (k + 1)) : n.repr.utf8ByteSize ≤ k + 1 := by
  induction k generalizing n with
  | zero =>
    rewrite [Nat.repr_of_lt h, utf8ByteSize_digit h]
    exact Nat.le_refl 1
  | succ k ih =>
    by_cases hsmall : n < 10
    · rw [Nat.repr_of_lt hsmall, utf8ByteSize_digit hsmall]
      omega
    · have hfront : n / 10 < 10 ^ (k + 1) := by
        rw [Nat.div_lt_iff_lt_mul (by omega), ← Nat.pow_succ]
        exact h
      have hdigits := ih hfront
      rw [Nat.repr_of_ge (Nat.le_of_not_lt hsmall), String.utf8ByteSize_append,
        utf8ByteSize_digit (Nat.mod_lt _ (by omega))]
      omega

/-- The report of an excess is as long as the numbers in it. -/
theorem length_messageTooLarge (size max : Nat) :
    (ResponseFrame.failurePayload (.messageTooLarge size max)).length
      = 35 + size.repr.utf8ByteSize + max.repr.utf8ByteSize := by
  have htext : (Failure.messageTooLarge size max).wireMessage
      = "Message too large: " ++ size.repr ++ " bytes (max: " ++ max.repr ++ ")" := rfl
  have hfront : "Message too large: ".utf8ByteSize = 19 := by decide
  have hmiddle : " bytes (max: ".utf8ByteSize = 13 := by decide
  have hend : ")".utf8ByteSize = 1 := by decide
  unfold ResponseFrame.failurePayload
  rw [List.length_append, BigEndian.length_encode, Bytes.length_ofText, htext]
  simp only [String.utf8ByteSize_append]
  omega

/-- It is short, since sizes are numbers of 64 bits. -/
theorem length_messageTooLarge_le {size max : Nat} (hsize : size < 2 ^ 64) (hmax : max < 2 ^ 64) :
    (ResponseFrame.failurePayload (.messageTooLarge size max)).length ≤ 75 := by
  have hdigits : ∀ n, n < 2 ^ 64 → n.repr.utf8ByteSize ≤ 20 := fun n hn =>
    utf8ByteSize_repr_le (Nat.lt_trans hn (by decide))
  have hsize' := hdigits size hsize
  have hmax' := hdigits max hmax
  rw [length_messageTooLarge]
  omega

namespace Worker

variable {limits : EndpointConfig}

/-- A response that fits is written as it is. -/
theorem written_fits {frame : ResponseFrame} (h : frame.bodyLength ≤ limits.maxMessageSize) :
    frame.encode limits.maxMessageSize = .ok (written limits frame) := by
  unfold written
  rw [ResponseFrame.encode_eq, if_neg (Nat.not_lt.mpr h)]

theorem written_eq_bytes {frame : ResponseFrame} (h : frame.bodyLength ≤ limits.maxMessageSize) :
    written limits frame = frame.bytes := by
  have hencoded := written_fits h
  rw [ResponseFrame.encode_eq, if_neg (Nat.not_lt.mpr h)] at hencoded
  exact (Except.ok.inj hencoded).symm

/-- **A response that does not fit** is replaced by the failure that names the excess. -/
theorem written_fallback (hmax : 128 ≤ limits.maxMessageSize) {frame : ResponseFrame}
    (h : limits.maxMessageSize < frame.bodyLength) (hword : frame.bodyLength < 2 ^ 64) :
    (ResponseFrame.failure frame.sequence
        (.messageTooLarge frame.bodyLength limits.maxMessageSize)).encode limits.maxMessageSize
      = .ok (written limits frame) := by
  have hshort := length_messageTooLarge_le hword (Nat.lt_trans h hword)
  have hfits : (ResponseFrame.failure frame.sequence
      (.messageTooLarge frame.bodyLength limits.maxMessageSize)).bodyLength
        ≤ limits.maxMessageSize := by
    calc 8 + 1 + (ResponseFrame.failurePayload
            (.messageTooLarge frame.bodyLength limits.maxMessageSize)).length
        ≤ 8 + 1 + 75 := Nat.add_le_add_left hshort _
      _ ≤ limits.maxMessageSize := by omega
  unfold written
  rw [ResponseFrame.encode_eq _ frame, if_pos h]
  dsimp only
  rw [ResponseFrame.encode_eq, if_neg (Nat.not_lt.mpr hfits)]

/-! ## §2. One response under a number. -/

variable {σ : Type} {service : Service σ} {version : UInt32} {received sent : Bytes} {lost : Bool}
  {t : Tally} {w : Worker σ}

theorem sequence_answerTo (done : Completed) : (answerTo done).sequence = done.call.sequence := by
  unfold answerTo ResponseFrame.ofOutcome
  cases done.outcome <;> rfl

/-- If the service speaks the version, only calls are turned away, and because of the shutdown. -/
theorem Standing.refused (h : Standing service limits version received sent lost t w)
    (hspoken : service.supports version = true) {x : RequestFrame × Failure} (hx : x ∈ t.turned) :
    x.1.kind = .call ∧ x.2 = .shuttingDown := by
  rcases h.reasons x hx with hrefused | hunspoken
  · exact hrefused
  · rw [hspoken] at hunspoken
    cases hunspoken

/-- A call that was taken was dispatched or turned away. -/
theorem Standing.calls (h : Standing service limits version received sent lost t w)
    (hspoken : service.supports version = true) :
    t.dispatched.map (·.asks) ++ t.turned.map (·.1.asks) = (callsIn t.taken).map (·.asks) := by
  have hcalls : callsIn (t.turned.map (·.1)) = t.turned.map (·.1) := by
    refine List.filter_eq_self.mpr fun frame hframe => ?_
    obtain ⟨x, hx, rfl⟩ := List.mem_map.mp hframe
    rw [(h.refused hspoken hx).1]
    rfl
  rw [← h.books.calls, hcalls, List.map_map]
  rfl

/-- The numbers of what was dispatched and of what was turned away are those of the calls. -/
theorem Standing.numbers (h : Standing service limits version received sent lost t w)
    (hspoken : service.supports version = true) :
    t.dispatched.map (·.call.sequence) ++ t.turned.map (·.1.sequence)
      = (callsIn t.taken).map (·.sequence) := by
  have hcalls := congrArg (List.map Prod.fst) (h.calls hspoken)
  rw [List.map_append, List.map_map, List.map_map, List.map_map] at hcalls
  exact hcalls

/-- No call is handed to the service twice. -/
theorem Standing.dispatched_nodup (h : Standing service limits version received sent lost t w)
    (hstream : WellFormed version (RequestFrame.drain limits.maxMessageSize received).1) :
    (t.dispatched.map (·.call.sequence)).Nodup :=
  (hstream.of_isPrefix h.arrived).distinct.sublist h.books.sequences

/-- No call is resolved twice: what was resolved had been dispatched. -/
theorem Standing.resolutions_nodup (h : Standing service limits version received sent lost t w)
    (hstream : WellFormed version (RequestFrame.drain limits.maxMessageSize received).1) :
    (t.resolutions.map (·.call)).Nodup := by
  -- distinct numbers make distinct calls
  have hcalls : (t.dispatched.map (·.call)).Nodup :=
    List.Nodup.of_map (·.sequence) (by rw [List.map_map]; exact h.dispatched_nodup hstream)
  exact (List.nodup_append.mp (h.books.owed.nodup hcalls)).2.1

/-- A dispatch comes to one outcome at most. -/
theorem Standing.eq_of_comesTo (h : Standing service limits version received sent lost t w)
    (hstream : WellFormed version (RequestFrame.drain limits.maxMessageSize received).1)
    {d : Dispatch} {outcome other : Outcome Bytes} (hcomes : ComesTo t.resolutions d outcome)
    (hother : ComesTo t.resolutions d other) : outcome = other := by
  unfold ComesTo at hcomes hother
  cases hverdict : d.verdict with
  | error e =>
    rw [hverdict] at hcomes hother
    exact hcomes.trans hother.symm
  | ok _ =>
    rw [hverdict] at hcomes hother
    have hsame := List.inj_on_of_nodup_map (h.resolutions_nodup hstream) hcomes hother rfl
    exact congrArg Completed.outcome hsame

/-- What the service was asked is what one of the calls that arrived asks. -/
theorem Standing.asked (h : Standing service limits version received sent lost t w)
    {d : Dispatch} (hd : d ∈ t.dispatched) :
    ∃ frame ∈ callsIn (RequestFrame.drain limits.maxMessageSize received).1,
      d.asks = frame.asks := by
  have hasks : d.asks ∈ (callsIn t.taken).map (·.asks) := by
    rw [← h.books.calls]
    exact List.mem_append_left _ (List.mem_map_of_mem hd)
  obtain ⟨frame, hframe, hsame⟩ := List.mem_map.mp hasks
  exact ⟨frame, (h.arrived.sublist.filter _).subset hframe, hsame.symm⟩

/-- The numbers of what was dispatched are those of what is outstanding or was finished. -/
theorem Standing.numbers_perm (h : Standing service limits version received sent lost t w) :
    (t.dispatched.map (·.call.sequence)).Perm
      (w.outstanding.map (·.1) ++ t.finished.map (·.call.sequence)) := by
  have hentries := h.books.entries.map Prod.fst
  rw [List.map_map, List.map_append, List.map_map] at hentries
  exact hentries

/-- The numbers of the responses are those of what was finished and of what was turned away. -/
theorem Standing.queued_numbers (h : Standing service limits version received sent lost t w) :
    PartOf (w.broken = false) (t.queued.map (·.sequence))
      (t.finished.map (·.call.sequence) ++ t.turned.map (·.1.sequence)) := by
  have hanswers := h.books.answers.map (·.sequence)
  rw [List.map_append, List.map_map, List.map_map] at hanswers
  have hfinished : t.finished.map ((·.sequence) ∘ answerTo) = t.finished.map (·.call.sequence) :=
    List.map_congr_left fun done _ => sequence_answerTo done
  rw [hfinished] at hanswers
  exact hanswers

/-- **One response at most is queued under each number.** -/
theorem Standing.queued_nodup (h : Standing service limits version received sent lost t w)
    (hspoken : service.supports version = true)
    (hstream : WellFormed version (RequestFrame.drain limits.maxMessageSize received).1) :
    (t.queued.map (·.sequence)).Nodup := by
  have hwell := hstream.of_isPrefix h.arrived
  have hall : (t.dispatched.map (·.call.sequence) ++ t.turned.map (·.1.sequence)).Nodup := by
    rw [h.numbers hspoken]
    exact hwell.distinct
  -- outstanding, finished and turned away share no number, and only the last two are answered
  have hsplit := (h.numbers_perm.append_right (t.turned.map (·.1.sequence))).nodup hall
  rw [List.append_assoc] at hsplit
  exact h.queued_numbers.nodup (List.nodup_append.mp hsplit).2.1

/-- What was turned away has a number of its own. -/
theorem Standing.apart (h : Standing service limits version received sent lost t w)
    (hspoken : service.supports version = true)
    (hstream : WellFormed version (RequestFrame.drain limits.maxMessageSize received).1)
    {d : Dispatch} (hd : d ∈ t.dispatched) {x : RequestFrame × Failure} (hx : x ∈ t.turned) :
    d.call.sequence ≠ x.1.sequence := by
  have hall : (t.dispatched.map (·.call.sequence) ++ t.turned.map (·.1.sequence)).Nodup := by
    rw [h.numbers hspoken]
    exact (hstream.of_isPrefix h.arrived).distinct
  exact (List.nodup_append.mp hall).2.2 _ (List.mem_map_of_mem hd) _ (List.mem_map_of_mem hx)

/-! ## §3. One response for each call. -/

/-- The answer to a call is what its dispatch comes to; or the service has not seen the call, and it
is refused. -/
def Answered (dispatched : List Dispatch) (resolutions : List Completed)
    (queued : List ResponseFrame) (frame : RequestFrame) : Prop :=
  (∃ d ∈ dispatched, d.asks = frame.asks ∧ ∃ outcome, ComesTo resolutions d outcome
    ∧ .ofOutcome frame.sequence outcome ∈ queued)
  ∨ ((∀ d ∈ dispatched, d.call.sequence ≠ frame.sequence)
    ∧ .failure frame.sequence .shuttingDown ∈ queued)

/-- **A call that was taken is answered**, when nothing is outstanding and the peer listens. -/
theorem Standing.answered (h : Standing service limits version received sent lost t w)
    (hspoken : service.supports version = true)
    (hstream : WellFormed version (RequestFrame.drain limits.maxMessageSize received).1)
    (hlistens : w.broken = false) (hidle : w.outstanding = []) {frame : RequestFrame}
    (hframe : frame ∈ callsIn t.taken) :
    Answered t.dispatched t.resolutions t.queued frame := by
  have hwell := hstream.of_isPrefix h.arrived
  have hqueued := h.books.answers.all hlistens
  have hasks : frame.asks ∈ t.dispatched.map (·.asks) ++ t.turned.map (·.1.asks) := by
    rw [h.calls hspoken]
    exact List.mem_map_of_mem hframe
  rcases List.mem_append.mp hasks with hdispatched | hturned
  · obtain ⟨d, hd, hsame⟩ := List.mem_map.mp hdispatched
    have hsequence : d.call.sequence = frame.sequence := congrArg Prod.fst hsame
    -- nothing is outstanding, so the dispatch is finished
    have hentry : entryOf d.call ∈ t.finished.map fun done => entryOf done.call := by
      have hentries := h.books.entries.subset (List.mem_map_of_mem hd)
      rw [hidle] at hentries
      exact hentries
    obtain ⟨done, hdone, hentry'⟩ := List.mem_map.mp hentry
    have hnumber : done.call.sequence = d.call.sequence := congrArg Prod.fst hentry'
    obtain ⟨d', hd', hcall, hgives⟩ := h.books.outcomes done hdone
    obtain rfl : d' = d :=
      h.books.eq_of_sequence hwell.distinct hd' hd ((congrArg _ hcall).trans hnumber)
    have hanswer : answerTo done ∈ t.queued :=
      hqueued.symm.subset (List.mem_append_left _ (List.mem_map_of_mem hdone))
    unfold answerTo at hanswer
    rw [hnumber, hsequence] at hanswer
    exact .inl ⟨d', hd, hsame, done.outcome, hgives, hanswer⟩
  · obtain ⟨x, hx, hsame⟩ := List.mem_map.mp hturned
    have hsequence : x.1.sequence = frame.sequence := congrArg Prod.fst hsame
    refine .inr ⟨fun d hd hcollides => ?_, ?_⟩
    · exact h.apart hspoken hstream hd hx (hcollides.trans hsequence.symm)
    · have hrefusal : refusalOf x ∈ t.queued :=
        hqueued.symm.subset (List.mem_append_right _ (List.mem_map_of_mem hx))
      unfold refusalOf at hrefusal
      rw [hsequence, (h.refused hspoken hx).2] at hrefusal
      exact hrefusal

/-- **Every call that was received is answered once.**  The peer's stream is not at fault, its
requests speak one version that the service supports, no two calls have the same number, and the
peer stays.  At every moment there is one response at most under each number; no call is handed to
the service twice, and no call is resolved twice.  When the worker is done, it has written the
responses to the calls that it has received: one for each. -/
theorem calls_are_answered_once {history : List (Moment σ)} {s : Scene σ}
    (run : Run service limits history s) (hmax : 128 ≤ limits.maxMessageSize)
    (hspoken : service.supports version = true)
    (hsound : (RequestFrame.drain limits.maxMessageSize (receivedOf history)).2.1 = none)
    (hwell : WellFormed version
      (RequestFrame.drain limits.maxMessageSize (receivedOf history)).1)
    (hstays : lossIn history = false) :
    let calls := callsIn (RequestFrame.drain limits.maxMessageSize (receivedOf history)).1
    let dispatched := dispatchesIn (effectsOf service limits history)
    let resolutions := resolutionsOf service limits history
    let queued := queuedIn (effectsOf service limits history)
    (queued.map (·.sequence)).Nodup
      ∧ (dispatched.map (·.call.sequence)).Nodup
      ∧ (∀ d ∈ dispatched, ∃ frame ∈ calls, d.asks = frame.asks)
      ∧ (resolutions.map (·.call)).Nodup
      ∧ (s.worker.isDone = true →
          writtenOf history = queued.flatMap (written limits)
          ∧ (queued.map (·.sequence)).Perm (calls.map (·.sequence))
          ∧ ∀ frame ∈ calls, Answered dispatched resolutions queued frame)
      ∧ ∀ frame ∈ queued,
          (frame.bodyLength ≤ limits.maxMessageSize →
            frame.encode limits.maxMessageSize = .ok (written limits frame))
          ∧ (limits.maxMessageSize < frame.bodyLength → frame.bodyLength < 2 ^ 64 →
            (ResponseFrame.failure frame.sequence
                (.messageTooLarge frame.bodyLength limits.maxMessageSize)).encode
              limits.maxMessageSize = .ok (written limits frame)) := by
  obtain ⟨taken, turned, h⟩ := run.standing [] (by rw [List.append_nil]; exact hwell)
  refine ⟨h.queued_nodup hspoken hwell, h.dispatched_nodup hwell, fun d hd => h.asked hd,
    h.resolutions_nodup hwell, fun hdone => ?_,
    fun frame _ => ⟨written_fits, written_fallback hmax⟩⟩
  · -- the peer listens, so the worker is done only with nothing outstanding and nothing unsent
    have hlistens : s.worker.broken = false := h.lost.trans hstays
    unfold isDone at hdone
    simp only [hlistens, Bool.false_or, Bool.and_eq_true, Bool.not_eq_true',
      List.isEmpty_iff] at hdone
    obtain ⟨⟨hstopped, hidle⟩, hsent⟩ := hdone
    have hall := h.ends hstopped hlistens hspoken hsound
    rw [hall]
    refine ⟨?_, ?_, fun frame hframe => h.answered hspoken hwell hlistens hidle hframe⟩
    · obtain ⟨rest, hrest, hunsent⟩ := h.transmits
      rw [hunsent hlistens, hsent, List.append_nil] at hrest
      exact hrest.symm
    · refine (h.queued_numbers.all hlistens).trans ?_
      have hnumbers := h.numbers_perm
      rw [hidle] at hnumbers
      rw [← h.numbers hspoken]
      exact (hnumbers.symm.append_right _)

/-- A service that keeps its calls. -/
def keeper : Service Unit where
  supports version := version == defaultVersion
  connected _ := ()
  called _ _ := ⟨(), .kept, .ok ()⟩

/-- One call may be outstanding. -/
def narrow : EndpointConfig := { maxOutstandingCalls := 1 }

/-- The written form of two calls. -/
def twoCalls : Bytes :=
  (RequestFrame.call defaultVersion 0 [7]).bytes ++ (RequestFrame.call defaultVersion 1 [8]).bytes

/-- Two calls arrive where one may be outstanding: the first is answered, the second is refused. -/
theorem calls_are_answered_once_when_two_arrive :
    ∃ (history : List (Moment Unit)) (s : Scene Unit),
      Run keeper narrow history s ∧ s.worker.isDone = true
      ∧ (callsIn (RequestFrame.drain narrow.maxMessageSize (receivedOf history)).1).length = 2
      ∧ (dispatchesIn (effectsOf keeper narrow history)).length = 1
      ∧ ((queuedIn (effectsOf keeper narrow history)).map (·.sequence)).Perm [0, 1] := by
  have start : Run keeper narrow [] _ := .start (.unix ⟨"/agent"⟩)
  have arrived := start.next (.worked (.received twoCalls)) (by decide +kernel)
  have signalled := arrived.next .signalled (by decide +kernel)
  have refused := signalled.next (.worked .shutdown) (by decide +kernel)
  have resolved := refused.next (.resolved ⟨0, 0, 1⟩ (.ok [9])) (by decide +kernel)
  have drained := resolved.next (.worked .drained) (by decide +kernel)
  have wrote := drained.next (.worked (.wrote 42)) (by decide +kernel)
  have hanswered := calls_are_answered_once wrote (by decide) (by decide) (by decide +kernel)
    (⟨by decide +kernel, by decide +kernel⟩ : WellFormed defaultVersion _) (by decide +kernel)
  have hwritten := (hanswered.2.2.2.2.1 (by decide +kernel)).2.1
  refine ⟨_, _, wrote, by decide +kernel, by decide +kernel, by decide +kernel, ?_⟩
  exact hwritten.trans (by decide +kernel)

end Worker

end RemoteCall
