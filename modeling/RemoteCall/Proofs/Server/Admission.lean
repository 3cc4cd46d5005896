/-
  RemoteCall.Proofs.Server.Admission
  ──────────────────────────────────
  **WHICH CALLS ARE HANDED TO THE SERVICE, AND WHEN.**

  Whatever a peer sends, in whatever chunks, and whatever else happens to the
  worker: no more calls are outstanding than may be, and the calls that the
  service was handed are the first calls of the stream, in order and each once,
  with the number, version and payload that they have there (`InOrder`).

      handed over  =  calls of the frames that were taken
      taken        ≤  frames of the stream

  An outstanding call gives up its place when a resolution under its number is
  taken up, and at no other moment (`Moment.outstanding`): to cancel a call does
  not make room for another.

  Main statements:
    • `Run.room`, `Moment.outstanding`   — the calls that are outstanding,
    • `Run.inOrder`, `Run.speaks`        — the calls that were handed over,
    • `calls_are_admitted_in_order`      — the statement about runs.
-/
import RemoteCall.Proofs.Server.Answers
import RemoteCall.Proofs.Server.Intake

namespace RemoteCall.Worker

variable {σ : Type} {service : Service σ} {limits : EndpointConfig} {history : List (Moment σ)}
  {s : Scene σ}

/-! ## §1. The calls that are outstanding. -/

/-- **No more calls are outstanding than may be.** -/
theorem Run.room (run : Run service limits history s) :
    s.worker.outstanding.length ≤ limits.maxOutstandingCalls := by
  induction run with
  | start peer => exact Nat.zero_le _
  | @next history s run occurrence hadmits ih =>
    obtain ⟨effects, -, hpumping⟩ := (⟨s, occurrence⟩ : Moment σ).pumping service limits
    apply hpumping.room
    -- what happens before frames are taken makes room, if anything
    rw [((⟨s, occurrence⟩ : Moment σ).opened limits).outstanding]
    exact Nat.le_trans (List.length_filter_le _ _) ih

/-- **A call gives up its place when a resolution under its number is taken up**, and at no other
moment; the others are followed by the calls that are accepted now. -/
theorem Moment.outstanding (service : Service σ) (limits : EndpointConfig) (m : Moment σ) :
    (m.worker service limits).outstanding
      = (m.before.worker.outstanding.filter fun entry =>
          m.takenUp?.all fun done => entry.1 != done.call.sequence)
        ++ acceptedIn (m.effects service limits) := by
  obtain ⟨effects, heffects, hpumping⟩ := m.pumping service limits
  have hopened := m.opened limits
  have hnone : acceptedIn (m.opening limits).2 = [] := by
    unfold acceptedIn
    rw [hopened.dispatched]
    rfl
  rw [hpumping.outstanding, hopened.outstanding, heffects, acceptedIn_append, hnone,
    List.nil_append]

/-! ## §2. The calls that were handed over. -/

/-- A worker that has stopped reading hands no call over. -/
theorem Moment.dispatched_of_stopped {m : Moment σ} (hadmits : m.before.Admits limits m.occurrence)
    (hstopped : m.before.worker.reading = false) :
    dispatchesIn (m.effects service limits) = [] := by
  obtain ⟨⟨w, shutdown, held⟩, occurrence⟩ := m
  dsimp only at hstopped
  cases occurrence with
  | signalled => rfl
  | resolved call outcome => rfl
  | worked event =>
    cases event with
    | lost => rfl
    | writeFailed => rfl
    | wrote count => rfl
    | shutdown => exact (Intake.refuseFrom service limits w.received { w with reading := false }).2
    | received chunk =>
      have henabled := hadmits.2
      unfold enabled canRead at henabled
      rw [hstopped] at henabled
      cases henabled
    | drained =>
      unfold Moment.effects Scene.after step
      dsimp only
      cases w.completions with
      | nil => rfl
      | cons done later =>
        obtain ⟨hreading, -⟩ := complete_same limits done { w with completions := later }
        obtain ⟨hquiet, -⟩ := complete_quiet limits done { w with completions := later }
        have hstill : ¬ (({ w with completions := later } : Worker σ).complete limits
            done).1.reading = true := by
          rw [hreading]
          simp [hstopped]
        dsimp only
        rw [if_neg hstill]
        exact hquiet

/-- Of the bytes that were received some frames have been taken, and their calls were handed over.
The others are still ahead, if the worker reads. -/
def InOrder (limits : EndpointConfig) (received : Bytes) (dispatched : List Dispatch)
    (w : Worker σ) : Prop :=
  ∃ taken, taken <+: (RequestFrame.drain limits.maxMessageSize received).1
    ∧ dispatched.map (·.asks) = (callsIn taken).map (·.asks)
    ∧ (w.reading = true → ∀ tail,
        RequestFrame.Taken limits.maxMessageSize (received ++ tail) taken (w.received ++ tail))

/-- **One moment keeps the order.** -/
theorem InOrder.next {received : Bytes} {dispatched : List Dispatch} {m : Moment σ}
    (h : InOrder limits received dispatched m.before.worker)
    (hadmits : m.before.Admits limits m.occurrence) :
    InOrder limits (received ++ m.arrived)
      (dispatched ++ dispatchesIn (m.effects service limits)) (m.worker service limits) := by
  obtain ⟨taken, hinitial, hcalls, hahead⟩ := h
  obtain ⟨effects, heffects, hpumping⟩ := m.pumping service limits
  have hopened := m.opened limits
  cases hreading : m.before.worker.reading with
  | false =>
    -- nothing is taken, and nothing will be
    refine ⟨taken, hinitial.trans (Frame.drainWith_isPrefix _ _), ?_, fun hstill => ?_⟩
    · rw [Moment.dispatched_of_stopped hadmits hreading, List.append_nil]
      exact hcalls
    · rw [hopened.reading (hpumping.reading hstill)] at hreading
      cases hreading
  | true =>
    obtain ⟨later, hinitial', hcalls', hahead'⟩ := hpumping.order
    rw [hopened.received] at hinitial' hahead'
    refine ⟨taken ++ later, ?_, ?_, fun hstill tail => ?_⟩
    · have hsplit := hahead hreading m.arrived
      rw [RequestFrame.drain, hsplit]
      exact (List.prefix_append_right_inj taken).mpr hinitial'
    · rw [heffects, dispatchesIn_append, hopened.dispatched, List.nil_append, List.map_append,
        hcalls, hcalls', ← List.map_append, ← callsIn_append]
    · have hbefore := hahead hreading (m.arrived ++ tail)
      rw [← List.append_assoc, ← List.append_assoc] at hbefore
      exact hbefore.trans (hahead' hstill tail)

/-- **The calls that were handed over are the first calls of the stream.** -/
theorem Run.inOrder (run : Run service limits history s) :
    InOrder limits (receivedOf history) (dispatchesIn (effectsOf service limits history))
      s.worker := by
  induction run with
  | start peer => exact ⟨[], List.nil_prefix, rfl, fun _ tail => Frame.taken_nil tail⟩
  | @next history s run occurrence hadmits ih =>
    rw [receivedOf_concat, effectsOf_concat, dispatchesIn_append]
    exact InOrder.next (m := ⟨s, occurrence⟩) ih hadmits

/-- **No call is handed over in a version that the service does not speak.** -/
theorem Run.speaks (run : Run service limits history s) :
    Speaks service s.worker ∧ ∀ d ∈ dispatchesIn (effectsOf service limits history),
      service.supports d.call.interface = true := by
  induction run with
  | start peer => exact ⟨nofun, fun d hd => absurd hd List.not_mem_nil⟩
  | @next history s run occurrence hadmits ih =>
    obtain ⟨effects, heffects, hpumping⟩ := (⟨s, occurrence⟩ : Moment σ).pumping service limits
    have hopened := (⟨s, occurrence⟩ : Moment σ).opened limits
    have hspeaks : Speaks service ((⟨s, occurrence⟩ : Moment σ).opening limits).1 := by
      unfold Speaks
      rw [hopened.version]
      exact ih.1
    refine ⟨hpumping.speaks hspeaks, fun d hd => ?_⟩
    rw [effectsOf_concat, heffects, dispatchesIn_append, dispatchesIn_append, hopened.dispatched,
      List.nil_append, List.mem_append] at hd
    exact hd.elim (ih.2 d) (hpumping.interfaces hspeaks d)

/-! ## §3. Runs. -/

/-- **Calls are admitted in order, and no more than may be outstanding.**  The limits, the service
and the peer are any, and so are the chunks in which bytes arrive and the order in which things
happen; the frames may be malformed, cancel calls or use a number again.

At any moment no more calls are outstanding than may be.  A call gives up its place when a
resolution under its number is taken up, and never because it is cancelled.  The calls that the
service was handed are the first calls that the decoder finds in the stream, of which `tail` is
still to come: in order, without a gap, each once, and each with its own number, version and
payload. -/
theorem calls_are_admitted_in_order (run : Run service limits history s) (tail : Bytes) :
    s.worker.outstanding.length ≤ limits.maxOutstandingCalls
      ∧ (∀ m ∈ history, (m.worker service limits).outstanding
          = (m.before.worker.outstanding.filter fun entry =>
              m.takenUp?.all fun done => entry.1 != done.call.sequence)
            ++ acceptedIn (m.effects service limits))
      ∧ (dispatchesIn (effectsOf service limits history)).map (·.asks)
        <+: (callsIn (RequestFrame.drain limits.maxMessageSize
              (receivedOf history ++ tail)).1).map (·.asks) := by
  refine ⟨run.room, fun m _ => m.outstanding service limits, ?_⟩
  obtain ⟨taken, hinitial, hcalls, -⟩ := run.inOrder
  rw [hcalls]
  exact ((hinitial.trans (Frame.drainWith_isPrefix _ tail)).filter _).map _

/-- Two calls, and then a cancel of the first. -/
def cancelledCall : Bytes := twoCalls ++ (RequestFrame.cancel defaultVersion 0).bytes

/-- Two calls and a cancel arrive where one call may be outstanding: the cancel does not let the
second call through, and the resolution of the first does. -/
theorem calls_are_admitted_in_order_when_one_is_cancelled :
    ∃ (history : List (Moment Unit)) (s : Scene Unit),
      Run keeper narrow history s ∧ receivedOf history = cancelledCall
      ∧ (∃ m ∈ history, m.before.worker.outstanding = [(0, 0)]
        ∧ m.before.worker.isAbandoned false 0 = true
        ∧ (m.worker keeper narrow).outstanding = [(1, 1)])
      ∧ s.worker.outstanding.length ≤ 1
      ∧ (dispatchesIn (effectsOf keeper narrow history)).map (·.asks)
        = [(0, defaultVersion, [7]), (1, defaultVersion, [8])]
      ∧ (dispatchesIn (effectsOf keeper narrow history)).map (·.asks)
        <+: (callsIn (RequestFrame.drain narrow.maxMessageSize cancelledCall).1).map (·.asks) := by
  have start : Run keeper narrow [] _ := .start (.unix ⟨"/agent"⟩)
  have arrived := start.next (.worked (.received cancelledCall)) (by decide +kernel)
  have resolved := arrived.next (.resolved ⟨0, 0, 1⟩ (.ok [9])) (by decide +kernel)
  have drained := resolved.next (.worked .drained) (by decide +kernel)
  obtain ⟨hroom, hplaces, horder⟩ := calls_are_admitted_in_order drained []
  refine ⟨_, _, drained, by decide +kernel, ⟨_, List.mem_append_right _ List.mem_cons_self,
    by decide +kernel, by decide +kernel, ?_⟩, hroom, by decide +kernel, horder⟩
  rw [hplaces _ (List.mem_append_right _ List.mem_cons_self)]
  decide +kernel

end RemoteCall.Worker
