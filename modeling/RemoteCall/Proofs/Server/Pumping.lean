/-
  RemoteCall.Proofs.Server.Pumping
  ────────────────────────────────
  **TAKING FRAMES OFF A STREAM KEEPS THE BOOKS.**

  Requests on one connection speak one version, and no two calls have the same
  number (`WellFormed`).  A worker that listens to its peer (`Desk`) keeps its
  books whatever it takes off its stream.  It goes on until it needs more bytes
  or may dispatch no other call; it meets a fault only if the stream is at
  fault or the service does not speak the version.

  Main statements:
    • `Desk.dispatch`, `Desk.takeIn` — one frame,
    • `Desk.pumpFrom`                — the frames of a buffer,
    • `Desk.refuseFrom`              — the frames that are left at the end.
-/
import RemoteCall.Proofs.Frame.Stream
import RemoteCall.Proofs.Server.Books

namespace RemoteCall

/-- Requests that speak one version, and calls with distinct numbers. -/
structure WellFormed (version : UInt32) (frames : List RequestFrame) : Prop where
  version : ∀ frame ∈ frames, frame.version = version
  distinct : ((callsIn frames).map (·.sequence)).Nodup

theorem WellFormed.of_isPrefix {version : UInt32} {frames more : List RequestFrame}
    (h : WellFormed version more) (hinitial : frames <+: more) : WellFormed version frames :=
  ⟨fun frame hmem => h.version frame (hinitial.subset hmem),
    h.distinct.sublist ((hinitial.sublist.filter _).map _)⟩

namespace Worker

variable {σ : Type} {service : Service σ} {limits : EndpointConfig} {shutdown : Bool}
  {version : UInt32} {sent : Bytes} {reading : Bool}

/-! ## §1. A worker that listens. -/

/-- What has been done, when the worker has done some more. -/
def Tally.add (t : Tally) (effects : List WorkerEffect) : Tally :=
  { t with
    dispatched := t.dispatched ++ dispatchesIn effects
    finished := t.finished ++ finishedIn effects
    queued := t.queued ++ queuedIn effects
    held := t.held ++ (dispatchesIn effects).filterMap (·.kept?) }

@[simp] theorem Tally.add_nil (t : Tally) : t.add [] = t := by
  simp [Tally.add, dispatchesIn, finishedIn, queuedIn]

/-- To ask the service about a version leaves nothing behind. -/
@[simp] theorem Tally.add_consulted (t : Tally) (version : UInt32) (supported : Bool)
    (effects : List WorkerEffect) :
    t.add (.consulted version supported :: effects) = t.add effects := rfl

/-- A response is queued. -/
theorem Tally.add_queued (t : Tally) (frame : ResponseFrame) :
    t.add [.queued frame] = { t with queued := t.queued ++ [frame] } := by
  simp [Tally.add, dispatchesIn, finishedIn, queuedIn, dispatch?, finished?, queued?]

theorem Tally.add_append (t : Tally) (xs ys : List WorkerEffect) :
    t.add (xs ++ ys) = (t.add xs).add ys := by
  simp [Tally.add, dispatchesIn, finishedIn, queuedIn]

/-- The written responses are those that were queued, as far as they have been sent; the others are
in the transmit buffer, unless the peer is gone. -/
def Transmits (limits : EndpointConfig) (queued : List ResponseFrame) (sent : Bytes)
    (w : Worker σ) : Prop :=
  ∃ rest, queued.flatMap (written limits) = sent ++ rest ∧ (w.broken = false → rest = w.unsent)

/-- A worker that listens to its peer keeps its books. -/
structure Desk (service : Service σ) (limits : EndpointConfig) (version : UInt32) (sent : Bytes)
    (reading : Bool) (t : Tally) (w : Worker σ) : Prop where
  books : Books t w
  accepted : Accepted t w
  transmits : Transmits limits t.queued sent w
  listens : w.broken = false
  reads : w.reading = reading
  wellFormed : WellFormed version t.taken
  speaks : w.version = none ∨ (w.version = some version ∧ service.supports version = true)
  reasons : ∀ x ∈ t.turned, (x.1.kind = .call ∧ x.2 = .shuttingDown)
    ∨ service.supports version = false

variable {t : Tally} {w w' : Worker σ}

/-- What is not in the books is left alone. -/
theorem Desk.of_eq (h : Desk service limits version sent reading t w)
    (houtstanding : w'.outstanding = w.outstanding) (hcompletions : w'.completions = w.completions)
    (hbroken : w'.broken = w.broken) (hunsent : w'.unsent = w.unsent)
    (hversion : w'.version = w.version) (hreading : w'.reading = w.reading) :
    Desk service limits version sent reading t w' := by
  refine ⟨h.books.of_eq houtstanding hcompletions hbroken, ?_, ?_, hbroken.trans h.listens,
    hreading.trans h.reads, h.wellFormed, ?_, h.reasons⟩
  · intro d hd hentry
    exact h.accepted d hd (houtstanding ▸ hentry)
  · obtain ⟨rest, hrest, hlisten⟩ := h.transmits
    exact ⟨rest, hrest, fun hb => (hlisten (hbroken ▸ hb)).trans hunsent.symm⟩
  · rw [hversion]
    exact h.speaks

theorem Desk.revoke (h : Desk service limits version sent reading t w) (n : SequenceNumber) :
    Desk service limits version sent reading t (w.revoke n) := by
  unfold Worker.revoke
  split
  · exact h.of_eq rfl rfl rfl rfl rfl rfl
  · exact h

theorem Desk.revokeAll (h : Desk service limits version sent reading t w)
    (ns : List SequenceNumber) : Desk service limits version sent reading t (w.revokeAll ns) := by
  unfold Worker.revokeAll
  induction ns generalizing w with
  | nil => exact h
  | cons n ns ih => exact ih (h.revoke n)

/-- A response that is queued is in the transmit buffer. -/
theorem Transmits.queue {queued : List ResponseFrame} (h : Transmits limits queued sent w)
    (frame : ResponseFrame) :
    Transmits limits (queued ++ [frame]) sent (w.queue limits frame).1 := by
  obtain ⟨rest, hrest, hlisten⟩ := h
  refine ⟨rest ++ written limits frame, ?_, fun hb => congrArg (· ++ _) (hlisten hb)⟩
  rw [List.flatMap_append, hrest, List.flatMap_singleton, List.append_assoc]

/-! ## §2. One frame. -/

/-- A call that has not been taken yet is not outstanding. -/
theorem Desk.outstanding?_eq_none (h : Desk service limits version sent reading t w)
    {frame : RequestFrame} (hkind : frame.kind = .call)
    (hwell : WellFormed version (t.taken ++ [frame])) :
    frame.sequence ∉ t.dispatched.map (·.call.sequence)
      ∧ w.outstanding? frame.sequence = none := by
  have hone : callsIn [frame] = [frame] := List.filter_cons_of_pos (by simp [hkind])
  have hdistinct := hwell.distinct
  rw [callsIn_append, hone, List.map_append, List.nodup_append] at hdistinct
  have hfresh : frame.sequence ∉ t.dispatched.map (·.call.sequence) := fun hmem =>
    hdistinct.2.2 _ (h.books.sequences.subset hmem) _ List.mem_cons_self rfl
  refine ⟨hfresh, ?_⟩
  cases hfind : w.outstanding? frame.sequence with
  | none => rfl
  | some ticket =>
    obtain ⟨d, hd, hentry⟩ := h.books.dispatch_of_outstanding (mem_of_find?_key hfind)
    exact absurd (List.mem_map.mpr ⟨d, hd, congrArg Prod.fst hentry⟩) hfresh

/-- A call that was handed over is outstanding; no other call is under its number. -/
theorem Desk.filter_outstanding (h : Desk service limits version sent reading t w)
    {n : SequenceNumber} (hfresh : n ∉ t.dispatched.map (·.call.sequence)) (ticket : Ticket) :
    (w.outstanding ++ [(n, ticket)]).filter (·.1 != n) = w.outstanding := by
  have hothers : ∀ entry ∈ w.outstanding, entry.1 ≠ n := by
    intro entry hentry heq
    obtain ⟨d, hd, hd'⟩ := h.books.dispatch_of_outstanding hentry
    exact hfresh (List.mem_map.mpr ⟨d, hd, (congrArg Prod.fst hd').trans heq⟩)
  rw [List.filter_append, List.filter_cons_of_neg (by simp), List.filter_nil, List.append_nil,
    List.filter_eq_self]
  intro entry hentry
  simpa using hothers entry hentry

/-- What the service is handed with a frame, and what it does. -/
def dispatchOf (service : Service σ) (shutdown : Bool) (frame : RequestFrame) (w : Worker σ) :
    Dispatch :=
  let call : IncompleteCall := ⟨w.nextTicket, frame.sequence, frame.version⟩
  let incoming : Incoming := ⟨call, frame.payload, w.isAbandoned shutdown call.ticket⟩
  let reaction := service.called w.session incoming
  ⟨incoming, reaction.fate, reaction.verdict⟩

/-- The worker when the service has been handed a call. -/
def handOver (service : Service σ) (shutdown : Bool) (frame : RequestFrame) (w : Worker σ) :
    Worker σ :=
  let d := w.dispatchOf service shutdown frame
  { w with
    session := (service.called w.session d.incoming).session
    nextTicket := w.nextTicket + 1
    outstanding := w.outstanding ++ [entryOf d.call]
    completions := w.completions ++ [d].filterMap (·.resolution?) }

/-- The effect of a dispatch. -/
def Dispatch.effect (d : Dispatch) : WorkerEffect :=
  .dispatched d.incoming d.fate d.verdict

theorem dispatch_eq {frame : RequestFrame} (h : w.outstanding? frame.sequence = none)
    (service : Service σ) (limits : EndpointConfig) (shutdown : Bool) :
    w.dispatch service limits shutdown frame
      = let d := w.dispatchOf service shutdown frame
        let w' := w.handOver service shutdown frame
        match d.verdict with
        | .ok _ => { worker := w', effects := [d.effect] }
        | .error e =>
          { worker := ({ w' with
              outstanding := w'.outstanding.filter (·.1 != frame.sequence) }.queue limits
                (.failure frame.sequence e)).1
            effects := [d.effect, .finished d.call (.error e),
              .queued (.failure frame.sequence e)] } := by
  unfold dispatch
  dsimp only
  rw [h]
  unfold handOver dispatchOf
  dsimp only
  generalize service.called w.session _ = reaction
  -- a resolution that the service comes to at once is in the queue behind the others
  cases hres : reaction.fate.resolution? with
  | none =>
    have hnone : ∀ incoming : Incoming,
        ([⟨incoming, reaction.fate, reaction.verdict⟩] : List Dispatch).filterMap (·.resolution?)
          = [] := by
      intro incoming
      simp [Dispatch.resolution?, hres]
    rw [hnone, List.append_nil]
    rfl
  | some outcome =>
    have hsome : ∀ incoming : Incoming,
        ([⟨incoming, reaction.fate, reaction.verdict⟩] : List Dispatch).filterMap (·.resolution?)
          = [⟨incoming.call, outcome⟩] := by
      intro incoming
      simp [Dispatch.resolution?, Dispatch.call, hres]
    rw [hsome]
    rfl

/-- The service has been handed `d` with a frame, and nothing else has happened to the worker that
its books tell of. -/
structure HandedOver (frame : RequestFrame) (d : Dispatch) (w w' : Worker σ) : Prop where
  asks : d.asks = frame.asks
  entry : entryOf d.call = (frame.sequence, w.nextTicket)
  outstanding : w'.outstanding = w.outstanding ++ [entryOf d.call]
  completions : w'.completions = w.completions ++ [d].filterMap (·.resolution?)
  broken : w'.broken = w.broken
  unsent : w'.unsent = w.unsent
  version : w'.version = w.version
  reading : w'.reading = w.reading

theorem handedOver (service : Service σ) (shutdown : Bool) (frame : RequestFrame) (w : Worker σ) :
    HandedOver frame (w.dispatchOf service shutdown frame) w
      (w.handOver service shutdown frame) :=
  ⟨rfl, rfl, rfl, rfl, rfl, rfl, rfl, rfl⟩

variable {frame : RequestFrame} {d : Dispatch}

/-- What was outstanding before is accepted, whichever call is handed over now. -/
theorem Desk.accepted_before (h : Desk service limits version sent reading t w)
    (hfresh : frame.sequence ∉ t.dispatched.map (·.call.sequence)) {d' : Dispatch}
    (hd' : d' ∈ t.dispatched)
    (hout : entryOf d'.call ∈ w.outstanding ++ [(frame.sequence, w.nextTicket)]) :
    d'.verdict = .ok () := by
  rcases List.mem_append.mp hout with hold | hnew
  · exact h.accepted d' hd' hold
  · have hsame : d'.call.sequence = frame.sequence :=
      congrArg Prod.fst (List.mem_singleton.mp hnew)
    exact absurd (List.mem_map.mpr ⟨d', hd', hsame⟩) hfresh

/-- The transmit buffer is as it was. -/
theorem HandedOver.transmits (hover : HandedOver frame d w w') {queued : List ResponseFrame}
    (h : Transmits limits queued sent w) : Transmits limits queued sent w' := by
  obtain ⟨rest, hrest, hlisten⟩ := h
  refine ⟨rest, hrest, ?_⟩
  intro hbroken
  rw [hover.broken] at hbroken
  rw [hover.unsent]
  exact hlisten hbroken

/-- **The service accepts a call**, which is outstanding then. -/
theorem Desk.accept (h : Desk service limits version sent reading t w) (hturned : t.turned = [])
    (hkind : frame.kind = .call) (hwell : WellFormed version (t.taken ++ [frame]))
    (hover : HandedOver frame d w w') (hverdict : d.verdict = .ok ()) :
    Desk service limits version sent reading
      { t with
        taken := t.taken ++ [frame]
        dispatched := t.dispatched ++ [d]
        held := t.held ++ [d].filterMap (·.kept?) } w' := by
  obtain ⟨hfresh, -⟩ := h.outstanding?_eq_none hkind hwell
  have hbooks := h.books.accept hkind hturned hover.asks hover.outstanding hover.completions
    hover.broken
  refine ⟨hbooks, ?_, hover.transmits h.transmits, hover.broken.trans h.listens,
    hover.reading.trans h.reads, hwell, hover.version ▸ h.speaks, h.reasons⟩
  intro d' hd' hmem
  rw [hover.outstanding, hover.entry] at hmem
  rcases List.mem_append.mp hd' with hold | hnew
  · exact h.accepted_before hfresh hold hmem
  · rw [List.mem_singleton.mp hnew]
    exact hverdict

/-- **The service rejects a call**, which is answered at once and not outstanding. -/
theorem Desk.reject (h : Desk service limits version sent reading t w) (hturned : t.turned = [])
    (hkind : frame.kind = .call) (hwell : WellFormed version (t.taken ++ [frame]))
    (hover : HandedOver frame d w w') {e : Failure} (hverdict : d.verdict = .error e) :
    Desk service limits version sent reading
      { t with
        taken := t.taken ++ [frame]
        dispatched := t.dispatched ++ [d]
        held := t.held ++ [d].filterMap (·.kept?)
        finished := t.finished ++ [⟨d.call, .error e⟩]
        queued := t.queued ++ [.failure frame.sequence e] }
      ({ w' with outstanding := w'.outstanding.filter (·.1 != frame.sequence) }.queue limits
        (.failure frame.sequence e)).1 := by
  obtain ⟨hfresh, -⟩ := h.outstanding?_eq_none hkind hwell
  have hbooks := h.books.accept hkind hturned hover.asks hover.outstanding hover.completions
    hover.broken
  have hsequence : d.call.sequence = frame.sequence := congrArg Prod.fst hover.entry
  -- the call leaves the outstanding ones again, and no other does
  have hfreed : w'.outstanding.filter (·.1 != frame.sequence) = w.outstanding := by
    rw [hover.outstanding, hover.entry]
    exact h.filter_outstanding hfresh w.nextTicket
  have hanswer : answerTo ⟨d.call, .error e⟩ = .failure frame.sequence e := by
    unfold answerTo
    rw [hsequence]
    rfl
  have htransmits : Transmits limits t.queued sent
      { w' with outstanding := w'.outstanding.filter (·.1 != frame.sequence) } :=
    hover.transmits h.transmits
  refine ⟨?_, ?_, htransmits.queue _, hover.broken.trans h.listens, hover.reading.trans h.reads,
    hwell, hover.version ▸ h.speaks, h.reasons⟩
  · -- the books: the call is finished with the failure that it was rejected for
    have hlast : d ∈ t.dispatched ++ [d] := List.mem_append_right _ (List.mem_singleton_self d)
    have hout : entryOf d.call ∈ w'.outstanding := by
      rw [hover.outstanding]
      exact List.mem_append_right _ (List.mem_singleton_self _)
    have hgives : ∀ resolutions, ComesTo resolutions d (.error e) := by
      intro resolutions
      unfold ComesTo
      rw [hverdict]
    have hanswered : PartOf (w'.broken = false) [.failure frame.sequence e]
        [answerTo ⟨d.call, .error e⟩] := by
      rw [hanswer]
      exact .refl _
    refine hbooks.finish hwell.distinct hout hlast rfl (hgives _) ?_ ?_ ?_ hanswered
    · rw [hsequence]
      rfl
    · intro later hlater
      exact hlater
    · rfl
  · intro d' hd' hmem
    have hmem' : entryOf d'.call ∈ w.outstanding := hfreed ▸ hmem
    rcases List.mem_append.mp hd' with hold | hnew
    · exact h.accepted d' hold hmem'
    · -- the call itself is outstanding no more
      rw [List.mem_singleton.mp hnew, ← hfreed, hover.entry] at hmem'
      exact absurd (List.mem_filter.mp hmem').2 (by simp)

/-- **A call is handed to the service**, and answered at once if the service rejects it. -/
theorem Desk.dispatch (h : Desk service limits version sent reading t w) (hturned : t.turned = [])
    (hkind : frame.kind = .call) (hwell : WellFormed version (t.taken ++ [frame]))
    (shutdown : Bool) :
    (w.dispatch service limits shutdown frame).fault = none
      ∧ Desk service limits version sent reading
          { t.add (w.dispatch service limits shutdown frame).effects with
            taken := t.taken ++ [frame] }
          (w.dispatch service limits shutdown frame).worker := by
  obtain ⟨-, hnone⟩ := h.outstanding?_eq_none hkind hwell
  have hover := handedOver service shutdown frame w
  rw [dispatch_eq hnone]
  dsimp only
  generalize w.dispatchOf service shutdown frame = d at *
  generalize w.handOver service shutdown frame = w' at *
  cases hverdict : d.verdict with
  | ok _ =>
    have hadd : t.add [d.effect] = { t with
        dispatched := t.dispatched ++ [d]
        held := t.held ++ [d].filterMap (·.kept?) } := by
      simp [Tally.add, dispatchesIn, finishedIn, queuedIn, Dispatch.effect, dispatch?, finished?,
        queued?]
    refine ⟨rfl, ?_⟩
    dsimp only
    rw [hadd]
    exact h.accept hturned hkind hwell hover hverdict
  | error e =>
    have hadd : t.add [d.effect, .finished d.call (.error e), .queued (.failure frame.sequence e)]
        = { t with
          dispatched := t.dispatched ++ [d]
          held := t.held ++ [d].filterMap (·.kept?)
          finished := t.finished ++ [⟨d.call, .error e⟩]
          queued := t.queued ++ [.failure frame.sequence e] } := rfl
    refine ⟨rfl, ?_⟩
    dsimp only
    rw [hadd]
    exact h.reject hturned hkind hwell hover hverdict

/-- A frame that asks for no call is passed over. -/
theorem Desk.skip (h : Desk service limits version sent reading t w)
    (hkind : frame.kind = .cancel) (hwell : WellFormed version (t.taken ++ [frame])) :
    Desk service limits version sent reading { t with taken := t.taken ++ [frame] } w :=
  ⟨h.books.skip hkind, h.accepted, h.transmits, h.listens, h.reads, hwell, h.speaks, h.reasons⟩

/-- **A frame is turned away**, because of the shutdown or of its version. -/
theorem Desk.turn (h : Desk service limits version sent reading t w)
    (hwell : WellFormed version (t.taken ++ [frame])) {e : Failure}
    (hreason : (frame.kind = .call ∧ e = .shuttingDown) ∨ service.supports version = false) :
    Desk service limits version sent reading
      { t with
        taken := t.taken ++ [frame]
        turned := t.turned ++ [(frame, e)]
        queued := t.queued ++ [.failure frame.sequence e] }
      (w.queue limits (.failure frame.sequence e)).1 := by
  refine ⟨(h.books.turn frame e).of_eq rfl rfl rfl, h.accepted, h.transmits.queue _, h.listens,
    h.reads, hwell, h.speaks, ?_⟩
  intro x hx
  rcases List.mem_append.mp hx with hold | hnew
  · exact h.reasons x hold
  · rw [List.mem_singleton.mp hnew]
    exact hreason

/-- The version of a frame is that of the connection, or it is turned away as one that the service
does not speak. -/
theorem Desk.checkVersion (h : Desk service limits version sent reading t w)
    (hturned : t.turned = []) (hwell : WellFormed version (t.taken ++ [frame])) :
    match (w.checkVersion service limits frame).fault with
    | none => Desk service limits version sent reading
        (t.add (w.checkVersion service limits frame).effects)
        (w.checkVersion service limits frame).worker
    | some e => service.supports version = false
      ∧ Desk service limits version sent reading
        { t.add (w.checkVersion service limits frame).effects with
          taken := t.taken ++ [frame], turned := [(frame, e)] }
        (w.checkVersion service limits frame).worker := by
  have hversion : frame.version = version :=
    hwell.version frame (List.mem_append_right _ (List.mem_singleton_self frame))
  unfold Worker.checkVersion
  rw [hversion]
  rcases h.speaks with hnone | ⟨hsome, _⟩
  · -- the first frame: the service is asked
    rw [hnone]
    dsimp only
    by_cases hsupports : service.supports version = true
    · rw [if_pos hsupports]
      dsimp only
      rw [Tally.add_consulted, Tally.add_nil]
      exact ⟨h.books.of_eq rfl rfl rfl, h.accepted, h.transmits, h.listens, h.reads, h.wellFormed,
        .inr ⟨rfl, hsupports⟩, h.reasons⟩
    · have hunsupported : service.supports version = false := by simpa using hsupports
      have hdesk := h.turn (e := .unsupportedVersion version) hwell (.inr hunsupported)
      rw [hturned] at hdesk
      rw [if_neg hsupports]
      dsimp only
      rw [Tally.add_consulted]
      dsimp only [queue]
      rw [Tally.add_queued]
      exact ⟨hunsupported, hdesk⟩
  · -- the version is known
    rw [hsome]
    dsimp only
    rw [if_pos rfl]
    dsimp only
    rw [Tally.add_nil]
    exact h

/-- **A frame is taken in.**  It is turned away only if the service does not speak the version. -/
theorem Desk.takeIn (h : Desk service limits version sent reading t w) (hturned : t.turned = [])
    (hwell : WellFormed version (t.taken ++ [frame])) (shutdown : Bool) :
    ∃ turned, Desk service limits version sent reading
        { t.add (w.takeIn service limits shutdown frame).effects with
          taken := t.taken ++ [frame], turned }
        (w.takeIn service limits shutdown frame).worker
      ∧ ((w.takeIn service limits shutdown frame).fault = none → turned = [])
      ∧ ((w.takeIn service limits shutdown frame).fault ≠ none
          → service.supports version = false) := by
  have hchecked := h.checkVersion hturned hwell
  unfold Worker.takeIn
  generalize w.checkVersion service limits frame = checked at *
  obtain ⟨w', fault, effects⟩ := checked
  cases fault with
  | some e =>
    obtain ⟨hsupports, hdesk⟩ := hchecked
    refine ⟨[(frame, e)], hdesk, fun hnone => ?_, fun _ => hsupports⟩
    cases hnone
  | none =>
    replace hchecked : Desk service limits version sent reading (t.add effects) w' := hchecked
    cases hkind : frame.kind with
    | cancel =>
      refine ⟨[], ?_, fun _ => rfl, fun hne => absurd rfl hne⟩
      dsimp only
      rw [← hturned]
      exact (hchecked.revoke frame.sequence).skip hkind hwell
    | call =>
      obtain ⟨hfault, hdesk⟩ := hchecked.dispatch hturned hkind hwell shutdown
      dsimp only
      rw [hfault]
      refine ⟨[], ?_, fun _ => rfl, fun hne => absurd rfl hne⟩
      rw [Tally.add_append, ← hturned]
      exact hdesk

/-! ## §3. The frames of a buffer. -/

/-- **Frames are taken off a buffer** that continues what was taken before.  Without a fault the
worker stands where it has come to; a fault is one of the stream, if the service speaks the
version. -/
theorem Desk.pumpFrom {total tail : Bytes} (shutdown : Bool)
    (hstream : WellFormed version (RequestFrame.drain limits.maxMessageSize (total ++ tail)).1)
    (buffer : Bytes) {t : Tally} {w : Worker σ}
    (h : Desk service limits version sent reading t w) (hturned : t.turned = [])
    (hahead : ∀ more, RequestFrame.Taken limits.maxMessageSize (total ++ more) t.taken
      (buffer ++ more)) :
    ∃ taken turned, Desk service limits version sent reading
        { t.add (w.pumpFrom service limits shutdown buffer).effects with taken, turned }
        (w.pumpFrom service limits shutdown buffer).worker
      ∧ taken <+: (RequestFrame.drain limits.maxMessageSize total).1
      ∧ ((w.pumpFrom service limits shutdown buffer).fault = none → turned = []
          ∧ ∀ more, RequestFrame.Taken limits.maxMessageSize (total ++ more) taken
            ((w.pumpFrom service limits shutdown buffer).buffer ++ more))
      ∧ ((w.pumpFrom service limits shutdown buffer).fault ≠ none
          → service.supports version = true
          → (RequestFrame.drain limits.maxMessageSize total).2.1 ≠ none) := by
  -- each frame shortens the buffer
  induction hlength : buffer.length using Nat.strongRecOn generalizing buffer t w with
  | ind n ih =>
    have hhere := hahead []
    rw [List.append_nil, List.append_nil] at hhere
    rw [Worker.pumpFrom]
    split
    · -- the worker is full: it looks ahead and takes nothing
      refine ⟨t.taken, [], ?_, hhere.isPrefix, fun _ => ⟨rfl, hahead⟩,
        fun hne => absurd rfl hne⟩
      dsimp only
      rw [Tally.add_nil, ← hturned]
      exact h.revokeAll _
    · split
      · -- it needs more bytes
        refine ⟨t.taken, [], ?_, hhere.isPrefix, fun _ => ⟨rfl, hahead⟩,
          fun hne => absurd rfl hne⟩
        dsimp only
        rw [Tally.add_nil, ← hturned]
        exact h
      · next e rest hfault =>
        -- the fault that it meets is one of the stream
        refine ⟨t.taken, [], ?_, hhere.isPrefix, fun hnone => ?_, fun _ _ => ?_⟩
        · dsimp only
          rw [Tally.add_nil, ← hturned]
          exact h
        · cases hnone
        · rw [RequestFrame.drain, hhere.fault hfault]
          exact Option.some_ne_none e
      · next frame rest hframe =>
        -- the frame is one of the stream, so it is well formed
        have htail := Frame.decodeWith_append hframe tail
        have hwell : WellFormed version (t.taken ++ [frame]) :=
          hstream.of_isPrefix ((hahead tail).frame_isPrefix htail)
        obtain ⟨turned, hdesk, hgoes, hstops⟩ := h.takeIn hturned hwell shutdown
        have htaken : (t.taken ++ [frame]) <+: (RequestFrame.drain limits.maxMessageSize total).1 :=
          hhere.frame_isPrefix hframe
        generalize w.takeIn service limits shutdown frame = admitted at *
        obtain ⟨w', fault, effects⟩ := admitted
        cases fault with
        | some e =>
          refine ⟨t.taken ++ [frame], turned, hdesk, htaken, fun hnone => ?_, fun _ hspoken => ?_⟩
          · cases hnone
          · rw [hstops (Option.some_ne_none e)] at hspoken
            cases hspoken
        | none =>
          dsimp only at hdesk ⊢
          rw [hgoes rfl] at hdesk
          have hshorter : rest.length < n := hlength ▸ Frame.length_of_decodeWith hframe
          obtain ⟨taken', turned', hdesk', hinitial', hgoes', hstops'⟩ :=
            ih rest.length hshorter rest hdesk rfl
              (fun more => (hahead more).frame (Frame.decodeWith_append hframe more)) rfl
          refine ⟨taken', turned', ?_, hinitial', hgoes', hstops'⟩
          rw [Tally.add_append]
          exact hdesk'

/-- **The calls that are left are refused.**  If the stream is not at fault, nothing is left. -/
theorem Desk.refuseFrom {total : Bytes}
    (hstream : WellFormed version (RequestFrame.drain limits.maxMessageSize total).1)
    (buffer : Bytes) {t : Tally} {w : Worker σ}
    (h : Desk service limits version sent reading t w)
    (hahead : RequestFrame.Taken limits.maxMessageSize total t.taken buffer) :
    ∃ taken turned, Desk service limits version sent reading
        { t.add (w.refuseFrom limits buffer).effects with taken, turned }
        (w.refuseFrom limits buffer).worker
      ∧ taken <+: (RequestFrame.drain limits.maxMessageSize total).1
      ∧ ((RequestFrame.drain limits.maxMessageSize total).2.1 = none
          → (RequestFrame.drain limits.maxMessageSize total).1 = taken) := by
  induction hlength : buffer.length using Nat.strongRecOn generalizing buffer t w with
  | ind n ih =>
    rw [Worker.refuseFrom]
    split
    · next hmore =>
      -- all whole frames have been taken
      refine ⟨t.taken, t.turned, ?_, hahead.isPrefix, fun _ => ?_⟩
      · dsimp only
        rw [Tally.add_nil]
        exact h
      · rw [RequestFrame.drain, hahead.eq_of_incomplete hmore]
    · next e rest hfault =>
      refine ⟨t.taken, t.turned, ?_, hahead.isPrefix, fun hnone => ?_⟩
      · dsimp only
        rw [Tally.add_nil]
        exact h
      · rw [RequestFrame.drain, hahead.fault hfault] at hnone
        cases hnone
    · next frame rest hframe =>
      have hwell : WellFormed version (t.taken ++ [frame]) :=
        hstream.of_isPrefix (hahead.frame_isPrefix hframe)
      have hshorter : rest.length < n := hlength ▸ Frame.length_of_decodeWith hframe
      have hnext := hahead.frame hframe
      split
      · next hkind =>
        -- a cancel gets no answer
        have hdesk := (h.revoke frame.sequence).skip hkind hwell
        have hlater := ih rest.length hshorter rest hdesk hnext rfl
        exact hlater
      · next hkind =>
        -- a call is refused
        have hdesk : Desk service limits version sent reading
            { t.add (w.queue limits (.failure frame.sequence .shuttingDown)).2 with
              taken := t.taken ++ [frame]
              turned := t.turned ++ [(frame, .shuttingDown)] }
            (w.queue limits (.failure frame.sequence .shuttingDown)).1 := by
          rw [show (w.queue limits (.failure frame.sequence .shuttingDown)).2
            = [.queued (.failure frame.sequence .shuttingDown)] from rfl, Tally.add_queued]
          exact h.turn hwell (.inl ⟨hkind, rfl⟩)
        obtain ⟨taken, turned, hdesk', hinitial, hall⟩ :=
          ih rest.length hshorter rest hdesk hnext rfl
        refine ⟨taken, turned, ?_, hinitial, hall⟩
        dsimp only
        rw [Tally.add_append]
        exact hdesk'

end Worker

end RemoteCall
