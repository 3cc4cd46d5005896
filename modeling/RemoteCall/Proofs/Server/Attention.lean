/-
  RemoteCall.Proofs.Server.Attention
  ──────────────────────────────────
  **A WORKER THAT READS HAS HEEDED WHATEVER HAS ARRIVED.**

  Cancels are honoured on three routes: one that is decoded in its turn, one at
  the front of the receive buffer of a worker that may dispatch no other call,
  and those that looking ahead finds behind a call that has to wait.

  Between two steps of a worker that reads, nothing waits that it could take
  (`Heeds`): more bytes are needed, or as many calls are outstanding as may be,
  no cancel is next, and the cancels further back have been honoured.  And it
  has honoured nothing else (`Watch`): a call that is revoked is named by a
  cancel that stands at a boundary of the stream.  What only looks like a
  cancel, since its size misleads, is not taken.

  A cancel that looking ahead has honoured is decoded later on.  If no two calls
  of the stream have the same number, that does nothing.

  Main statements:
    • `Watch.takeIn`, `Watch.meets`, `Watch.pumpFrom` — the frames of a buffer,
    • `heeds_pumpFrom`                 — what is left of a buffer,
    • `pumpFrom_of_misleads`           — a size that misleads,
    • `Run.attentive`                  — a run,
    • `Run.handed_once`, `Run.honoured` — calls and their numbers,
    • `cancels_are_heeded_and_nothing_stalls` — the statement about runs.
-/
import RemoteCall.Proofs.Frame.Lookahead
import RemoteCall.Proofs.Server.Taking

namespace RemoteCall.Worker

open RemoteCall.RequestFrame

variable {σ : Type} {service : Service σ} {limits : EndpointConfig} {shutdown : Bool}
  {w w' : Worker σ} {frame : RequestFrame} {stream : Bytes}

/-! ## §1. The calls that are revoked. -/

/-- The outstanding calls have numbers and tickets of their own, tickets are used once, and a call
that is revoked is named by a cancel of the stream. -/
structure Watch (stream : Bytes) (w : Worker σ) : Prop where
  numbers : (w.outstanding.map (·.1)).Nodup
  tickets : (w.outstanding.map (·.2)).Nodup
  below : ∀ entry ∈ w.outstanding, entry.2 < w.nextTicket
  past : ∀ ticket ∈ w.revoked, ticket < w.nextTicket
  named : ∀ entry ∈ w.outstanding, entry.2 ∈ w.revoked → Cancels stream entry.1

/-- A new worker. -/
theorem watch_new (service : Service σ) (peer : PeerName) : Watch [] (.new service peer) :=
  ⟨.nil, .nil, nofun, nofun, nofun⟩

/-- Calls may end, and more bytes may arrive. -/
theorem Watch.of_sublist (h : Watch stream w) (tail : Bytes)
    (houtstanding : w'.outstanding.Sublist w.outstanding) (hticket : w'.nextTicket = w.nextTicket)
    (hrevoked : w'.revoked = w.revoked) : Watch (stream ++ tail) w' := by
  refine ⟨h.numbers.sublist (houtstanding.map _), h.tickets.sublist (houtstanding.map _), ?_, ?_,
    ?_⟩
  · intro entry hentry
    rw [hticket]
    exact h.below entry (houtstanding.subset hentry)
  · rw [hticket, hrevoked]
    exact h.past
  · intro entry hentry hmem
    rw [hrevoked] at hmem
    exact (h.named entry (houtstanding.subset hentry) hmem).append tail

/-- Nothing else counts. -/
theorem Watch.of_eq (h : Watch stream w) (houtstanding : w'.outstanding = w.outstanding)
    (hticket : w'.nextTicket = w.nextTicket) (hrevoked : w'.revoked = w.revoked) :
    Watch stream w' := by
  have hsame := h.of_sublist [] (by rw [houtstanding]) hticket hrevoked
  rw [List.append_nil] at hsame
  exact hsame

/-- A ticket is used up. -/
theorem Watch.spend (h : Watch stream w) (houtstanding : w'.outstanding = w.outstanding)
    (hticket : w'.nextTicket = w.nextTicket + 1) (hrevoked : w'.revoked = w.revoked) :
    Watch stream w' := by
  refine ⟨?_, ?_, ?_, ?_, ?_⟩
  · rw [houtstanding]
    exact h.numbers
  · rw [houtstanding]
    exact h.tickets
  · rw [houtstanding, hticket]
    intro entry hentry
    exact Nat.lt_succ_of_lt (h.below entry hentry)
  · rw [hrevoked, hticket]
    intro ticket hmem
    exact Nat.lt_succ_of_lt (h.past ticket hmem)
  · rw [houtstanding, hrevoked]
    exact h.named

/-- **A call is outstanding** under the next ticket, which has not been revoked. -/
theorem Watch.accept (h : Watch stream w) {n : SequenceNumber} (hfree : w.outstanding? n = none)
    (houtstanding : w'.outstanding = w.outstanding ++ [(n, w.nextTicket)])
    (hticket : w'.nextTicket = w.nextTicket + 1) (hrevoked : w'.revoked = w.revoked) :
    Watch stream w' := by
  have hnumber : ∀ m ∈ w.outstanding.map (·.1), ∀ m' ∈ [n], m ≠ m' := by
    intro m hmem m' hm'
    obtain ⟨entry, hentry, rfl⟩ := List.mem_map.mp hmem
    rw [List.mem_singleton.mp hm']
    exact ne_of_outstanding?_eq_none hfree hentry
  have hfresh : ∀ ticket ∈ w.outstanding.map (·.2), ∀ ticket' ∈ [w.nextTicket],
      ticket ≠ ticket' := by
    intro ticket hmem ticket' hticket'
    obtain ⟨entry, hentry, rfl⟩ := List.mem_map.mp hmem
    rw [List.mem_singleton.mp hticket']
    exact Nat.ne_of_lt (h.below entry hentry)
  refine ⟨?_, ?_, ?_, ?_, ?_⟩
  · rw [houtstanding, List.map_append]
    exact List.nodup_append.mpr ⟨h.numbers, List.nodup_singleton n, hnumber⟩
  · rw [houtstanding, List.map_append]
    exact List.nodup_append.mpr ⟨h.tickets, List.nodup_singleton w.nextTicket, hfresh⟩
  · rw [houtstanding, hticket]
    intro entry hentry
    rcases List.mem_append.mp hentry with hold | hnew
    · exact Nat.lt_succ_of_lt (h.below entry hold)
    · rw [List.mem_singleton.mp hnew]
      exact Nat.lt_succ_self _
  · rw [hrevoked, hticket]
    intro ticket hmem
    exact Nat.lt_succ_of_lt (h.past ticket hmem)
  · rw [houtstanding, hrevoked]
    intro entry hentry hmem
    rcases List.mem_append.mp hentry with hold | hnew
    · exact h.named entry hold hmem
    · -- a ticket that was not given out has not been revoked
      rw [List.mem_singleton.mp hnew] at hmem
      exact absurd (h.past _ hmem) (Nat.lt_irrefl _)

/-- An outstanding call is found under its number. -/
theorem outstanding?_of_mem (h : (w.outstanding.map (·.1)).Nodup) {n : SequenceNumber}
    {ticket : Ticket} (hmem : (n, ticket) ∈ w.outstanding) : w.outstanding? n = some ticket := by
  cases hfind : w.outstanding? n with
  | none => exact absurd rfl (ne_of_outstanding?_eq_none hfind hmem)
  | some other =>
    have hsame := List.inj_on_of_nodup_map h (mem_of_find?_key hfind) hmem rfl
    exact congrArg some (Prod.mk.inj hsame).2

/-- **A call is revoked** that a cancel of the stream names: the tickets of others are not. -/
theorem Watch.revoke (h : Watch stream w) {n : SequenceNumber} (hcancels : Cancels stream n)
    (houtstanding : w'.outstanding = w.outstanding) (hticket : w'.nextTicket = w.nextTicket)
    (hrevoked : w'.revoked = (w.outstanding? n).toList ++ w.revoked) : Watch stream w' := by
  have hfound : ∀ {ticket}, ticket ∈ (w.outstanding? n).toList → (n, ticket) ∈ w.outstanding :=
    fun hmem => mem_of_find?_key (Option.mem_toList.mp hmem)
  refine ⟨?_, ?_, ?_, ?_, ?_⟩
  · rw [houtstanding]
    exact h.numbers
  · rw [houtstanding]
    exact h.tickets
  · rw [houtstanding, hticket]
    exact h.below
  · rw [hrevoked, hticket]
    intro ticket hmem
    rcases List.mem_append.mp hmem with hnew | hold
    · exact h.below _ (hfound hnew)
    · exact h.past ticket hold
  · rw [houtstanding, hrevoked]
    intro entry hentry hmem
    rcases List.mem_append.mp hmem with hnew | hold
    · -- tickets are distinct, so this is the call under that number
      have hsame := List.inj_on_of_nodup_map h.tickets hentry (hfound hnew) rfl
      rw [hsame]
      exact hcancels
    · exact h.named entry hentry hold

theorem Watch.revokeAll (h : Watch stream w) {ns : List SequenceNumber}
    (hcancels : ∀ n ∈ ns, Cancels stream n) : Watch stream (w.revokeAll ns) := by
  unfold Worker.revokeAll
  induction ns generalizing w with
  | nil => exact h
  | cons n ns ih =>
    refine ih ?_ fun m hm => hcancels m (List.mem_cons_of_mem n hm)
    rw [revoke_eq]
    exact h.revoke (hcancels n List.mem_cons_self) rfl rfl rfl

/-- **A frame that stands at a boundary is taken in.** -/
theorem Watch.takeIn (h : Watch stream w) {buffer rest : Bytes} (hboundary : Boundary stream buffer)
    (hframe : decode limits.maxMessageSize buffer = .frame frame rest) (service : Service σ)
    (shutdown : Bool) : Watch stream (w.takeIn service limits shutdown frame).worker := by
  cases (took service limits shutdown frame w).2 with
  | turned _ houtstanding hticket hrevoked => exact h.of_eq houtstanding hticket hrevoked
  | cancelled _ hkind houtstanding hticket hrevoked =>
    have hstands : Cancels buffer frame.sequence :=
      ⟨buffer, .here buffer, cancelStands_of_decode hframe hkind⟩
    exact h.revoke (hboundary.cancels hstands) houtstanding hticket hrevoked
  | accepted _ _ hfree houtstanding hticket hrevoked =>
    exact h.accept hfree houtstanding hticket hrevoked
  | rejected _ _ houtstanding hticket hrevoked => exact h.spend houtstanding hticket hrevoked

/-- Behind a frame that is decoded there is a boundary. -/
theorem boundary_decode {max : Nat} {buffer rest : Bytes} (h : Boundary stream buffer)
    (hframe : decode max buffer = .frame frame rest) : Boundary stream rest := by
  obtain ⟨hwhole, hrest, -, -⟩ := decode_stands hframe
  rw [hrest]
  exact h.trans (.next hwhole (.here _))

/-- **The frames of a buffer are taken**, up to a boundary unless one is at fault. -/
theorem Watch.pumpFrom (h : Watch stream w) {buffer : Bytes} (hboundary : Boundary stream buffer)
    (service : Service σ) (shutdown : Bool) :
    Watch stream (w.pumpFrom service limits shutdown buffer).worker
      ∧ ((w.pumpFrom service limits shutdown buffer).fault = none →
        Boundary stream (w.pumpFrom service limits shutdown buffer).buffer) := by
  induction hlength : buffer.length using Nat.strongRecOn generalizing buffer w with
  | ind n ih =>
    rw [Worker.pumpFrom]
    split
    · refine ⟨h.revokeAll fun m hm => ?_, fun _ => hboundary⟩
      exact hboundary.cancels (mem_bufferedCancels.mp hm)
    · split
      · exact ⟨h, fun _ => hboundary⟩
      · exact ⟨h, fun hnone => by cases hnone⟩
      · next frame rest hframe =>
        have htaken := h.takeIn hboundary hframe service shutdown
        generalize w.takeIn service limits shutdown frame = admitted at *
        obtain ⟨w', fault, effects⟩ := admitted
        cases fault with
        | some e => exact ⟨htaken, fun hnone => by cases hnone⟩
        | none =>
          have hshorter : rest.length < n := hlength ▸ Frame.length_of_decodeWith hframe
          exact ih rest.length hshorter htaken (boundary_decode hboundary hframe) rfl

/-! ## §2. What is left of a buffer. -/

/-- Nothing waits that the worker could take: more bytes are needed, or no other call may be
dispatched, no cancel is next, and those further back have been honoured. -/
def Heeds (limits : EndpointConfig) (w : Worker σ) : Prop :=
  decode limits.maxMessageSize w.received = .incomplete
    ∨ (w.isFull limits = true ∧ nextIsCancel w.received = false
      ∧ ∀ entry ∈ w.outstanding, Cancels w.received entry.1 → entry.2 ∈ w.revoked)

/-- When several calls are revoked, each call that is named is revoked, and outstanding as
before. -/
theorem revokeAll_spec (w : Worker σ) (ns : List SequenceNumber) :
    (w.revokeAll ns).outstanding = w.outstanding
      ∧ (∀ ticket ∈ w.revoked, ticket ∈ (w.revokeAll ns).revoked)
      ∧ ∀ n ∈ ns, ∀ ticket, w.outstanding? n = some ticket →
        ticket ∈ (w.revokeAll ns).revoked := by
  unfold revokeAll
  induction ns generalizing w with
  | nil => exact ⟨rfl, fun _ hmem => hmem, fun _ hmem => absurd hmem List.not_mem_nil⟩
  | cons first ns ih =>
    obtain ⟨hsame, hkept, hall⟩ := ih (w.revoke first)
    rw [List.foldl_cons]
    rw [revoke_eq] at hsame hkept hall ⊢
    refine ⟨hsame, fun ticket hmem => hkept ticket (List.mem_append_right _ hmem), ?_⟩
    intro n hmem ticket hfind
    rcases List.mem_cons.mp hmem with rfl | hlater
    · refine hkept ticket (List.mem_append_left _ ?_)
      rw [hfind]
      exact List.mem_singleton_self ticket
    · exact hall n hlater ticket hfind

/-- **What is left of a buffer has been heeded.** -/
theorem heeds_pumpFrom (h : Watch stream w) {buffer : Bytes} (hboundary : Boundary stream buffer)
    (service : Service σ) (shutdown : Bool)
    (hgoes : (w.pumpFrom service limits shutdown buffer).fault = none) :
    Heeds limits { (w.pumpFrom service limits shutdown buffer).worker with
      received := (w.pumpFrom service limits shutdown buffer).buffer } := by
  induction hlength : buffer.length using Nat.strongRecOn generalizing buffer w with
  | ind n ih =>
    rw [Worker.pumpFrom] at hgoes ⊢
    split at hgoes
    · next hwaits =>
      -- a call has to wait: the calls that are cancelled behind it have been revoked
      rw [if_pos hwaits]
      rw [Bool.and_eq_true, Bool.not_eq_true'] at hwaits
      obtain ⟨hsame, -, hall⟩ := revokeAll_spec w (bufferedCancels buffer)
      refine .inr ⟨?_, hwaits.2, fun entry hentry hcancels => ?_⟩
      · show (w.revokeAll (bufferedCancels buffer)).isFull limits = true
        unfold isFull
        rw [hsame]
        exact hwaits.1
      · dsimp only at hentry hcancels ⊢
        rw [hsame] at hentry
        exact hall entry.1 (mem_bufferedCancels.mpr hcancels) entry.2
          (outstanding?_of_mem h.numbers hentry)
    · next hlets =>
      rw [if_neg hlets]
      split at hgoes
      · next hmore => exact .inl hmore
      · cases hgoes
      · next frame rest hframe =>
        have htaken := h.takeIn hboundary hframe service shutdown
        generalize w.takeIn service limits shutdown frame = admitted at *
        obtain ⟨w', fault, effects⟩ := admitted
        cases fault with
        | some e => cases hgoes
        | none =>
          have hshorter : rest.length < n := hlength ▸ Frame.length_of_decodeWith hframe
          exact ih rest.length hshorter htaken (boundary_decode hboundary hframe) hgoes rfl

/-- **Nothing is taken where a size misleads.**  Whether or not another call may be dispatched, the
worker waits for more bytes or stops at the fault; it hands over no call and revokes none. -/
theorem pumpFrom_of_misleads {buffer : Bytes} (h : Misleads buffer) (service : Service σ)
    (limits : EndpointConfig) (shutdown : Bool) (w : Worker σ) :
    (decode limits.maxMessageSize buffer = .incomplete
        ∧ w.pumpFrom service limits shutdown buffer = { worker := w, buffer })
      ∨ ∃ e, decode limits.maxMessageSize buffer = .fault e buffer
        ∧ w.pumpFrom service limits shutdown buffer = { worker := w, buffer, fault := some e } := by
  obtain ⟨hnext, hpart⟩ := misleads_iff.mp h
  rw [Worker.pumpFrom, hnext, Bool.not_true, Bool.and_false, if_neg Bool.false_ne_true]
  split
  · next hmore => exact .inl ⟨hmore, rfl⟩
  · next e rest hfault =>
    -- the buffer is left as it is
    have hkept : rest = buffer := by
      have hdecode := decode_of_misleads h limits.maxMessageSize
      rw [hfault] at hdecode
      split at hdecode
      · cases hdecode
        rfl
      · split at hdecode
        · cases hdecode
          rfl
        · cases hdecode
    rw [hkept] at hfault ⊢
    exact .inr ⟨e, hfault, rfl⟩
  · next hframe => exact absurd (decode_stands hframe).1 hpart

/-! ## §3. Runs. -/

/-- What stands at a moment before frames are taken, as far as a worker that reads is concerned:
some calls may have ended. -/
theorem Moment.opening_calls {m : Moment σ} (hopen : (m.opening limits).1.reading = true) :
    (m.opening limits).1.outstanding.Sublist m.before.worker.outstanding
      ∧ (m.opening limits).1.revoked = m.before.worker.revoked
      ∧ (m.opening limits).1.abandoned = m.before.worker.abandoned := by
  refine ⟨?_, ?_⟩
  · rw [(m.opened limits).outstanding]
    exact List.filter_sublist
  · obtain ⟨⟨w, shutdown, held⟩, occurrence⟩ := m
    cases occurrence with
    | signalled => exact ⟨rfl, rfl⟩
    | resolved call outcome => exact ⟨rfl, rfl⟩
    | worked event =>
      cases event with
      | received _ | wrote _ => exact ⟨rfl, rfl⟩
      | shutdown | lost | writeFailed => cases hopen
      | drained =>
        cases hcompletions : w.completions with
        | nil =>
          unfold Moment.opening
          dsimp only
          rw [hcompletions]
          exact ⟨rfl, rfl⟩
        | cons done later =>
          rw [Moment.opening_drained hcompletions]
          cases hfind : ({ w with completions := later } : Worker σ).outstanding?
              done.call.sequence with
          | none =>
            rw [complete_eq_self hfind]
            exact ⟨rfl, rfl⟩
          | some ticket =>
            rw [complete_eq hfind]
            exact ⟨rfl, rfl⟩

/-- Where no frames are taken, no bytes have arrived and no call has ended. -/
theorem Moment.opening_of_not_pumps {m : Moment σ} (hpumps : m.pumps = false)
    (hopen : (m.opening limits).1.reading = true) :
    (m.opening limits).1.outstanding = m.before.worker.outstanding
      ∧ (m.opening limits).1.received = m.before.worker.received ∧ m.arrived = [] := by
  have hreading := (m.opened limits).reading hopen
  have hnone : m.takenUp? = none ∧ m.arrived = [] := by
    obtain ⟨⟨w, shutdown, held⟩, occurrence⟩ := m
    cases occurrence with
    | signalled => exact ⟨rfl, rfl⟩
    | resolved call outcome => exact ⟨rfl, rfl⟩
    | worked event =>
      cases event with
      | received chunk => cases hpumps
      | shutdown | lost | wrote _ | writeFailed => exact ⟨rfl, rfl⟩
      | drained =>
        -- a worker that reads takes frames, unless there is no resolution
        cases hcompletions : w.completions with
        | nil =>
          refine ⟨?_, rfl⟩
          unfold Moment.takenUp?
          dsimp only
          rw [hcompletions]
          rfl
        | cons done later =>
          have hstopped : w.reading = false := by simpa [Moment.pumps, hcompletions] using hpumps
          rw [hstopped] at hreading
          cases hreading
  refine ⟨?_, ?_, hnone.2⟩
  · rw [(m.opened limits).outstanding, hnone.1, filter_takenUp_none]
  · rw [(m.opened limits).received, hnone.2, List.append_nil]

/-- A worker that reads has given up nothing, has revoked the calls that are named by a cancel and
no others, and has heeded whatever has arrived. -/
structure Attentive (limits : EndpointConfig) (stream : Bytes) (w : Worker σ) : Prop where
  watch : Watch stream w
  boundary : Boundary stream w.received
  heeds : Heeds limits w
  wanted : w.abandoned = false

/-- **One moment keeps a worker attentive**, as long as it reads. -/
theorem Attentive.next {m : Moment σ} (h : Attentive limits stream m.before.worker)
    (hreading : (m.worker service limits).reading = true) :
    Attentive limits (stream ++ m.arrived) (m.worker service limits) := by
  obtain ⟨effects, -, hpumping⟩ := m.pumping service limits
  have hopen := hpumping.reading hreading
  have hopened := m.opened limits
  obtain ⟨houtstanding, hrevoked, habandoned⟩ := Moment.opening_calls hopen
  have hwatch := h.watch.of_sublist m.arrived houtstanding hopened.nextTicket hrevoked
  have hboundary : Boundary (stream ++ m.arrived) (m.opening limits).1.received := by
    rw [hopened.received]
    exact h.boundary.append m.arrived
  cases hpumps : m.pumps with
  | true =>
    -- frames are taken, and there is no fault
    rw [Moment.worker_of_pumps hpumps] at hreading ⊢
    rw [reading_pump service limits _ hopen, Option.isNone_iff_eq_none] at hreading
    obtain ⟨hwatch', hboundary'⟩ := hwatch.pumpFrom hboundary service m.before.shutdown
    have hheeds := heeds_pumpFrom hwatch hboundary service m.before.shutdown hreading
    have hsteady := steady_pumpFrom service limits m.before.shutdown
      (m.opening limits).1.received (m.opening limits).1
    rw [pump_of_fault?_eq_none hreading]
    refine ⟨hwatch'.of_eq rfl rfl rfl, hboundary' hreading, hheeds, ?_⟩
    exact (hsteady.abandoned.trans habandoned).trans h.wanted
  | false =>
    have hgoes : m.occurrence ≠ .worked .shutdown :=
      ((Moment.reading_opening (hopened.reading hopen)).mp hopen).1
    obtain ⟨hsame, hreceived, hnothing⟩ := Moment.opening_of_not_pumps hpumps hopen
    rw [Moment.worker_of_not_pumps hpumps hgoes]
    refine ⟨hwatch, hboundary, ?_, habandoned.trans h.wanted⟩
    -- neither the receive buffer nor the calls have changed
    unfold Heeds isFull
    rw [hsame, hreceived, hrevoked]
    exact h.heeds

variable {history : List (Moment σ)} {s : Scene σ}

/-- **A worker that reads is attentive.** -/
theorem Run.attentive (run : Run service limits history s) (hreading : s.worker.reading = true) :
    Attentive limits (receivedOf history) s.worker := by
  induction run with
  | start peer =>
    have hmore : decode limits.maxMessageSize [] = .incomplete :=
      Frame.decodeWith_short (by decide)
    exact ⟨watch_new service peer, .here _, .inl hmore, rfl⟩
  | @next history s run occurrence hadmits ih =>
    obtain ⟨effects, -, hpumping⟩ := (⟨s, occurrence⟩ : Moment σ).pumping service limits
    have hopen := hpumping.reading hreading
    rw [receivedOf_concat]
    exact Attentive.next (m := ⟨s, occurrence⟩)
      (ih (((⟨s, occurrence⟩ : Moment σ).opened limits).reading hopen)) hreading

/-! ## §4. On the way through a buffer. -/

/-- On its way through a buffer a worker comes to this worker, with these effects so far, and takes
in this frame next. -/
inductive Meets (service : Service σ) (limits : EndpointConfig) (shutdown : Bool) :
    Bytes → Worker σ → List WorkerEffect → RequestFrame → Worker σ → Prop where
  /-- The frame starts the buffer. -/
  | here {buffer rest : Bytes} {w : Worker σ} {frame : RequestFrame} :
    (w.isFull limits && !nextIsCancel buffer) = false →
    decode limits.maxMessageSize buffer = .frame frame rest →
    Meets service limits shutdown buffer w [] frame w
  /-- Another frame starts the buffer and is taken in, and the worker goes on. -/
  | later {buffer rest : Bytes} {w : Worker σ} {first frame : RequestFrame}
    {effects : List WorkerEffect} {w' : Worker σ} :
    (w.isFull limits && !nextIsCancel buffer) = false →
    decode limits.maxMessageSize buffer = .frame first rest →
    (w.takeIn service limits shutdown first).fault = none →
    Meets service limits shutdown rest (w.takeIn service limits shutdown first).worker effects
      frame w' →
    Meets service limits shutdown buffer w
      ((w.takeIn service limits shutdown first).effects ++ effects) frame w'

/-- **What is met on the way is on the way**: frames are taken off the buffer as from the worker
that is met. -/
theorem Meets.pumpFrom {buffer : Bytes} {effects : List WorkerEffect}
    (h : Meets service limits shutdown buffer w effects frame w') :
    ∃ ahead rest, (w'.isFull limits && !nextIsCancel ahead) = false
      ∧ decode limits.maxMessageSize ahead = .frame frame rest
      ∧ w.pumpFrom service limits shutdown buffer
        = { w'.pumpFrom service limits shutdown ahead with
            effects := effects ++ (w'.pumpFrom service limits shutdown ahead).effects } := by
  induction h with
  | @here buffer rest w frame hlets hframe => exact ⟨buffer, rest, hlets, hframe, rfl⟩
  | @later buffer rest w first frame effects w' hlets hframe hgoes _ ih =>
    obtain ⟨ahead, rest', hroom, hahead, hsame⟩ := ih
    refine ⟨ahead, rest', hroom, hahead, ?_⟩
    rw [Worker.pumpFrom]
    rw [if_neg (by rw [hlets]; exact Bool.false_ne_true)]
    split
    · next hmore =>
      rw [hframe] at hmore
      cases hmore
    · next hfault =>
      rw [hframe] at hfault
      cases hfault
    · next hframe' =>
      rw [hframe] at hframe'
      cases hframe'
      dsimp only
      rw [hgoes, hsame]
      dsimp only
      rw [List.append_assoc]

/-- The worker that is met on the way reads as before. -/
theorem Meets.steady {buffer : Bytes} {effects : List WorkerEffect}
    (h : Meets service limits shutdown buffer w effects frame w') : Steady w w' := by
  induction h with
  | here => exact .refl _
  | later _ _ _ _ ih => exact (took service limits shutdown _ _).1.trans ih

/-- **The worker that is met on the way** keeps watch, has handed over the calls of the frames
before, and stands at a boundary. -/
theorem Meets.spec {buffer : Bytes} {effects : List WorkerEffect}
    (h : Meets service limits shutdown buffer w effects frame w') (hwatch : Watch stream w)
    (hboundary : Boundary stream buffer) :
    Watch stream w' ∧ Intake service limits effects w w'
      ∧ (∃ ahead rest, Boundary stream ahead
          ∧ decode limits.maxMessageSize ahead = .frame frame rest)
      ∧ ∃ taken, taken <+: (RequestFrame.drain limits.maxMessageSize buffer).1
        ∧ (dispatchesIn effects).map (·.asks) = (callsIn taken).map (·.asks) := by
  induction h with
  | @here buffer rest w frame hlets hframe =>
    exact ⟨hwatch, .refl service limits w, ⟨buffer, rest, hboundary, hframe⟩, [], List.nil_prefix,
      rfl⟩
  | @later buffer rest w first frame effects w' hlets hframe hgoes _ ih =>
    obtain ⟨hintake, hasks, -, -⟩ := Intake.takeIn service limits shutdown first w
    obtain ⟨hwatch', hintake', hahead, taken, hinitial, hcalls⟩ :=
      ih (hwatch.takeIn hboundary hframe service shutdown) (boundary_decode hboundary hframe)
    refine ⟨hwatch', hintake.trans hintake', hahead, first :: taken, ?_, ?_⟩
    · rw [RequestFrame.drain, Frame.drainWith_frame hframe]
      exact List.cons_prefix_cons.mpr ⟨rfl, hinitial⟩
    · rw [dispatchesIn_append, List.map_append, (hasks hgoes).1, hcalls, ← List.map_append,
        ← callsIn_append]
      rfl

/-! ## §5. A cancel that was honoured before. -/

/-- What is accepted was handed over. -/
theorem dispatch_of_accepted {effects : List WorkerEffect} {entry : SequenceNumber × Ticket}
    (h : entry ∈ acceptedIn effects) : ∃ d ∈ dispatchesIn effects, entryOf d.call = entry := by
  obtain ⟨d, hd, hadmitted⟩ := List.mem_filterMap.mp h
  refine ⟨d, hd, ?_⟩
  unfold Dispatch.admitted? at hadmitted
  split at hadmitted
  · exact Option.some.inj hadmitted
  · cases hadmitted

/-- **Whatever is outstanding was accepted.** -/
theorem Run.outstanding_subset (run : Run service limits history s) :
    s.worker.outstanding ⊆ acceptedIn (effectsOf service limits history) := by
  induction run with
  | start peer => exact List.nil_subset _
  | @next history s run occurrence hadmits ih =>
    have hafter := (⟨s, occurrence⟩ : Moment σ).outstanding service limits
    show ((⟨s, occurrence⟩ : Moment σ).worker service limits).outstanding ⊆ _
    rw [hafter, effectsOf_concat, acceptedIn_append]
    refine List.append_subset.mpr ⟨?_, List.subset_append_right _ _⟩
    exact List.subset_append_of_subset_left _ (List.Subset.trans (List.filter_subset_self _) ih)

/-- **Whatever is outstanding on the way through a buffer was handed over.** -/
theorem Run.handed (run : Run service limits history s) {occurrence : Occurrence}
    {effects : List WorkerEffect}
    (hintake : Intake service limits effects
      ((⟨s, occurrence⟩ : Moment σ).opening limits).1 w') :
    ∀ entry ∈ w'.outstanding,
      ∃ d ∈ dispatchesIn (effectsOf service limits history ++ effects), entryOf d.call = entry := by
  intro entry hentry
  apply dispatch_of_accepted
  rw [acceptedIn_append]
  rw [hintake.outstanding, ((⟨s, occurrence⟩ : Moment σ).opened limits).outstanding] at hentry
  rcases List.mem_append.mp hentry with hold | hnew
  · exact List.mem_append_left _ (run.outstanding_subset (List.mem_filter.mp hold).1)
  · exact List.mem_append_right _ hnew

/-- **No number is handed over twice**, on the way through a buffer either, if no two calls of the
stream have the same number. -/
theorem Run.handed_once (run : Run service limits history s)
    (hreading : s.worker.reading = true) {arrived : Bytes} {effects : List WorkerEffect}
    {taken : List RequestFrame}
    (hinitial : taken <+:
      (RequestFrame.drain limits.maxMessageSize (s.worker.received ++ arrived)).1)
    (hcalls : (dispatchesIn effects).map (·.asks) = (callsIn taken).map (·.asks))
    (hdistinct : ((callsIn (RequestFrame.drain limits.maxMessageSize
      (receivedOf history ++ arrived)).1).map (·.sequence)).Nodup) :
    ((dispatchesIn (effectsOf service limits history ++ effects)).map
      (·.call.sequence)).Nodup := by
  obtain ⟨before, -, hbefore, hahead⟩ := run.inOrder
  have hsplit := hahead hreading arrived
  -- what was handed over are the first calls of the stream
  have hfirst : (before ++ taken) <+:
      (RequestFrame.drain limits.maxMessageSize (receivedOf history ++ arrived)).1 := by
    rw [RequestFrame.drain, hsplit]
    exact (List.prefix_append_right_inj before).mpr hinitial
  have hasks : (dispatchesIn (effectsOf service limits history ++ effects)).map (·.asks)
      = (callsIn (before ++ taken)).map (·.asks) := by
    rw [dispatchesIn_append, List.map_append, hbefore, hcalls, ← List.map_append,
      ← callsIn_append]
  have hnumbers := congrArg (List.map Prod.fst) hasks
  rw [List.map_map, List.map_map] at hnumbers
  have hsub := hdistinct.sublist ((hfirst.sublist.filter _).map (·.sequence))
  exact hnumbers ▸ hsub

/-- Of a worker nothing has changed but which answers are wanted. -/
structure Untouched (w w' : Worker σ) : Prop where
  session : w'.session = w.session
  outstanding : w'.outstanding = w.outstanding
  completions : w'.completions = w.completions
  unsent : w'.unsent = w.unsent

/-- A service that is handed nothing stays in its session. -/
theorem Handled.session_eq {session session' : σ} {ticket ticket' : Ticket}
    (h : Handled service session ticket [] session' ticket') : session' = session := by
  cases h
  rfl

/-- **A cancel that is taken in** changes nothing else. -/
theorem untouched_takeIn (hkind : frame.kind = .cancel)
    (hgoes : (w.takeIn service limits shutdown frame).fault = none) :
    Untouched w (w.takeIn service limits shutdown frame).worker := by
  obtain ⟨hintake, hasks, -, -⟩ := Intake.takeIn service limits shutdown frame w
  obtain ⟨hcalls, hqueued⟩ := hasks hgoes
  have hnone : callsIn [frame] = [] := List.filter_cons_of_neg (by simp [hkind])
  rw [hnone, List.map_nil, List.map_eq_nil_iff] at hcalls
  have hhandled := hintake.handled
  have houtstanding := hintake.outstanding
  have hcompletions := hintake.completions
  have hunsent := hintake.unsent
  unfold acceptedIn at houtstanding
  unfold rejectionsIn at hqueued
  rw [hcalls] at hhandled houtstanding hcompletions hqueued
  rw [hqueued] at hunsent
  rw [List.filterMap_nil, List.append_nil] at houtstanding hcompletions
  rw [List.filterMap_nil, List.flatMap_nil, List.append_nil] at hunsent
  exact ⟨hhandled.session_eq, houtstanding, hcompletions, hunsent⟩

/-- The answers that are wanted when a cancel has been taken in. -/
theorem isAbandoned_takeIn (hkind : frame.kind = .cancel)
    (hgoes : (w.takeIn service limits shutdown frame).fault = none) (ticket : Ticket) :
    (w.takeIn service limits shutdown frame).worker.isAbandoned shutdown ticket
      = (w.isAbandoned shutdown ticket || w.outstanding? frame.sequence == some ticket) := by
  obtain ⟨hsteady, htook⟩ := took service limits shutdown frame w
  have hrevoked : (w.takeIn service limits shutdown frame).worker.revoked
      = (w.outstanding? frame.sequence).toList ++ w.revoked := by
    cases htook with
    | turned hfault =>
      rw [hgoes] at hfault
      cases hfault
    | cancelled _ _ _ _ hrevoked => exact hrevoked
    | accepted _ hcall | rejected _ hcall =>
      rw [hkind] at hcall
      cases hcall
  unfold isAbandoned
  rw [hrevoked, hsteady.abandoned]
  cases w.outstanding? frame.sequence with
  | none => exact (Bool.or_false _).symm
  | some other =>
    rw [Option.toList_some, List.singleton_append, List.contains_cons, Option.some_beq_some,
      BEq.comm, Bool.or_comm (other == ticket), ← Bool.or_assoc]

/-- **A cancel changes nothing for a call that it does not name.** -/
theorem Watch.spared (h : Watch stream w) (hkind : frame.kind = .cancel)
    (hgoes : (w.takeIn service limits shutdown frame).fault = none)
    {entry : SequenceNumber × Ticket} (hentry : entry ∈ w.outstanding)
    (hother : entry.1 ≠ frame.sequence) :
    (w.takeIn service limits shutdown frame).worker.isAbandoned shutdown entry.2
      = w.isAbandoned shutdown entry.2 := by
  rw [isAbandoned_takeIn hkind hgoes]
  have hnot : w.outstanding? frame.sequence ≠ some entry.2 := by
    intro hfind
    have hsame := List.inj_on_of_nodup_map h.tickets hentry (mem_of_find?_key hfind) rfl
    exact hother (congrArg Prod.fst hsame)
  rw [beq_eq_false_iff_ne.mpr hnot, Bool.or_false]

/-- **A cancel that was honoured before changes nothing at all**, where no number is handed over
twice. -/
theorem honoured_takeIn {dispatched : List Dispatch}
    (hhanded : ∀ entry ∈ w.outstanding, ∃ d ∈ dispatched, entryOf d.call = entry)
    (honce : (dispatched.map (·.call.sequence)).Nodup) (hkind : frame.kind = .cancel)
    (hgoes : (w.takeIn service limits shutdown frame).fault = none) {d : Dispatch}
    (hd : d ∈ dispatched) (hnumber : d.call.sequence = frame.sequence)
    (hrevoked : d.call.ticket ∈ w.revoked) (ticket : Ticket) :
    (w.takeIn service limits shutdown frame).worker.isAbandoned shutdown ticket
      = w.isAbandoned shutdown ticket := by
  rw [isAbandoned_takeIn hkind hgoes]
  cases hfind : w.outstanding? frame.sequence with
  | none => exact Bool.or_false _
  | some other =>
    -- the call that is outstanding under that number is the one that was honoured
    obtain ⟨d', hd', hentry⟩ := hhanded _ (mem_of_find?_key hfind)
    have hsame : d'.call.sequence = d.call.sequence :=
      (congrArg Prod.fst hentry).trans hnumber.symm
    obtain rfl := List.inj_on_of_nodup_map honce hd' hd hsame
    have hother : other = d'.call.ticket := (congrArg Prod.snd hentry).symm
    rw [hother]
    by_cases hticket : d'.call.ticket = ticket
    · -- its answer was not wanted before
      have habandoned : w.isAbandoned shutdown ticket = true := by
        unfold isAbandoned
        rw [← hticket, List.contains_iff_mem.mpr hrevoked, Bool.or_true]
      rw [habandoned, Bool.true_or]
    · rw [Option.some_beq_some, beq_eq_false_iff_ne.mpr hticket, Bool.or_false]

/-! ## §6. The statement about runs. -/

/-- A worker that takes frames has been reading. -/
theorem Moment.reading_of_pumps {m : Moment σ} (hadmits : m.before.Admits limits m.occurrence)
    (hpumps : m.pumps = true) : m.before.worker.reading = true := by
  obtain ⟨⟨w, shutdown, held⟩, occurrence⟩ := m
  cases occurrence with
  | signalled => cases hpumps
  | resolved call outcome => cases hpumps
  | worked event =>
    cases event with
    | received chunk =>
      have hread := (Bool.and_eq_true_iff.mp hadmits.2).1
      exact (Bool.and_eq_true_iff.mp hread).1
    | drained => exact (Bool.and_eq_true_iff.mp hpumps).2
    | shutdown | lost | wrote _ | writeFailed => cases hpumps

/-- Nothing that a worker could take waits between two steps: more bytes are needed, or as many
calls are outstanding as may be.  Then no cancel starts the receive buffer, what is decoded next is
a call, and a call that is named by a cancel that decoding the buffer would yield is not wanted any
more. -/
def HeedsAll (limits : EndpointConfig) (s : Scene σ) : Prop :=
  decode limits.maxMessageSize s.worker.received = .incomplete
    ∨ (limits.maxOutstandingCalls ≤ s.worker.outstanding.length
      ∧ (∀ n, ¬ CancelStands s.worker.received n)
      ∧ (∀ frame rest, decode limits.maxMessageSize s.worker.received = .frame frame rest →
          frame.kind = .call)
      ∧ ∀ frame ∈ (RequestFrame.drain limits.maxMessageSize s.worker.received).1,
          frame.kind = .cancel → ∀ ticket, (frame.sequence, ticket) ∈ s.worker.outstanding →
          s.worker.isAbandoned s.shutdown ticket = true)

/-- **Whatever has arrived is heeded.** -/
theorem Attentive.heedsAll {received : Bytes} (h : Attentive limits received s.worker) :
    HeedsAll limits s := by
  refine h.heeds.imp id fun ⟨hfull, hnext, hnamed⟩ => ?_
  have hnone : ∀ n, ¬ CancelStands s.worker.received n := by
    intro n hstands
    rw [nextIsCancel_of_stands hstands] at hnext
    cases hnext
  refine ⟨of_decide_eq_true hfull, hnone, ?_, ?_⟩
  · intro frame rest hframe
    cases hkind : frame.kind with
    | call => rfl
    | cancel => exact absurd (cancelStands_of_decode hframe hkind) (hnone _)
  · intro frame hmem hkind ticket hentry
    have hrevoked := hnamed _ hentry (cancels_of_mem_drain hmem hkind)
    unfold isAbandoned
    rw [List.contains_iff_mem.mpr hrevoked, Bool.or_true]

/-- **A call that is not wanted any more** is named by a cancel, as long as nothing else is the
reason. -/
theorem Watch.cancels (h : Watch stream w) (hwanted : w.abandoned = false)
    {entry : SequenceNumber × Ticket} (hentry : entry ∈ w.outstanding)
    (habandoned : w.isAbandoned false entry.2 = true) : Cancels stream entry.1 := by
  unfold isAbandoned at habandoned
  rw [hwanted, Bool.false_or, Bool.false_or] at habandoned
  exact h.named entry hentry (List.contains_iff_mem.mp habandoned)

/-- **Cancels are heeded, precisely, and nothing stalls.**  The service, the limits and the peer are
any, and so are the chunks in which bytes arrive and the order in which things happen.

Between two steps of a worker that reads, nothing waits that it could take (`HeedsAll`).

As long as it reads and is not told to shut down, a call that is outstanding and not wanted any
more is named by a cancel that stands at a boundary of the stream; that holds also on the way
through a buffer, whenever a frame has been taken in.

A cancel that is decoded changes neither the session nor the calls that are outstanding, resolved or
answered; it changes nothing for a call that it does not name.  If no two calls of the stream have
the same number, and the answer to the call that it names is revoked already, it changes nothing for
any call. -/
theorem cancels_are_heeded_and_nothing_stalls (run : Run service limits history s) :
    (s.worker.reading = true → HeedsAll limits s)
      ∧ (s.worker.reading = true → s.shutdown = false → ∀ entry ∈ s.worker.outstanding,
          s.worker.isAbandoned s.shutdown entry.2 = true → Cancels (receivedOf history) entry.1)
      ∧ ∀ past m later, history = past ++ m :: later → m.pumps = true →
          ∀ effects frame w, Meets service limits m.before.shutdown
            (m.opening limits).1.received (m.opening limits).1 effects frame w →
          let w' := (w.takeIn service limits m.before.shutdown frame).worker
          (m.before.shutdown = false → ∀ entry ∈ w'.outstanding,
            w'.isAbandoned m.before.shutdown entry.2 = true →
            Cancels (receivedOf (past ++ [m])) entry.1)
          ∧ (frame.kind = .cancel →
            (w.takeIn service limits m.before.shutdown frame).fault = none →
            Untouched w w'
            ∧ (∀ entry ∈ w.outstanding, entry.1 ≠ frame.sequence →
                w'.isAbandoned m.before.shutdown entry.2
                  = w.isAbandoned m.before.shutdown entry.2)
            ∧ (((callsIn (RequestFrame.drain limits.maxMessageSize
                  (receivedOf history)).1).map (·.sequence)).Nodup →
                ∀ d ∈ dispatchesIn (effectsOf service limits past ++ effects),
                  d.call.sequence = frame.sequence → d.call.ticket ∈ w.revoked →
                ∀ ticket, w'.isAbandoned m.before.shutdown ticket
                  = w.isAbandoned m.before.shutdown ticket)) := by
  refine ⟨fun hreading => (run.attentive hreading).heedsAll, ?_, ?_⟩
  · intro hreading hcalm entry hentry
    have hattentive := run.attentive hreading
    rw [hcalm]
    exact hattentive.watch.cancels hattentive.wanted hentry
  · intro past m later hsplit hpumps effects frame w hmeets
    obtain ⟨hrun, hadmits⟩ := run.at_split hsplit
    have hreading := Moment.reading_of_pumps hadmits hpumps
    have hattentive := hrun.attentive hreading
    have hopen : (m.opening limits).1.reading = true :=
      (Moment.reading_opening hreading).mpr (Moment.stays_of_pumps hpumps)
    have hopened := m.opened limits
    obtain ⟨houtstanding, hrevoked, habandoned⟩ := Moment.opening_calls hopen
    have hwatch := hattentive.watch.of_sublist m.arrived houtstanding hopened.nextTicket hrevoked
    have hboundary : Boundary (receivedOf past ++ m.arrived) (m.opening limits).1.received := by
      rw [hopened.received]
      exact hattentive.boundary.append m.arrived
    obtain ⟨hwatch', hintake, ⟨ahead, rest, hahead, hframe⟩, taken, hinitial, hcalls⟩ :=
      hmeets.spec hwatch hboundary
    dsimp only
    refine ⟨?_, fun hkind hgoes => ⟨untouched_takeIn hkind hgoes, ?_, ?_⟩⟩
    · -- the connection was not given up on the way
      have hwanted : (w.takeIn service limits m.before.shutdown frame).worker.abandoned = false := by
        rw [(took service limits m.before.shutdown frame w).1.abandoned, hmeets.steady.abandoned,
          habandoned]
        exact hattentive.wanted
      intro hcalm entry hentry
      rw [receivedOf_concat, hcalm]
      rw [hcalm] at hwanted hentry
      exact (hwatch'.takeIn hahead hframe service false).cancels hwanted hentry
    · intro entry hentry hother
      exact hwatch'.spared hkind hgoes hentry hother
    · intro hdistinct d hd hnumber hhonoured
      rw [hopened.received] at hinitial
      rw [hsplit, receivedOf_split, receivedOf_concat] at hdistinct
      have hfirst : (RequestFrame.drain limits.maxMessageSize
            (receivedOf past ++ m.arrived)).1.Sublist
          (RequestFrame.drain limits.maxMessageSize
            (receivedOf past ++ m.arrived ++ receivedOf later)).1 :=
        (Frame.drainWith_isPrefix _ _).sublist
      have hdistinct' := hdistinct.sublist ((hfirst.filter _).map (·.sequence))
      exact honoured_takeIn (hrun.handed hintake)
        (hrun.handed_once hreading hinitial hcalls hdistinct') hkind hgoes hd hnumber hhonoured

/-- Two frames are ahead of a worker with room: it takes in the first, and meets the second. -/
theorem meets_second {buffer : Bytes} {first second : RequestFrame}
    (hahead : buffer = first.bytes ++ (second.bytes ++ []))
    (hfirst : first.Sized) (hsecond : second.Sized)
    (hfits : first.bodyLength ≤ limits.maxMessageSize)
    (hfits' : second.bodyLength ≤ limits.maxMessageSize) (hroom : w.isFull limits = false)
    (hgoes : (w.takeIn service limits shutdown first).fault = none)
    (hlets : ((w.takeIn service limits shutdown first).worker.isFull limits
      && !nextIsCancel (second.bytes ++ [])) = false) :
    Meets service limits shutdown buffer w
      ((w.takeIn service limits shutdown first).effects ++ []) second
      (w.takeIn service limits shutdown first).worker := by
  rw [hahead]
  refine .later ?_ (decode_bytes_of_le hfirst hfits _) hgoes
    (.here hlets (decode_bytes_of_le hsecond hfits' []))
  rw [hroom, Bool.false_and]

/-- A call and a cancel are ahead of a worker with room for the call: it takes the call, and meets the
cancel. -/
theorem meets_cancel {m : Moment Unit}
    (hahead : (m.opening narrow).1.received
      = (RequestFrame.call defaultVersion 1 [8]).bytes
        ++ ((RequestFrame.cancel defaultVersion 0).bytes ++ []))
    (hroom : (m.opening narrow).1.isFull narrow = false)
    (hgoes : ((m.opening narrow).1.takeIn keeper narrow m.before.shutdown
      (.call defaultVersion 1 [8])).fault = none) :
    Meets keeper narrow m.before.shutdown (m.opening narrow).1.received (m.opening narrow).1
      (((m.opening narrow).1.takeIn keeper narrow m.before.shutdown
        (.call defaultVersion 1 [8])).effects ++ []) (.cancel defaultVersion 0)
      ((m.opening narrow).1.takeIn keeper narrow m.before.shutdown
        (.call defaultVersion 1 [8])).worker := by
  have hnext : nextIsCancel ((RequestFrame.cancel defaultVersion 0).bytes ++ []) = true := by
    decide +kernel
  apply meets_second hahead ⟨rfl, by decide⟩ ⟨rfl, by decide⟩ (by decide) (by decide) hroom hgoes
  rw [hnext, Bool.not_true, Bool.and_false]

/-- A dispatch is found by looking through the effects. -/
theorem dispatched_elim {effects : List WorkerEffect} {sequence : SequenceNumber}
    {revoked : List Ticket} {P : Prop}
    (h : ∀ d ∈ dispatchesIn effects, d.call.sequence = sequence → d.call.ticket ∈ revoked → P)
    (hany : (dispatchesIn effects).any (fun d =>
      d.call.sequence == sequence && revoked.contains d.call.ticket) = true) : P := by
  obtain ⟨d, hd, hmatch⟩ := List.any_eq_true.mp hany
  rw [Bool.and_eq_true, beq_iff_eq, List.contains_iff_mem] at hmatch
  exact h d hd hmatch.1 hmatch.2

/-- Two calls and a cancel of the first arrive where one call may be outstanding.  The second call
waits, and the cancel behind it is honoured at once; when the first call is resolved the second is
handed over, and the cancel is decoded and does nothing to it. -/
theorem cancels_are_heeded_and_nothing_stalls_when_a_call_waits :
    ∃ (before after : List (Moment Unit)) (s s' : Scene Unit),
      Run keeper narrow before s ∧ s.worker.outstanding = [(0, 0)]
      ∧ s.worker.isAbandoned false 0 = true ∧ HeedsAll narrow s
      ∧ Cancels (receivedOf before) 0
      ∧ Run keeper narrow (before ++ after) s' ∧ HeedsAll narrow s'
      ∧ ∃ m ∈ after, ∃ effects w,
        Meets keeper narrow m.before.shutdown (m.opening narrow).1.received (m.opening narrow).1
          effects (.cancel defaultVersion 0) w
        ∧ w.outstanding = [(1, 1)]
        ∧ ∀ ticket, (w.takeIn keeper narrow m.before.shutdown
            (.cancel defaultVersion 0)).worker.isAbandoned m.before.shutdown ticket
          = w.isAbandoned m.before.shutdown ticket := by
  have start : Run keeper narrow [] _ := .start (.unix ⟨"/agent"⟩)
  have arrived := start.next (.worked (.received cancelledCall)) (by decide +kernel)
  have resolved := arrived.next (.resolved ⟨0, 0, 1⟩ (.ok [9])) (by decide +kernel)
  have drained := resolved.next (.worked .drained) (by decide +kernel)
  obtain ⟨hheeds, hnamed, -⟩ := cancels_are_heeded_and_nothing_stalls arrived
  obtain ⟨hheeds', -, hmet⟩ := cancels_are_heeded_and_nothing_stalls drained
  have hmeets := hmet _ _ [] rfl (by decide +kernel) _ _ _
    (meets_cancel (by decide +kernel) (by decide +kernel) (by decide +kernel))
  obtain ⟨-, -, hagain⟩ := hmeets.2 rfl (by decide +kernel)
  refine ⟨_, [_, _], _, _, arrived, by decide +kernel, by decide +kernel,
    hheeds (by decide +kernel), ?_, drained, hheeds' (by decide +kernel), _,
    List.mem_cons_of_mem _ List.mem_cons_self, _, _,
    meets_cancel (by decide +kernel) (by decide +kernel) (by decide +kernel),
    by decide +kernel, ?_⟩
  · exact hnamed (by decide +kernel) (by decide +kernel) (0, 0) (by decide +kernel)
      (by decide +kernel)
  · exact dispatched_elim (hagain (by decide +kernel)) (by decide +kernel)

end RemoteCall.Worker
