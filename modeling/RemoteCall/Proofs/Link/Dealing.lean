/-
  RemoteCall.Proofs.Link.Dealing
  ──────────────────────────────
  **WHAT A CONNECTION SAYS ON ITS LINK.**

  As long as the sequence numbers suffice, the call frames that a connection
  hands to the writer of its link have distinct numbers, and whatever is in
  flight under a number was sent under it (`Connection.Dealt`).  All frames
  speak the version of the connection.

  Main statements:
    • `Live.Dealt.flush`                      — all waiting calls are sent,
    • `Dealt.flush`, `Dealt.expire`, …        — one transition of a connection.
-/
import RemoteCall.Proofs.Frame.RoundTrip
import RemoteCall.Proofs.Pool.Sending
import RemoteCall.Proofs.Server.Books

namespace RemoteCall

/-! ## §1. Frames that are handed over. -/

/-- The frame that an effect hands to a writer. -/
def Effect.handed? : Effect → Option RequestFrame
  | .send _ _ frame _ => some frame
  | _ => none

/-- The frame that a writer takes. -/
def Effect.taken? : Effect → Option RequestFrame
  | .send _ _ frame true => some frame
  | _ => none

/-- The frames that are handed to the writers, in order. -/
def handedIn (effects : List Effect) : List RequestFrame := effects.filterMap (·.handed?)

/-- The frames that the writers take, in order. -/
def takenIn (effects : List Effect) : List RequestFrame := effects.filterMap (·.taken?)

@[simp] theorem handedIn_append (xs ys : List Effect) :
    handedIn (xs ++ ys) = handedIn xs ++ handedIn ys :=
  List.filterMap_append

@[simp] theorem takenIn_append (xs ys : List Effect) :
    takenIn (xs ++ ys) = takenIn xs ++ takenIn ys :=
  List.filterMap_append

/-- What is taken was handed over. -/
theorem takenIn_sublist (effects : List Effect) :
    (takenIn effects).Sublist (handedIn effects) := by
  induction effects with
  | nil => exact .slnil
  | cons effect effects ih =>
    unfold takenIn handedIn at *
    cases effect with
    | send link call frame taken =>
      cases taken with
      | true => exact ih.cons_cons frame
      | false => exact ih.cons frame
    | _ => exact ih

/-- Fewer than 2^64 sequence numbers are used. -/
def Suffices (effects : List Effect) : Prop :=
  (callsIn (handedIn effects)).length < 2 ^ 64

instance (effects : List Effect) : Decidable (Suffices effects) :=
  inferInstanceAs (Decidable (_ < _))

theorem Suffices.of_append {effects more : List Effect} (h : Suffices (effects ++ more)) :
    Suffices effects := by
  unfold Suffices at *
  rw [handedIn_append, callsIn_append, List.length_append] at h
  omega

/-- Whatever was handed over speaks one version, has a true size, and asks for calls under distinct
numbers. -/
structure Said (interface : UInt32) (effects : List Effect) : Prop where
  version : ∀ frame ∈ handedIn effects, frame.version = interface
  size : ∀ frame ∈ handedIn effects, frame.size = frame.bodyLength.toUInt32
  numbers : ((callsIn (handedIn effects)).map (·.sequence)).Nodup

theorem said_nil (interface : UInt32) : Said interface [] :=
  ⟨by simp [handedIn], by simp [handedIn], .nil⟩

/-- Frames that ask for no call may be said at any time. -/
theorem Said.append {interface : UInt32} {effects more : List Effect} (h : Said interface effects)
    (hmore : Said interface more) (hcalls : callsIn (handedIn more) = []) :
    Said interface (effects ++ more) := by
  refine ⟨?_, ?_, ?_⟩
  · rw [handedIn_append]
    exact fun frame hmem => (List.mem_append.mp hmem).elim (h.version frame) (hmore.version frame)
  · rw [handedIn_append]
    exact fun frame hmem => (List.mem_append.mp hmem).elim (h.size frame) (hmore.size frame)
  · rw [handedIn_append, callsIn_append, hcalls, List.append_nil]
    exact h.numbers

namespace Live

variable {interface : UInt32} {effects : List Effect} {live live' : Live}

/-! ## §2. One link. -/

/-- Numbers are handed out one after another, and what is in flight was sent. -/
structure Dealt (interface : UInt32) (effects : List Effect) (live : Live) : Prop
    extends Said interface effects where
  below : ∀ frame ∈ callsIn (handedIn effects), frame.sequence.toNat < live.next.toNat
  next : live.next.toNat = (callsIn (handedIn effects)).length
  sent : ∀ n call, (n, call) ∈ live.inFlight →
    .send live.link call (.call interface n call.request) true ∈ effects

/-- A new link. -/
theorem dealt_new (interface : UInt32) (peer : PeerName) (link : LinkId) :
    Dealt interface [] { peer, link } :=
  ⟨said_nil interface, by simp [handedIn, callsIn], rfl, by simp⟩

/-- Calls may leave a link, and what is discarded does not matter. -/
theorem Dealt.of_subset (h : Dealt interface effects live) (hlink : live'.link = live.link)
    (hnext : live'.next = live.next) (hsub : live'.inFlight ⊆ live.inFlight) :
    Dealt interface effects live' := by
  refine ⟨h.toSaid, ?_, ?_, ?_⟩
  · rw [hnext]
    exact h.below
  · rw [hnext]
    exact h.next
  · intro n call hmem
    rw [hlink]
    exact h.sent n call (hsub hmem)

/-- What was sent may be put in flight. -/
theorem Dealt.put (h : Dealt interface effects live) {n : SequenceNumber} {call : PendingCall}
    (hsent : .send live.link call (.call interface n call.request) true ∈ effects) :
    Dealt interface effects (live.put n call) := by
  refine ⟨h.toSaid, h.below, h.next, ?_⟩
  intro m other hmem
  rcases List.mem_append.mp hmem with hold | hnew
  · exact h.sent m other (List.mem_filter.mp hold).1
  · obtain ⟨rfl, rfl⟩ := Prod.mk.inj (List.mem_singleton.mp hnew)
    exact hsent

/-- **A call frame is handed over** under the next number. -/
theorem Dealt.hand (h : Dealt interface effects live) (call : PendingCall) (taken : Bool)
    (hroom : Suffices
      (effects ++ [.send live.link call (.call interface live.next call.request) taken])) :
    Dealt interface
      (effects ++ [.send live.link call (.call interface live.next call.request) taken])
      live.advance := by
  let frame := RequestFrame.call interface live.next call.request
  have hhanded : handedIn (effects ++ [.send live.link call frame taken])
      = handedIn effects ++ [frame] := handedIn_append _ _
  have hcalls : callsIn (handedIn effects ++ [frame]) = callsIn (handedIn effects) ++ [frame] :=
    callsIn_append _ _
  unfold Suffices at hroom
  -- there is room for this frame, so the counter does not wrap around
  have hlength : (callsIn (handedIn effects)).length + 1 < 2 ^ 64 := by
    rw [hhanded, hcalls, List.length_append] at hroom
    exact hroom
  have hnext : live.advance.next.toNat = live.next.toNat + 1 :=
    SequenceNumber.toNat_next (h.next ▸ hlength)
  refine ⟨⟨?_, ?_, ?_⟩, ?_, ?_, ?_⟩
  · rw [hhanded]
    intro other hmem
    rcases List.mem_append.mp hmem with hold | hnew
    · exact h.version other hold
    · rw [List.mem_singleton.mp hnew]
      rfl
  · rw [hhanded]
    intro other hmem
    rcases List.mem_append.mp hmem with hold | hnew
    · exact h.size other hold
    · rw [List.mem_singleton.mp hnew]
      rfl
  · rw [hhanded, hcalls, List.map_append, List.nodup_append]
    refine ⟨h.numbers, List.nodup_singleton _, ?_⟩
    -- all earlier numbers lie below the next one
    rintro n hn m hm rfl
    obtain ⟨other, hother, rfl⟩ := List.mem_map.mp hn
    have hsame : other.sequence = live.next := List.mem_singleton.mp hm
    have hbelow := h.below other hother
    rw [hsame] at hbelow
    exact Nat.lt_irrefl _ hbelow
  · rw [hhanded, hcalls, hnext]
    intro other hmem
    rcases List.mem_append.mp hmem with hold | hnew
    · exact Nat.lt_succ_of_lt (h.below other hold)
    · rw [List.mem_singleton.mp hnew]
      exact Nat.lt_succ_self _
  · rw [hhanded, hcalls, hnext, List.length_append, h.next]
    rfl
  · intro n other hmem
    exact List.mem_append_left _ (h.sent n other hmem)

/-- Frames that ask for no call use up no number. -/
theorem Dealt.append (h : Dealt interface effects live) {more : List Effect}
    (hmore : Said interface more) (hcalls : callsIn (handedIn more) = []) :
    Dealt interface (effects ++ more) live := by
  have hsame : callsIn (handedIn (effects ++ more)) = callsIn (handedIn effects) := by
    rw [handedIn_append, callsIn_append, hcalls, List.append_nil]
  refine ⟨h.toSaid.append hmore hcalls, ?_, ?_, ?_⟩
  · rw [hsame]
    exact h.below
  · rw [hsame]
    exact h.next
  · exact fun n call hmem => List.mem_append_left _ (h.sent n call hmem)

variable {env : Surroundings} {config : PoolConfig}

@[simp] theorem link_duplicate (live : Live) (call : PendingCall) :
    (live.duplicate env interface call).1.link = live.link := by
  unfold duplicate
  dsimp only
  split <;> rfl

@[simp] theorem next_duplicate (live : Live) (call : PendingCall) :
    (live.duplicate env interface call).1.next = live.next.next := by
  unfold duplicate
  dsimp only
  split <;> rfl

/-- A duplicate is one more frame. -/
theorem Dealt.duplicate (h : Dealt interface effects live) {call : PendingCall}
    (hroom : Suffices (effects ++ [(live.duplicate env interface call).2])) :
    Dealt interface (effects ++ [(live.duplicate env interface call).2])
      (live.duplicate env interface call).1 := by
  have hhanded := h.hand call (env.takes live.link (.call interface live.next call.request)) hroom
  refine hhanded.of_subset (link_duplicate live call) (next_duplicate live call) ?_
  rw [inFlight_duplicate]
  exact fun _ hmem => hmem

/-- **A call is sent**, perhaps twice. -/
theorem Dealt.transmit (h : Dealt interface effects live) {call : PendingCall}
    (htakes : env.takes live.link (.call interface live.next call.request) = true)
    (hroom : Suffices (effects ++ (live.transmit env config interface call).2)) :
    Dealt interface (effects ++ (live.transmit env config interface call).2)
      (live.transmit env config interface call).1 := by
  have heffect : live.handOver env call (.call interface live.next call.request)
      = .send live.link call (.call interface live.next call.request) true := by
    unfold handOver
    rw [htakes]
  cases hdup : env.duplicates config live.link live.next with
  | true =>
    rw [transmit_twice hdup, heffect] at hroom ⊢
    dsimp only at hroom ⊢
    -- the first frame puts the call in flight; the duplicate only uses up a number
    rw [← List.singleton_append, ← List.append_assoc] at hroom ⊢
    have hfirst := h.hand call true hroom.of_append
    refine (hfirst.duplicate hroom).put ?_
    rw [link_duplicate]
    exact List.mem_append_left _ (List.mem_append_right _ (List.mem_singleton_self _))
  | false =>
    rw [transmit_once hdup, heffect] at hroom ⊢
    exact (h.hand call true hroom).put (List.mem_append_right _ (List.mem_singleton_self _))

/-- **All waiting calls are sent.** -/
theorem Dealt.flush {ledger : Ledger} {waiting : List PendingCall}
    (h : Dealt interface effects live)
    (hroom : Suffices (effects ++ (live.flush env config interface ledger waiting).effects)) :
    Dealt interface (effects ++ (live.flush env config interface ledger waiting).effects)
      (live.flush env config interface ledger waiting).live := by
  induction waiting generalizing effects live with
  | nil =>
    unfold Live.flush
    rw [List.append_nil]
    exact h
  | cons call rest ih =>
    cases hfin : ledger.isFinished call.id with
    | true =>
      rw [flush_finished hfin] at hroom ⊢
      exact ih h hroom
    | false =>
      cases htakes : env.takes live.link (.call interface live.next call.request) with
      | true =>
        rw [flush_taken hfin htakes] at hroom ⊢
        dsimp only at hroom ⊢
        rw [← List.append_assoc] at hroom ⊢
        exact ih (h.transmit htakes hroom.of_append) hroom
      | false =>
        rw [flush_refused hfin htakes] at hroom ⊢
        exact h.hand call _ hroom

end Live

/-! ## §3. One connection. -/

/-- Effects that hand over no frame say nothing wrong. -/
theorem said_of_silent (interface : UInt32) {effects : List Effect} (h : handedIn effects = []) :
    Said interface effects := by
  refine ⟨?_, ?_, ?_⟩ <;> simp [h, callsIn]

/-- Cancels. -/
theorem said_cancels {interface : UInt32} {effects : List Effect}
    (h : ∀ frame ∈ handedIn effects, ∃ n, frame = .cancel interface n) :
    Said interface effects ∧ callsIn (handedIn effects) = [] := by
  have hnone : callsIn (handedIn effects) = [] := by
    refine List.filter_eq_nil_iff.mpr fun frame hmem => ?_
    obtain ⟨n, rfl⟩ := h frame hmem
    exact Bool.false_ne_true
  refine ⟨⟨fun frame hmem => ?_, fun frame hmem => ?_, ?_⟩, hnone⟩
  · obtain ⟨n, rfl⟩ := h frame hmem
    rfl
  · obtain ⟨n, rfl⟩ := h frame hmem
    rfl
  · rw [hnone]
    exact .nil

namespace Connection

variable {effects : List Effect} {c c' : Connection} {l : Ledger} {env : Surroundings}
  {config : PoolConfig} {now : Time}

/-- What a connection has said on its link, and what is in flight on it. -/
structure Dealt (effects : List Effect) (c : Connection) : Prop
    extends Said c.key.interface effects where
  live : ∀ live, c.phase = .connected live → live.Dealt c.key.interface effects

/-- What waits does not matter. -/
theorem Dealt.of_eq (h : Dealt effects c) (hkey : c'.key = c.key) (hphase : c'.phase = c.phase) :
    Dealt effects c' := by
  refine ⟨hkey ▸ h.toSaid, ?_⟩
  rw [hphase, hkey]
  exact h.live

/-- The link may be lost. -/
theorem Dealt.of_not_connected (h : Dealt effects c) (hkey : c'.key = c.key)
    (hphase : c'.live? = none) : Dealt effects c' := by
  refine ⟨hkey ▸ h.toSaid, fun live hlive => ?_⟩
  rw [live?_of_phase hlive] at hphase
  cases hphase

/-- Calls may leave the link. -/
theorem Dealt.takes (h : Dealt effects c) {live : Live} (hlive : c.phase = .connected live)
    (hkey : c'.key = c.key) (live' : Live) (hphase : c'.phase = .connected live')
    (hlink : live'.link = live.link) (hnext : live'.next = live.next)
    (hsub : live'.inFlight ⊆ live.inFlight) : Dealt effects c' := by
  refine ⟨hkey ▸ h.toSaid, fun other hother => ?_⟩
  rw [hphase] at hother
  cases hother
  rw [hkey]
  exact (h.live live hlive).of_subset hlink hnext hsub

/-- More effects that send no call keep what has been dealt. -/
theorem Dealt.append (h : Dealt effects c) {more : List Effect}
    (hsaid : Said c.key.interface more) (hnone : callsIn (handedIn more) = []) :
    Dealt (effects ++ more) c :=
  ⟨h.toSaid.append hsaid hnone, fun live hlive => (h.live live hlive).append hsaid hnone⟩

/-- The agent may be told that calls are canceled. -/
theorem Dealt.cancels (h : Dealt effects c) {more : List Effect}
    (hmore : ∀ frame ∈ handedIn more, ∃ n, frame = .cancel c.key.interface n) :
    Dealt (effects ++ more) c := by
  obtain ⟨hsaid, hnone⟩ := said_cancels hmore
  exact h.append hsaid hnone

/-- The agent may be told nothing. -/
theorem Dealt.silent (h : Dealt effects c) {more : List Effect} (hmore : handedIn more = []) :
    Dealt (effects ++ more) c := by
  have hnone : callsIn (handedIn more) = [] := by
    rw [hmore]
    rfl
  exact h.append (said_of_silent c.key.interface hmore) hnone

theorem Dealt.takeOut (h : Dealt effects c) {live : Live} (hlive : c.phase = .connected live)
    (n : SequenceNumber) : Dealt effects { c with phase := .connected (live.takeOut n) } :=
  h.takes hlive rfl (live.takeOut n) rfl rfl rfl (List.filter_subset_self live.inFlight)

theorem handedIn_leave (c : Connection) : handedIn c.leave = [] := by
  unfold leave
  split <;> rfl

/-- **The waiting calls are sent.** -/
theorem Dealt.flush (h : Dealt effects c) (hroom : Suffices (effects ++ (c.flush env config l).2)) :
    Dealt (effects ++ (c.flush env config l).2) (c.flush env config l).1 := by
  unfold Connection.flush at hroom ⊢
  split at hroom
  · next live hlive =>
    split at hroom
    · next hdraining =>
      rw [if_pos hdraining, List.append_nil]
      exact h
    · next hdraining =>
      rw [if_neg hdraining]
      have hdealt := (h.live live hlive).flush hroom
      refine ⟨hdealt.toSaid, fun live' hlive' => ?_⟩
      cases hlive'
      exact hdealt
  · rw [List.append_nil]
    exact h

/-- **Calls time out**, and the agent is told. -/
theorem Dealt.expire (h : Dealt effects c) :
    Dealt (effects ++ (c.expire env now l).effects) (c.expire env now l).connection := by
  unfold Connection.expire
  dsimp only
  split
  · next live hlive =>
    -- the link forgets the calls that have timed out, and cancels them
    refine Dealt.cancels (h.takes hlive (by rfl) (live.forget _) (by rfl) rfl rfl
      (List.filter_subset_self live.inFlight)) fun frame hmem => ?_
    obtain ⟨effect, heffect, hframe⟩ := List.mem_filterMap.mp hmem
    obtain ⟨sent, -, rfl⟩ := List.mem_map.mp heffect
    cases hframe
    exact ⟨sent.1, rfl⟩
  · next hphase =>
    rw [List.append_nil]
    exact h.of_eq rfl rfl

/-- **A call is let go of**, and the agent is told. -/
theorem Dealt.cancel (h : Dealt effects c) {id : CallId} {sent : List Effect}
    (hcancel : c.cancel? env id = some (c', sent)) : Dealt (effects ++ sent) c' := by
  cases letGo hcancel with
  | waiting =>
    rw [List.append_nil]
    exact h.of_eq rfl rfl
  | @inFlight live n call hphase _ _ =>
    refine (h.takeOut hphase n).cancels fun frame hmem => ?_
    exact ⟨n, List.mem_singleton.mp hmem⟩

/-- **The link is lost.** -/
theorem Dealt.lose (h : Dealt effects c) (config : PoolConfig) (e : Failure) (l : Ledger) :
    Dealt (effects ++ (c.lose config e l).effects) (c.lose config e l).connection := by
  rw [effects_lose]
  refine (h.silent c.handedIn_leave).of_not_connected ?_ ?_
  · unfold Connection.lose
    dsimp only
    split
    · split <;> rfl
    · rfl
  · unfold Connection.lose
    dsimp only
    split
    · split <;> rfl
    · rfl

/-- **A response has arrived.** -/
theorem Dealt.respond (h : Dealt effects c) (config : PoolConfig) (frame : ResponseFrame)
    (l : Ledger) :
    Dealt (effects ++ (c.respond config frame l).effects)
      (c.respond config frame l).connection := by
  have hresponded := responded config frame c l
  generalize c.respond config frame l = moved at *
  cases hresponded with
  | ignored _ =>
    rw [List.append_nil]
    exact h
  | dropped hphase _ =>
    rw [List.append_nil]
    exact h.takes hphase rfl _ rfl rfl rfl fun _ hmem => hmem
  | delivered hfinds =>
    rw [List.append_nil]
    exact h.takeOut hfinds.phase frame.sequence
  | retried hfinds =>
    rw [List.append_nil]
    exact (h.takeOut hfinds.phase frame.sequence).of_eq rfl rfl
  | unreadable hfinds =>
    rw [List.append_nil]
    exact h.takeOut hfinds.phase frame.sequence
  | @refused live call e hfinds =>
    rw [List.append_nil]
    exact h.takes hfinds.phase rfl _ rfl rfl rfl (List.filter_subset_self live.inFlight)
  | rejected hfinds => exact (h.takeOut hfinds.phase frame.sequence).lose config _ _
  | failed hfinds =>
    rw [List.append_nil]
    exact h.takeOut hfinds.phase frame.sequence

/-- **Whatever is due is done.** -/
theorem Dealt.advance (h : Dealt effects c)
    (hroom : Suffices (effects ++ (c.advance env config now l).effects)) :
    Dealt (effects ++ (c.advance env config now l).effects)
      (c.advance env config now l).connection := by
  rw [advance_eq] at hroom ⊢
  dsimp only at hroom ⊢
  rw [← List.append_assoc, ← List.append_assoc] at hroom ⊢
  -- timeouts, the end of a pause, the start of an attempt, and then the queue
  have hrested : Dealt (effects ++ (c.expire env now l).effects)
      ((c.expire env now l).connection.backOff config now) := by
    unfold backOff
    split
    · exact h.expire.of_not_connected rfl rfl
    · exact h.expire
  have hsought : Dealt (effects ++ (c.expire env now l).effects ++ (c.sought env config now l).2)
      (c.sought env config now l).1 := by
    unfold sought
    dsimp only
    split
    · next hdue =>
      unfold seek
      split
      · rw [List.append_nil]
        exact hrested.of_eq rfl rfl
      · refine (hrested.silent rfl).of_not_connected rfl rfl
    · rw [List.append_nil]
      exact hrested
  refine (hsought.flush hroom).of_eq ?_ ?_
  · unfold noteDemand
    split <;> [skip; split] <;> rfl
  · unfold noteDemand
    split <;> [skip; split] <;> rfl

end Connection

end RemoteCall
