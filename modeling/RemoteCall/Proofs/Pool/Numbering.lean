/-
  RemoteCall.Proofs.Pool.Numbering
  ────────────────────────────────
  **THE SEQUENCE NUMBERS OF A LINK.**

  Every call frame that is handed to the writer of a link uses up a number, also
  one that the writer refuses and one that is a duplicate.  No two calls are in
  flight under one number (`Live.Distinct`): a call that is put in flight takes
  the place of the one that is there.  As long as fewer than 2^64 frames are
  handed over, there is none: the numbers in flight and the discarded ones lie
  below the next one, and no number is both (`Live.Numbered`).

  Main statements:
    • `Numbered.transmit`    — one call is sent, perhaps twice,
    • `Numbered.flush`       — all waiting calls are sent,
    • `Distinct.calls_flush` — only calls that have left the queue are put in flight,
    • `Numbered.calls_flush` — all of them are in flight afterwards.
-/
import Mathlib.Data.List.Nodup
import RemoteCall.Proofs.Call.Growth

namespace RemoteCall

/-! ## §1. Counting call frames. -/

/-- Whether an effect hands a call frame to the writer of a link. -/
def Effect.isCallOn (link : LinkId) : Effect → Bool
  | .send target _ frame _ => target == link && frame.kind == .call
  | _ => false

/-- How many call frames are handed to the writer of a link. -/
def handedOut (link : LinkId) (effects : List Effect) : Nat :=
  effects.countP (·.isCallOn link)

@[simp] theorem handedOut_append (link : LinkId) (xs ys : List Effect) :
    handedOut link (xs ++ ys) = handedOut link xs + handedOut link ys := by
  simp [handedOut]

/-- The sequence numbers suffice: each link is handed fewer than 2^64 call frames. -/
def HasRoom (effects : List Effect) : Prop :=
  ∀ link, handedOut link effects < 2 ^ 64

theorem hasRoom_of_length_lt {effects : List Effect} (h : effects.length < 2 ^ 64) :
    HasRoom effects :=
  fun _ => Nat.lt_of_le_of_lt List.countP_le_length h

theorem HasRoom.of_append {effects more : List Effect} (h : HasRoom (effects ++ more)) :
    HasRoom effects := by
  intro link
  have := h link
  rw [handedOut_append] at this
  omega

/-- The next number does not wrap below the bound. -/
theorem SequenceNumber.toNat_next {n : SequenceNumber} (h : n.toNat + 1 < 2 ^ 64) :
    n.next.toNat = n.toNat + 1 := by
  unfold SequenceNumber.next
  rw [UInt64.toNat_add]
  exact Nat.mod_eq_of_lt h

namespace Live

/-! ## §2. Numbers in flight. -/

/-- No two calls are in flight under one number. -/
def Distinct (live : Live) : Prop :=
  (live.inFlight.map (·.1)).Nodup

/-- Calls may leave a link. -/
theorem Distinct.of_sublist {live live' : Live} (h : live.Distinct)
    (hsub : live'.inFlight.Sublist live.inFlight) : live'.Distinct :=
  List.Nodup.sublist (hsub.map _) h

/-- A call in flight under a number gives way to the call that is put there. -/
theorem Distinct.put {live : Live} (h : live.Distinct) (n : SequenceNumber) (call : PendingCall) :
    (live.put n call).Distinct := by
  unfold Distinct Live.put
  dsimp only
  rw [List.map_append, List.map_singleton, List.nodup_append]
  refine ⟨List.Nodup.sublist (List.filter_sublist.map _) h, List.nodup_singleton _, ?_⟩
  -- the call that was under the number has been filtered out
  intro a ha b hb heq
  obtain ⟨sent, hs, rfl⟩ := List.mem_map.mp ha
  have hne : sent.1 ≠ n := by simpa using (List.mem_filter.mp hs).2
  exact hne (heq.trans (List.mem_singleton.mp hb))

theorem calls_put_sublist (live : Live) (n : SequenceNumber) (call : PendingCall) :
    (live.put n call).calls.Sublist (live.calls ++ [call]) := by
  unfold calls Live.put
  dsimp only
  rw [List.map_append, List.map_singleton]
  exact (List.filter_sublist.map _).append_right _

/-- The numbers in flight are distinct, they and the discarded ones have been handed out, and none
is both. -/
structure Numbered (live : Live) : Prop where
  distinct : live.Distinct
  below : ∀ sent ∈ live.inFlight, sent.1.toNat < live.next.toNat
  discardedBelow : ∀ n ∈ live.discarded, n.toNat < live.next.toNat
  apart : ∀ sent ∈ live.inFlight, sent.1 ∉ live.discarded

/-- A new link has no numbers. -/
theorem numbered_new (peer : PeerName) (link : LinkId) : Numbered { peer, link } :=
  ⟨List.nodup_nil, by simp, by simp, by simp⟩

/-- Calls may leave a link. -/
theorem Numbered.of_sublist {live live' : Live} (h : live.Numbered)
    (hsub : live'.inFlight.Sublist live.inFlight) (hnext : live'.next = live.next)
    (hdiscarded : live'.discarded = live.discarded) : live'.Numbered := by
  refine ⟨h.distinct.of_sublist hsub, ?_, ?_, ?_⟩
  · intro sent hs
    rw [hnext]
    exact h.below sent (hsub.subset hs)
  · intro n hn
    rw [hnext]
    exact h.discardedBelow n (hdiscarded ▸ hn)
  · intro sent hs
    rw [hdiscarded]
    exact h.apart sent (hsub.subset hs)

theorem Numbered.forget {live : Live} (h : live.Numbered) (ledger : Ledger) :
    (live.forget ledger).Numbered :=
  h.of_sublist List.filter_sublist rfl rfl

/-- The response to a duplicate may come. -/
theorem Numbered.of_discarded {live : Live} (h : live.Numbered) {discarded : List SequenceNumber}
    (hsub : discarded.Sublist live.discarded) : Numbered { live with discarded } :=
  ⟨h.distinct, h.below, fun n hn => h.discardedBelow n (hsub.subset hn),
    fun sent hs hmem => h.apart sent hs (hsub.subset hmem)⟩

/-- A number that was handed out is used up. -/
theorem Numbered.advance {live : Live} (h : live.Numbered)
    (hroom : live.next.toNat + 1 < 2 ^ 64) : live.advance.Numbered := by
  have hnext : live.advance.next.toNat = live.next.toNat + 1 := SequenceNumber.toNat_next hroom
  refine ⟨h.distinct, ?_, ?_, h.apart⟩
  · intro sent hs
    have := h.below sent hs
    omega
  · intro n hn
    have := h.discardedBelow n hn
    omega

/-- A number that has been handed out and is not in use. -/
structure Reserved (live : Live) (n : SequenceNumber) : Prop where
  below : n.toNat < live.next.toNat
  free : n ∉ live.inFlight.map (·.1)
  kept : n ∉ live.discarded

/-- The next number is in use nowhere; it is reserved by handing it out. -/
theorem Numbered.reserve {live : Live} (h : live.Numbered)
    (hroom : live.next.toNat + 1 < 2 ^ 64) : live.advance.Reserved live.next := by
  refine ⟨?_, ?_, ?_⟩
  · rw [show live.advance.next = live.next.next from rfl, SequenceNumber.toNat_next hroom]
    exact Nat.lt_succ_self _
  · -- the numbers in flight are smaller
    intro hmem
    obtain ⟨sent, hs, heq⟩ := List.mem_map.mp hmem
    exact absurd (heq ▸ h.below sent hs) (Nat.lt_irrefl _)
  · intro hmem
    exact absurd (h.discardedBelow _ hmem) (Nat.lt_irrefl _)

/-- A reserved number may be discarded. -/
theorem Numbered.discard {live : Live} (h : live.Numbered) {n : SequenceNumber}
    (hn : live.Reserved n) : (live.discard n).Numbered := by
  refine ⟨h.distinct, h.below, ?_, ?_⟩
  · intro m hm
    rcases List.mem_cons.mp hm with rfl | hm
    · exact hn.below
    · exact h.discardedBelow m (List.mem_filter.mp hm).1
  · intro sent hs hmem
    rcases List.mem_cons.mp hmem with heq | hmem
    · exact hn.free (heq ▸ List.mem_map_of_mem hs)
    · exact h.apart sent hs (List.mem_filter.mp hmem).1

theorem inFlight_put {live : Live} {n : SequenceNumber} (hn : live.Reserved n)
    (call : PendingCall) : (live.put n call).inFlight = live.inFlight ++ [(n, call)] := by
  -- no call has to give way
  have hkeep : live.inFlight.filter (·.1 != n) = live.inFlight := by
    rw [List.filter_eq_self]
    intro sent hs
    have hne : sent.1 ≠ n := fun heq => hn.free (heq ▸ List.mem_map_of_mem hs)
    simpa using hne
  unfold put
  dsimp only
  rw [hkeep]

/-- A reserved number may be put in flight. -/
theorem Numbered.put {live : Live} (h : live.Numbered) {n : SequenceNumber}
    (hn : live.Reserved n) (call : PendingCall) : (live.put n call).Numbered := by
  have hflight := inFlight_put hn call
  refine ⟨h.distinct.put n call, ?_, h.discardedBelow, ?_⟩
  · intro sent hs
    rw [hflight, List.mem_append, List.mem_singleton] at hs
    rcases hs with hs | rfl
    · exact h.below sent hs
    · exact hn.below
  · intro sent hs
    rw [hflight, List.mem_append, List.mem_singleton] at hs
    rcases hs with hs | rfl
    · exact h.apart sent hs
    · exact hn.kept

/-! ## §3. Sending. -/

variable {env : Surroundings} {config : PoolConfig} {interface : UInt32}

/-- A duplicate uses up one number, and leaves a reserved one alone. -/
theorem Numbered.duplicate {live : Live} (h : live.Numbered)
    (hroom : live.next.toNat + 1 < 2 ^ 64) (env : Surroundings) (interface : UInt32)
    (call : PendingCall) :
    (live.duplicate env interface call).1.Numbered
      ∧ (live.duplicate env interface call).1.next = live.next.next
      ∧ ∀ {n}, live.Reserved n → (live.duplicate env interface call).1.Reserved n := by
  have hnext := SequenceNumber.toNat_next hroom
  have hreserved := h.reserve hroom
  have hadvance : ∀ {n}, live.Reserved n → live.advance.Reserved n := by
    intro n hn
    refine ⟨?_, hn.free, hn.kept⟩
    show n.toNat < live.next.next.toNat
    have := hn.below
    omega
  unfold Live.duplicate
  dsimp only
  split
  · refine ⟨(h.advance hroom).discard hreserved, rfl, ?_⟩
    -- a number that was reserved before is a smaller one
    intro n hn
    refine ⟨(hadvance hn).below, hn.free, ?_⟩
    intro hmem
    rcases List.mem_cons.mp hmem with rfl | hmem
    · exact absurd hn.below (Nat.lt_irrefl _)
    · exact hn.kept (List.mem_filter.mp hmem).1
  · exact ⟨h.advance hroom, rfl, hadvance⟩

theorem transmit_twice {live : Live} {call : PendingCall}
    (h : env.duplicates config live.link live.next = true) :
    live.transmit env config interface call
      = ((live.advance.duplicate env interface call).1.put live.next call,
          [live.handOver env call (.call interface live.next call.request),
            (live.advance.duplicate env interface call).2]) := by
  unfold transmit
  dsimp only
  rw [if_pos h]

theorem transmit_once {live : Live} {call : PendingCall}
    (h : env.duplicates config live.link live.next = false) :
    live.transmit env config interface call
      = (live.advance.put live.next call,
          [live.handOver env call (.call interface live.next call.request)]) := by
  unfold transmit
  dsimp only
  rw [h]
  rfl

@[simp] theorem inFlight_duplicate (live : Live) (call : PendingCall) :
    (live.duplicate env interface call).1.inFlight = live.inFlight := by
  unfold duplicate
  dsimp only
  split <;> rfl

@[simp] theorem isCallOn_handOver (live : Live) (call : PendingCall) (n : SequenceNumber)
    (request : Bytes) :
    (live.handOver env call (.call interface n request)).isCallOn live.link = true := by
  simp [handOver, Effect.isCallOn, RequestFrame.call]

@[simp] theorem isCallOn_duplicate (env : Surroundings) (interface : UInt32) (live : Live)
    (call : PendingCall) :
    (live.duplicate env interface call).2.isCallOn live.link = true := by
  simp [duplicate, handOver, advance, Effect.isCallOn, RequestFrame.call]

@[simp] theorem link_transmit (live : Live) (call : PendingCall) :
    (live.transmit env config interface call).1.link = live.link := by
  unfold transmit duplicate
  dsimp only
  split <;> [split; skip] <;> rfl

/-- A call that is sent is put in flight, and no other. -/
theorem Distinct.transmit {live : Live} (h : live.Distinct) (env : Surroundings)
    (config : PoolConfig) (interface : UInt32) (call : PendingCall) :
    (live.transmit env config interface call).1.Distinct
      ∧ (live.transmit env config interface call).1.calls.Sublist (live.calls ++ [call]) := by
  cases hdup : env.duplicates config live.link live.next with
  | true =>
    rw [transmit_twice hdup]
    -- the duplicate is not put in flight
    have hflight : (live.advance.duplicate env interface call).1.inFlight = live.inFlight :=
      inFlight_duplicate live.advance call
    have hcalls : (live.advance.duplicate env interface call).1.calls = live.calls :=
      congrArg (List.map Prod.snd) hflight
    refine ⟨Distinct.put (h.of_sublist (hflight ▸ List.Sublist.refl _)) live.next call, ?_⟩
    rw [← hcalls]
    exact calls_put_sublist _ live.next call
  | false =>
    rw [transmit_once hdup]
    have hadvance : live.advance.Distinct := h
    exact ⟨hadvance.put live.next call,
      calls_put_sublist live.advance live.next call⟩

/-- **A call is sent**: it is in flight under the next number, and as many numbers are used up as
frames are handed over. -/
theorem Numbered.transmit {live : Live} (h : live.Numbered) {call : PendingCall}
    (hroom : live.next.toNat
      + handedOut live.link (live.transmit env config interface call).2 < 2 ^ 64) :
    (live.transmit env config interface call).1.Numbered
      ∧ (live.transmit env config interface call).1.inFlight
          = live.inFlight ++ [(live.next, call)]
      ∧ (live.transmit env config interface call).1.next.toNat
          = live.next.toNat + handedOut live.link (live.transmit env config interface call).2 := by
  cases hdup : env.duplicates config live.link live.next with
  | true =>
    -- the duplicate takes the number behind that of the call
    rw [transmit_twice hdup] at hroom ⊢
    have htwo : handedOut live.link
        [live.handOver env call (.call interface live.next call.request),
          (live.advance.duplicate env interface call).2] = 2 := by
      have hlink := isCallOn_duplicate env interface live.advance call
      simp only [handedOut, List.countP_cons, isCallOn_handOver, List.countP_nil]
      rw [show live.link = live.advance.link from rfl, hlink]
      rfl
    dsimp only at hroom ⊢
    rw [htwo] at hroom ⊢
    have hnext := SequenceNumber.toNat_next (n := live.next) (by omega)
    have hroom' : live.advance.next.toNat + 1 < 2 ^ 64 := by
      show live.next.next.toNat + 1 < 2 ^ 64
      omega
    obtain ⟨hnumbered, hduplicate, hkeeps⟩ :=
      (h.advance (by omega)).duplicate hroom' env interface call
    have hreserved := hkeeps (h.reserve (by omega))
    refine ⟨hnumbered.put hreserved call, ?_, ?_⟩
    · rw [inFlight_put hreserved, inFlight_duplicate]
      rfl
    · show (live.advance.duplicate env interface call).1.next.toNat = _
      rw [hduplicate, SequenceNumber.toNat_next hroom']
      show live.next.next.toNat + 1 = _
      rw [hnext]
  | false =>
    rw [transmit_once hdup] at hroom ⊢
    have hone : handedOut live.link
        [live.handOver env call (.call interface live.next call.request)] = 1 := by
      simp [handedOut]
    dsimp only at hroom ⊢
    rw [hone] at hroom ⊢
    have hreserved := h.reserve (by omega)
    refine ⟨(h.advance (by omega)).put hreserved call, inFlight_put hreserved call, ?_⟩
    exact SequenceNumber.toNat_next (by omega)

/-! ## §4. Sending everything that waits. -/

theorem flush_finished {ledger : Ledger} {live : Live} {call : PendingCall}
    {rest : List PendingCall} (h : ledger.isFinished call.id = true) :
    live.flush env config interface ledger (call :: rest)
      = live.flush env config interface ledger rest := by
  rw [flush, if_pos h]

theorem flush_taken {ledger : Ledger} {live : Live} {call : PendingCall} {rest : List PendingCall}
    (h : ledger.isFinished call.id = false)
    (htakes : env.takes live.link (.call interface live.next call.request) = true) :
    live.flush env config interface ledger (call :: rest)
      = let (sent, effects) := live.transmit env config interface call
        let more := sent.flush env config interface ledger rest
        { more with effects := effects ++ more.effects } := by
  rw [flush, if_neg (by simp [h])]
  dsimp only
  rw [if_pos htakes]

theorem flush_refused {ledger : Ledger} {live : Live} {call : PendingCall}
    {rest : List PendingCall} (h : ledger.isFinished call.id = false)
    (hrefuses : env.takes live.link (.call interface live.next call.request) = false) :
    live.flush env config interface ledger (call :: rest)
      = ⟨live.advance, call :: rest,
          [live.handOver env call (.call interface live.next call.request)]⟩ := by
  rw [flush, if_neg (by simp [h])]
  dsimp only
  rw [if_neg (by simp [hrefuses])]

/-- The link stays what it is. -/
theorem link_flush (env : Surroundings) (config : PoolConfig) (interface : UInt32)
    (ledger : Ledger) (waiting : List PendingCall) (live : Live) :
    (live.flush env config interface ledger waiting).live.link = live.link := by
  induction waiting generalizing live with
  | nil => rfl
  | cons call rest ih =>
    cases hfin : ledger.isFinished call.id with
    | true => rw [flush_finished hfin]; exact ih live
    | false =>
      cases htakes : env.takes live.link (.call interface live.next call.request) with
      | true =>
        rw [flush_taken hfin htakes]
        exact (ih _).trans (link_transmit live call)
      | false => rw [flush_refused hfin htakes]; rfl

/-- **All waiting calls are sent**: the numbers stay in order, and as many are used up as frames are
handed over. -/
theorem Numbered.flush {ledger : Ledger} {waiting : List PendingCall} {live : Live}
    (h : live.Numbered)
    (hroom : live.next.toNat + handedOut live.link
      (live.flush env config interface ledger waiting).effects < 2 ^ 64) :
    (live.flush env config interface ledger waiting).live.Numbered
      ∧ (live.flush env config interface ledger waiting).live.next.toNat
          = live.next.toNat + handedOut live.link
              (live.flush env config interface ledger waiting).effects := by
  induction waiting generalizing live with
  | nil => exact ⟨h, rfl⟩
  | cons call rest ih =>
    cases hfin : ledger.isFinished call.id with
    | true =>
      rw [flush_finished hfin] at hroom ⊢
      exact ih h hroom
    | false =>
      cases htakes : env.takes live.link (.call interface live.next call.request) with
      | true =>
        rw [flush_taken hfin htakes] at hroom ⊢
        dsimp only at hroom ⊢
        rw [handedOut_append] at hroom ⊢
        -- the first frames are some of all frames
        have hfirst : live.next.toNat
            + handedOut live.link (live.transmit env config interface call).2 < 2 ^ 64 := by omega
        obtain ⟨hnumbered, -, hnext⟩ := h.transmit hfirst
        have hmore := ih hnumbered (by rw [link_transmit, hnext]; omega)
        rw [link_transmit, hnext] at hmore
        exact ⟨hmore.1, hmore.2.trans (Nat.add_assoc _ _ _)⟩
      | false =>
        -- a frame that is refused has used up its number all the same
        rw [flush_refused hfin htakes] at hroom ⊢
        dsimp only at hroom ⊢
        have hone : handedOut live.link
            [live.handOver env call (.call interface live.next call.request)] = 1 := by
          simp [handedOut]
        rw [hone] at hroom ⊢
        exact ⟨h.advance hroom, SequenceNumber.toNat_next hroom⟩

/-- **Only calls that leave the queue are put in flight**, and none that has an outcome. -/
theorem Distinct.calls_flush {live : Live} (h : live.Distinct) (env : Surroundings)
    (config : PoolConfig) (interface : UInt32) (ledger : Ledger) (waiting : List PendingCall) :
    (live.flush env config interface ledger waiting).live.Distinct
      ∧ ∃ gone, waiting = gone ++ (live.flush env config interface ledger waiting).waiting
        ∧ (live.flush env config interface ledger waiting).live.calls.Sublist
            (live.calls ++ ledger.unsettled gone) := by
  induction waiting generalizing live with
  | nil => exact ⟨h, [], rfl, List.sublist_append_left _ _⟩
  | cons call rest ih =>
    cases hfin : ledger.isFinished call.id with
    | true =>
      -- a call that has an outcome leaves the queue for good
      rw [flush_finished hfin]
      obtain ⟨hdistinct, gone, hsplit, hcalls⟩ := ih h
      refine ⟨hdistinct, call :: gone, congrArg (call :: ·) hsplit, ?_⟩
      rw [Ledger.unsettled, List.filter_cons_of_neg (by simp [hfin])]
      exact hcalls
    | false =>
      cases htakes : env.takes live.link (.call interface live.next call.request) with
      | true =>
        rw [flush_taken hfin htakes]
        dsimp only
        obtain ⟨hsent, hfirst⟩ := h.transmit env config interface call
        obtain ⟨hdistinct, gone, hsplit, hcalls⟩ := ih hsent
        refine ⟨hdistinct, call :: gone, congrArg (call :: ·) hsplit, hcalls.trans ?_⟩
        rw [Ledger.unsettled, Ledger.unsettled, List.filter_cons_of_pos (by simp [hfin])]
        rw [show live.calls ++ call :: gone.filter (fun call => !ledger.isFinished call.id)
          = live.calls ++ [call] ++ gone.filter (fun call => !ledger.isFinished call.id) by simp]
        exact hfirst.append_right _
      | false =>
        -- the writer is full: the queue stays
        rw [flush_refused hfin htakes]
        exact ⟨h, [], rfl, List.sublist_append_left _ _⟩

/-- **The calls that leave the queue are in flight**, unless they have an outcome. -/
theorem Numbered.calls_flush {ledger : Ledger} {waiting : List PendingCall} {live : Live}
    (h : live.Numbered)
    (hroom : live.next.toNat + handedOut live.link
      (live.flush env config interface ledger waiting).effects < 2 ^ 64) :
    ∃ gone, waiting = gone ++ (live.flush env config interface ledger waiting).waiting
      ∧ (live.flush env config interface ledger waiting).live.calls
          = live.calls ++ ledger.unsettled gone := by
  induction waiting generalizing live with
  | nil => exact ⟨[], rfl, (List.append_nil _).symm⟩
  | cons call rest ih =>
    cases hfin : ledger.isFinished call.id with
    | true =>
      rw [flush_finished hfin] at hroom ⊢
      obtain ⟨gone, hsplit, hcalls⟩ := ih h hroom
      refine ⟨call :: gone, congrArg (call :: ·) hsplit, ?_⟩
      rw [hcalls, Ledger.unsettled, Ledger.unsettled, List.filter_cons_of_neg (by simp [hfin])]
    | false =>
      cases htakes : env.takes live.link (.call interface live.next call.request) with
      | true =>
        rw [flush_taken hfin htakes] at hroom ⊢
        dsimp only at hroom ⊢
        rw [handedOut_append] at hroom
        have hfirst : live.next.toNat
            + handedOut live.link (live.transmit env config interface call).2 < 2 ^ 64 := by omega
        obtain ⟨hnumbered, hflight, hnext⟩ := h.transmit hfirst
        obtain ⟨gone, hsplit, hcalls⟩ := ih hnumbered (by rw [link_transmit, hnext]; omega)
        refine ⟨call :: gone, congrArg (call :: ·) hsplit, ?_⟩
        rw [hcalls, Ledger.unsettled, Ledger.unsettled, List.filter_cons_of_pos (by simp [hfin])]
        -- no call has given way to the one that is put in flight
        unfold calls
        rw [hflight, List.map_append, List.append_assoc]
        rfl
      | false =>
        rw [flush_refused hfin htakes] at hroom ⊢
        exact ⟨[], rfl, (List.append_nil _).symm⟩

end Live

end RemoteCall
