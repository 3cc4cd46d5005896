/-
  RemoteCall.Proofs.Call.Agreement
  ────────────────────────────────
  **ONE OUTCOME, AND EVERY OBSERVER IS SHOWN IT.**

  However the accesses of the observers of a slot follow each other, the slot is
  filled once, an observer that is given an outcome is given the one in the
  slot, and the pool is told at most once that the call is off: by the observer
  whose failure is the outcome.

  An access either finds the slot filled and leaves it, or finds it empty; so
  what an observer has learned about the outcome stays true.  `Fills` names the
  observer whose cancellation filled the slot; there is only one, since the slot
  is filled from then on.

  Main statements:
    • `access_of_isFinished`     — a filled slot is left alone,
    • `agrees_access`            — what an access learns is what is in the slot,
    • `Fills.unique`             — the slot is filled by one observer,
    • `observers_agree_on_the_outcome` — the statement about all interleavings.
-/
import Mathlib.Data.List.Induction
import Mathlib.Data.List.Nodup
import RemoteCall.Call.Observing
import RemoteCall.Proofs.Call.Growth

namespace RemoteCall.Slot

variable {α : Type} {decode : Bytes → Outcome α}

/-! ## §1. One access. -/

/-- The failure that an observer records with its next access, if it comes first. -/
def Observer.cancels? (observer : Observer α) : Option Failure :=
  match observer.stage, observer.operation with
  | .begun, .abort => some .aborted
  | .cancelling e, _ => some e
  | _, _ => none

/-- What one has learned about a slot by getting to a stage is true of it. -/
def Agrees (s : Slot α) : Stage α → Prop
  | .alerted => s.isFinished = true
  | .telling o => s.outcome = some o
  | .done (.outcome o) => s.outcome = some o
  | .done (.seen (some o)) => s.outcome = some o
  | _ => True

/-- The slot is empty and takes the failure, or it is filled and shown to the observer. -/
theorem cancelFor_cases (s : Slot α) (op : Operation) (e : Failure) :
    (s.outcome = none ∧ s.cancelFor op e = (⟨some (.error e), true⟩, .telling (.error e)))
      ∨ ∃ o, s.outcome = some o ∧ s.cancelFor op e = (s, .done (op.closing o)) := by
  unfold cancelFor cancel
  cases h : s.outcome with
  | none => exact .inl ⟨rfl, by rw [settle_of_none h]; rfl⟩
  | some o => exact .inr ⟨o, rfl, by rw [settle_of_some h]; rfl⟩

theorem agrees_closing {s : Slot α} {o : Outcome α} (h : s.outcome = some o) (op : Operation) :
    s.Agrees (.done (op.closing o)) := by
  cases op <;> first | exact h | exact trivial

theorem isFinished_of_outcome {s : Slot α} {o : Outcome α} (h : s.outcome = some o) :
    s.isFinished = true :=
  Option.isSome_iff_exists.mpr ⟨o, h⟩

theorem cancelFor_of_isFinished {s : Slot α} (h : s.isFinished = true) (op : Operation)
    (e : Failure) : (s.cancelFor op e).1 = s := by
  rcases s.cancelFor_cases op e with ⟨hnone, -⟩ | ⟨o, -, heq⟩
  · rw [isFinished, hnone] at h
    exact absurd h (by simp)
  · rw [heq]

/-- **A filled slot is left alone** by every access. -/
theorem access_of_isFinished {s : Slot α} (h : s.isFinished = true) (observer : Observer α)
    (turn : Turn) : (s.access decode observer turn).1 = s := by
  obtain ⟨op, stage⟩ := observer
  unfold access
  cases stage with
  | begun =>
    cases turn with
    | expire => rfl
    | proceed =>
      cases op with
      | deliver payload =>
        show (s.deliver decode payload).1 = s
        unfold deliver
        cases decode payload with
        | error e => rfl
        | ok v => exact settle_of_isFinished h (.ok v)
      | fail e => exact settle_of_isFinished h (.error e)
      | abort => exact cancelFor_of_isFinished h .abort .aborted
      | pop _ | tryPop | isFinished | drop => rfl
  | cancelling e => exact cancelFor_of_isFinished h op e
  | alerted | telling _ | done _ => rfl

/-- What was learned about a slot stays true. -/
theorem Agrees.access {s : Slot α} {stage : Stage α} (h : s.Agrees stage)
    (observer : Observer α) (turn : Turn) : (s.access decode observer turn).1.Agrees stage := by
  cases hf : s.isFinished with
  | true => rwa [access_of_isFinished hf]
  | false =>
    -- of an empty slot nothing has been learned
    have hnone : s.outcome = none := by simpa [isFinished] using hf
    cases stage with
    | alerted => exact absurd (hf.symm.trans h) (by simp)
    | telling o => exact absurd (hnone.symm.trans h) (by simp)
    | begun | cancelling _ => trivial
    | done r =>
      cases r with
      | outcome o => exact absurd (hnone.symm.trans h) (by simp)
      | seen o =>
        cases o with
        | none => trivial
        | some o => exact absurd (hnone.symm.trans h) (by simp)
      | nothing | delivered _ | finished _ => trivial

/-- The flag is set together with the slot. -/
theorem flag_settle {s : Slot α} (h : s.finished = s.isFinished) (o : Outcome α) :
    (s.settle o).1.finished = (s.settle o).1.isFinished := by
  cases hs : s.outcome with
  | none => rw [settle_of_none hs]; rfl
  | some existing => rw [settle_of_some hs]; exact h

theorem flag_cancelFor {s : Slot α} (h : s.finished = s.isFinished) (op : Operation)
    (e : Failure) : (s.cancelFor op e).1.finished = (s.cancelFor op e).1.isFinished :=
  flag_settle h (.error e)

/-- **The flag says whether the slot is filled**, after every access. -/
theorem flag_access {s : Slot α} (h : s.finished = s.isFinished) (observer : Observer α)
    (turn : Turn) :
    (s.access decode observer turn).1.finished
      = (s.access decode observer turn).1.isFinished := by
  obtain ⟨op, stage⟩ := observer
  unfold access
  cases stage with
  | begun =>
    cases turn with
    | expire => exact h
    | proceed =>
      cases op with
      | deliver payload =>
        show (s.deliver decode payload).1.finished = (s.deliver decode payload).1.isFinished
        unfold deliver
        cases decode payload with
        | error e => exact h
        | ok v => exact flag_settle h (.ok v)
      | fail e => exact flag_settle h (.error e)
      | abort => exact flag_cancelFor h .abort .aborted
      | pop _ | tryPop | isFinished | drop => exact h
  | cancelling e => exact flag_cancelFor h op e
  | alerted | telling _ | done _ => exact h

theorem agrees_cancelFor (s : Slot α) (op : Operation) (e : Failure) :
    (s.cancelFor op e).1.Agrees (s.cancelFor op e).2 := by
  rcases s.cancelFor_cases op e with ⟨-, heq⟩ | ⟨o, ho, heq⟩
  · rw [heq]
    exact rfl
  · rw [heq]
    exact agrees_closing ho op

/-- **What an access learns is what is in the slot.** -/
theorem agrees_access {s : Slot α} (hflag : s.finished = s.isFinished) {observer : Observer α}
    (h : s.Agrees observer.stage) (turn : Turn) :
    (s.access decode observer turn).1.Agrees (s.access decode observer turn).2 := by
  obtain ⟨op, stage⟩ := observer
  unfold access
  cases stage with
  | begun =>
    cases turn with
    | expire => dsimp only; split <;> trivial
    | proceed =>
      cases op with
      | deliver _ | fail _ | isFinished => trivial
      | abort => exact agrees_cancelFor s .abort .aborted
      | drop => show s.Agrees (if _ then _ else _); split <;> trivial
      | tryPop =>
        show s.Agrees (.done (.seen s.outcome))
        cases ho : s.outcome with
        | none => trivial
        | some o => exact ho
      | pop limited =>
        show s.Agrees (if s.finished = true then .alerted else .begun)
        split
        · exact hflag.symm.trans ‹_›
        · trivial
  | cancelling e => exact agrees_cancelFor s op e
  | telling o => exact agrees_closing h op
  | done r => exact h
  | alerted =>
    -- the flag was seen, so there is something to collect
    obtain ⟨o, ho⟩ := Option.isSome_iff_exists.mp h
    show s.outcome = some s.collect
    rw [collect, ho, Option.getD_some]

/-- An observer that has to tell the pool has just filled the slot with its failure. -/
theorem fills_of_telling {s : Slot α} {observer : Observer α} {turn : Turn} {o : Outcome α}
    (h : (s.access decode observer turn).2 = .telling o) :
    ∃ e, observer.cancels? = some e ∧ s.outcome = none
      ∧ (s.access decode observer turn).1.outcome = some (.error e) := by
  -- only a cancellation that finds the slot empty leads there
  have hcancel : ∀ (op : Operation) (e : Failure), (s.cancelFor op e).2 = .telling o →
      s.outcome = none ∧ (s.cancelFor op e).1.outcome = some (.error e) := by
    intro op e htell
    rcases s.cancelFor_cases op e with ⟨hnone, heq⟩ | ⟨o', -, heq⟩
    · exact ⟨hnone, by rw [heq]⟩
    · rw [heq] at htell
      exact absurd htell (by simp)
  obtain ⟨op, stage⟩ := observer
  unfold access at h ⊢
  cases stage with
  | begun =>
    cases turn with
    | expire => dsimp only at h; split at h <;> exact absurd h (by simp)
    | proceed =>
      cases op with
      | abort => exact ⟨.aborted, rfl, hcancel .abort .aborted h⟩
      | deliver _ | fail _ | isFinished | tryPop => exact absurd h (by simp [enter])
      | pop _ | drop => dsimp only [enter] at h; split at h <;> exact absurd h (by simp)
  | cancelling e => exact ⟨e, rfl, hcancel op e h⟩
  | alerted | telling _ | done _ => exact absurd h (by simp)

/-- **Cancelling a call that has an outcome gives the outcome**, and there is nothing to tell the
pool. -/
theorem access_cancels (decode : Bytes → Outcome α) {s : Slot α} {observer : Observer α}
    {e : Failure} {o : Outcome α} (hcancel : observer.cancels? = some e) (ho : s.outcome = some o) :
    s.access decode observer .proceed = (s, .done (observer.operation.closing o)) := by
  have hlate : ∀ op e, s.cancelFor op e = (s, .done (op.closing o)) := by
    intro op e
    rcases s.cancelFor_cases op e with ⟨hnone, -⟩ | ⟨o', ho', heq⟩
    · exact absurd (hnone.symm.trans ho) (by simp)
    · rw [heq, Option.some.inj (ho.symm.trans ho')]
  obtain ⟨op, stage⟩ := observer
  unfold access
  cases stage with
  | begun =>
    cases op with
    | abort => exact hlate .abort .aborted
    | deliver _ | fail _ | isFinished | tryPop | pop _ | drop =>
      exact absurd hcancel (by simp [Observer.cancels?])
  | cancelling e => exact hlate op e
  | alerted | telling _ | done _ => exact absurd hcancel (by simp [Observer.cancels?])

/-- Letting go of a call, with no other access in between, is what `release` does in one go. -/
theorem release_eq_accesses (s : Slot α) :
    s.release = if s.isFinished = true then (s, false) else
      let entered := s.access decode ⟨.drop, .begun⟩ .proceed
      let cancelled := entered.1.access decode ⟨.drop, entered.2⟩ .proceed
      (cancelled.1, true) := by
  unfold release
  cases h : s.isFinished with
  | true => rfl
  | false =>
    have hnone : s.outcome = none := by simpa [isFinished] using h
    simp [access, enter, h, cancelFor, cancel, settle_of_none hnone]

/-! ## §2. Events. -/

namespace Scene

@[simp] theorem after_nil : after decode [] = {} := rfl

theorem after_concat (events : List Event) (event : Event) :
    after decode (events ++ [event]) = (after decode events).step decode event := by
  simp [after, List.foldl_append]

theorem step_turn {scene : Scene α} {i : Nat} {observer : Observer α}
    (h : scene.observers[i]? = some observer) (turn : Turn) :
    scene.step decode (.turn i turn) = scene.move decode i observer turn := by
  simp [step, h]

/-- What an event does: a new observer joins, one has an access, or no observer has the number. -/
theorem step_cases (decode : Bytes → Outcome α) (scene : Scene α) (event : Event) :
    (∃ op, event = .joins op
      ∧ scene.step decode event = { scene with observers := scene.observers ++ [⟨op, .begun⟩] })
    ∨ (∃ i turn observer, event = .turn i turn ∧ scene.observers[i]? = some observer
      ∧ scene.step decode event = scene.move decode i observer turn)
    ∨ ∃ i turn, event = .turn i turn ∧ scene.observers[i]? = none
      ∧ scene.step decode event = scene := by
  cases event with
  | joins op => exact .inl ⟨op, rfl, rfl⟩
  | turn i turn =>
    cases h : scene.observers[i]? with
    | some observer => exact .inr (.inl ⟨i, turn, observer, rfl, h, step_turn h turn⟩)
    | none => exact .inr (.inr ⟨i, turn, rfl, h, by simp [step, h]⟩)

/-- A filled slot is left alone by every event. -/
theorem slot_step_of_isFinished {scene : Scene α} (h : scene.slot.isFinished = true)
    (event : Event) : (scene.step decode event).slot = scene.slot := by
  rcases scene.step_cases decode event with
    ⟨op, -, heq⟩ | ⟨i, turn, observer, -, -, heq⟩ | ⟨i, turn, -, -, heq⟩
  · rw [heq]
  · rw [heq]
    exact access_of_isFinished h observer turn
  · rw [heq]

/-- **The slot is final**: filled after some events, it is the same after all later ones. -/
theorem slot_after_of_isFinished {earlier : List Event}
    (h : (after decode earlier).slot.isFinished = true) (later : List Event) :
    (after decode (earlier ++ later)).slot = (after decode earlier).slot := by
  induction later using List.reverseRecOn with
  | nil => rw [List.append_nil]
  | append_singleton later event ih =>
    rw [← List.append_assoc, after_concat, slot_step_of_isFinished (ih.symm ▸ h), ih]

/-- The observers after one of them had an access. -/
theorem getElem?_move (scene : Scene α) {i j : Nat} {observer : Observer α}
    (h : scene.observers[i]? = some observer) (turn : Turn) :
    (scene.move decode i observer turn).observers[j]?
      = if i = j then some ⟨observer.operation, (scene.slot.access decode observer turn).2⟩
        else scene.observers[j]? := by
  have hlt : i < scene.observers.length := (List.getElem?_eq_some_iff.mp h).1
  show (scene.observers.set i _)[j]? = _
  rw [List.getElem?_set]
  by_cases hij : i = j
  · rw [if_pos hij, if_pos hij, if_pos hlt]
    rfl
  · rw [if_neg hij, if_neg hij]

/-! ## §3. The observer that fills the slot. -/

/-- The slot was filled by a cancellation of the observer `i`. -/
def Fills (decode : Bytes → Outcome α) (events : List Event) (i : Nat) : Prop :=
  ∃ earlier turn later observer e, events = earlier ++ .turn i turn :: later
    ∧ (after decode earlier).observers[i]? = some observer ∧ observer.cancels? = some e
    ∧ (after decode earlier).slot.outcome = none
    ∧ (after decode (earlier ++ [.turn i turn])).slot.outcome = some (.error e)

theorem Fills.concat {events : List Event} {i : Nat} (h : Fills decode events i)
    (event : Event) : Fills decode (events ++ [event]) i := by
  obtain ⟨earlier, turn, later, observer, e, rfl, hrest⟩ := h
  exact ⟨earlier, turn, later ++ [event], observer, e, by simp, hrest⟩

/-- An event that fills the slot comes before no other that does. -/
theorem prefix_of_filled {events earlier earlier' later later' : List Event} {event event' : Event}
    (heq : events = earlier ++ event :: later) (heq' : events = earlier' ++ event' :: later')
    (hfull : (after decode (earlier ++ [event])).slot.isFinished = true)
    (hnone' : (after decode earlier').slot.outcome = none) : earlier'.length ≤ earlier.length := by
  refine Nat.le_of_not_lt fun hlt => ?_
  -- the first event would be among those before the second
  have hfirst : (earlier ++ [event]) <+: events := ⟨later, by rw [heq, List.append_assoc]; rfl⟩
  have hsecond : earlier' <+: events := ⟨event' :: later', heq'.symm⟩
  have hprefix : (earlier ++ [event]) <+: earlier' := by
    refine List.prefix_of_prefix_length_le hfirst hsecond ?_
    rw [List.length_append]
    exact hlt
  obtain ⟨between, hbetween⟩ := hprefix
  rw [← hbetween, slot_after_of_isFinished hfull between |> congrArg Slot.outcome] at hnone'
  rw [isFinished, hnone'] at hfull
  exact absurd hfull (by simp)

/-- **The slot is filled by one observer.** -/
theorem Fills.unique {events : List Event} {i j : Nat} (hi : Fills decode events i)
    (hj : Fills decode events j) : i = j := by
  obtain ⟨earlier, turn, later, _, _, heq, -, -, hnone, hfull⟩ := hi
  obtain ⟨earlier', turn', later', _, _, heq', -, -, hnone', hfull'⟩ := hj
  have hle := prefix_of_filled heq heq' (isFinished_of_outcome hfull) hnone'
  have hle' := prefix_of_filled heq' heq (isFinished_of_outcome hfull') hnone
  -- so both are the same event
  obtain ⟨-, hcons⟩ := List.append_inj (heq.symm.trans heq') (Nat.le_antisymm hle' hle)
  exact Event.turn.inj (List.cons.inj hcons).1 |>.1

/-! ## §4. All interleavings. -/

/-- What an event keeps: the flag says whether the slot is filled, all observers agree with the
slot, and the pool was told, once at most, by the observer that filled it. -/
structure Sound (decode : Bytes → Outcome α) (events : List Event) : Prop where
  flag : (after decode events).slot.finished = (after decode events).slot.isFinished
  agree : ∀ {i : Nat} {observer : Observer α}, (after decode events).observers[i]? = some observer →
    (after decode events).slot.Agrees observer.stage
  telling : ∀ {i : Nat} {op : Operation} {o : Outcome α},
    (after decode events).observers[i]? = some ⟨op, .telling o⟩ →
    Fills decode events i
  told : ∀ {i : Nat}, i ∈ (after decode events).told →
    Fills decode events i ∧ ∃ op r, (after decode events).observers[i]? = some ⟨op, .done r⟩
  once : (after decode events).told.Nodup

theorem sound_nil : Sound decode [] where
  flag := rfl
  agree h := absurd h (by simp)
  telling h := absurd h (by simp)
  told h := absurd h (by simp)
  once := List.nodup_nil

theorem Sound.joins {events : List Event} (h : Sound decode events) (op : Operation) :
    Sound decode (events ++ [.joins op]) := by
  have heq : after decode (events ++ [.joins op]) = { after decode events with
      observers := (after decode events).observers ++ [⟨op, .begun⟩] } := after_concat events _
  -- an observer is an earlier one, or the new one
  have hget : ∀ {i : Nat} {observer : Observer α},
      ((after decode events).observers ++ [⟨op, .begun⟩])[i]? = some observer →
      (after decode events).observers[i]? = some observer ∨ observer = ⟨op, .begun⟩ := by
    intro i observer hi
    rcases Nat.lt_or_ge i (after decode events).observers.length with hlt | hge
    · exact .inl (List.getElem?_append_left hlt |>.symm.trans hi)
    · have hnew := List.getElem?_append_right hge |>.symm.trans hi
      exact .inr (List.mem_singleton.mp (List.mem_of_getElem? hnew))
  constructor
  · rw [heq]
    exact h.flag
  · intro i observer hi
    rw [heq] at hi ⊢
    rcases hget hi with hold | rfl
    · exact h.agree hold
    · trivial
  · intro i op' o hi
    rw [heq] at hi
    rcases hget hi with hold | hnew
    · exact (h.telling hold).concat _
    · exact absurd hnew (by simp)
  · intro i hi
    rw [heq] at hi ⊢
    obtain ⟨hfills, op', r, hdone⟩ := h.told hi
    exact ⟨hfills.concat _, op', r, List.getElem?_append_left
      (List.getElem?_eq_some_iff.mp hdone).1 |>.trans hdone⟩
  · rw [heq]
    exact h.once

theorem Sound.move {events : List Event} (h : Sound decode events) {i : Nat}
    {observer : Observer α} (hi : (after decode events).observers[i]? = some observer)
    (turn : Turn) : Sound decode (events ++ [.turn i turn]) := by
  have heq : after decode (events ++ [.turn i turn])
      = (after decode events).move decode i observer turn := by
    rw [after_concat, step_turn hi]
  have hself : ((after decode events).move decode i observer turn).observers[i]?
      = some ⟨observer.operation, ((after decode events).slot.access decode observer turn).2⟩ := by
    rw [getElem?_move _ hi, if_pos rfl]
  have hother : ∀ {j}, i ≠ j → ((after decode events).move decode i observer turn).observers[j]?
      = (after decode events).observers[j]? := by
    intro j hij
    rw [getElem?_move _ hi, if_neg hij]
  constructor
  · rw [heq]
    exact flag_access h.flag observer turn
  · intro j other hj
    rw [heq] at hj ⊢
    by_cases hij : i = j
    · subst hij
      rw [hself] at hj
      cases hj
      exact agrees_access h.flag (h.agree hi) turn
    · rw [hother hij] at hj
      exact (h.agree hj).access observer turn
  · intro j op o hj
    rw [heq] at hj
    by_cases hij : i = j
    · subst hij
      rw [hself] at hj
      cases hj' : ((after decode events).slot.access decode observer turn).2 with
      | telling o' =>
        obtain ⟨e, hcancels, hnone, hfull⟩ := fills_of_telling hj'
        refine ⟨events, turn, [], observer, e, rfl, hi, hcancels, hnone, ?_⟩
        rw [heq]
        exact hfull
      | begun | alerted | cancelling _ | done _ =>
        rw [hj'] at hj
        exact absurd hj (by simp)
    · rw [hother hij] at hj
      exact (h.telling hj).concat _
  · -- the observers that had told the pool are done, so none of them has the access now
    have hkept : ∀ {j}, j ∈ (after decode events).told →
        Fills decode (events ++ [.turn i turn]) j ∧ ∃ op r,
          ((after decode events).move decode i observer turn).observers[j]?
            = some ⟨op, .done r⟩ := by
      intro j hj
      obtain ⟨hfills, op, r, hdone⟩ := h.told hj
      refine ⟨hfills.concat _, op, r, ?_⟩
      by_cases hij : i = j
      · subst hij
        cases hi.symm.trans hdone
        exact hself
      · exact (hother hij).trans hdone
    intro j hj
    rw [heq] at hj ⊢
    obtain ⟨op, stage⟩ := observer
    cases stage with
    | telling o =>
      rcases List.mem_append.mp hj with hold | hnew
      · exact hkept hold
      · obtain rfl := List.mem_singleton.mp hnew
        exact ⟨(h.telling hi).concat _, op, _, hself⟩
    | begun | alerted | cancelling _ | done _ => exact hkept hj
  · rw [heq]
    obtain ⟨op, stage⟩ := observer
    cases stage with
    | telling o =>
      refine List.Nodup.append h.once (List.nodup_singleton i) fun j hj hnew => ?_
      -- it has not told the pool before, for it would be done
      obtain rfl := List.mem_singleton.mp hnew
      obtain ⟨-, op', r, hdone⟩ := h.told hj
      exact absurd (hi.symm.trans hdone) (by simp)
    | begun | alerted | cancelling _ | done _ => exact h.once

/-- Every sequence of events is sound. -/
theorem sound (decode : Bytes → Outcome α) (events : List Event) : Sound decode events := by
  induction events using List.reverseRecOn with
  | nil => exact sound_nil
  | append_singleton events event ih =>
    cases event with
    | joins op => exact ih.joins op
    | turn i turn =>
      cases hi : (after decode events).observers[i]? with
      | some observer => exact ih.move hi turn
      | none =>
        -- no observer has this number
        have heq : after decode (events ++ [.turn i turn]) = after decode events := by
          rw [after_concat, Scene.step, hi]
        exact
          { flag := heq ▸ ih.flag
            agree := by rw [heq]; exact ih.agree
            telling := fun hj => (ih.telling (heq ▸ hj)).concat _
            told := fun hj => by
              rw [heq] at hj ⊢
              exact ⟨(ih.told hj).1.concat _, (ih.told hj).2⟩
            once := heq ▸ ih.once }

end Scene

/-! ## §5. What observers can rely on. -/

open Scene

/-- What the observers of a call can rely on after some events. -/
structure Agreement (decode : Bytes → Outcome α) (events : List Event) : Prop where
  /-- Once it is filled, the slot is what it is. -/
  final : ∀ {earlier later : List Event}, events = earlier ++ later →
    (after decode earlier).slot.isFinished = true →
      (after decode events).slot = (after decode earlier).slot
  /-- An observer that waited for the outcome, or gave the call up, was given the outcome in the
  slot. -/
  returned : ∀ {i : Nat} {op : Operation} {o : Outcome α},
    (after decode events).observers[i]? = some ⟨op, .done (.outcome o)⟩ →
      (after decode events).slot.outcome = some o
  /-- An observer that looked and saw an outcome saw the one in the slot. -/
  seen : ∀ {i : Nat} {op : Operation} {o : Outcome α},
    (after decode events).observers[i]? = some ⟨op, .done (.seen (some o))⟩ →
      (after decode events).slot.outcome = some o
  /-- A response that cannot be read leaves the slot as it is, and is reported. -/
  unreadable : ∀ {i : Nat} {payload : Bytes} {e : Failure},
    (after decode events).observers[i]? = some ⟨.deliver payload, .begun⟩ →
    decode payload = .error e →
      (after decode (events ++ [.turn i .proceed])).slot = (after decode events).slot
        ∧ (after decode (events ++ [.turn i .proceed])).observers[i]?
          = some ⟨.deliver payload, .done (.delivered (.error e))⟩
  /-- The flag says whether the slot is filled. -/
  flag : (after decode events).slot.finished = (after decode events).slot.outcome.isSome
  /-- An observer that has seen the flag collects what is in the slot, and never has to do
  without. -/
  collected : ∀ {i : Nat} {op : Operation},
    (after decode events).observers[i]? = some ⟨op, .alerted⟩ →
      (after decode events).slot.outcome = some (after decode events).slot.collect
  /-- An observer that comes to cancel a call that has an outcome changes nothing, does not tell the
  pool, and returns the outcome. -/
  late : ∀ {i : Nat} {observer : Observer α} {e : Failure} {o : Outcome α},
    (after decode events).observers[i]? = some observer → observer.cancels? = some e →
    (after decode events).slot.outcome = some o →
      (after decode (events ++ [.turn i .proceed])).slot = (after decode events).slot
        ∧ (after decode (events ++ [.turn i .proceed])).told = (after decode events).told
        ∧ (after decode (events ++ [.turn i .proceed])).observers[i]?
          = some ⟨observer.operation, .done (observer.operation.closing o)⟩
  /-- The pool is told at most once that the call is off, -/
  told_once : (after decode events).told.length ≤ 1
  /-- and only by the observer whose cancellation filled the slot. -/
  told_by : ∀ {i : Nat}, i ∈ (after decode events).told → Fills decode events i

theorem told_length_le_one {events : List Event} (h : Sound decode events) :
    (after decode events).told.length ≤ 1 := by
  match htold : (after decode events).told with
  | [] => exact Nat.zero_le 1
  | [_] => exact Nat.le_refl 1
  | i :: j :: rest =>
    -- both would have filled the slot, so they would be the same one twice
    have hnodup := h.once
    have hi := (h.told (i := i) (by simp [htold])).1
    have hj := (h.told (i := j) (by simp [htold])).1
    rw [htold, hi.unique hj] at hnodup
    exact absurd hnodup (by simp)

/-- **One outcome, and every observer is shown it.**  However many observers share the slot of a
call, whatever they do with it, and however their accesses follow each other, the slot is filled at
most once and is final from then on, an observer that returns an outcome returns the one in the
slot, and the pool is told at most once that the call is off, by the observer whose cancellation is
the outcome. -/
theorem observers_agree_on_the_outcome (decode : Bytes → Outcome α) (events : List Event) :
    Agreement decode events where
  final := by
    rintro earlier later rfl hfull
    exact slot_after_of_isFinished hfull later
  returned hi := (sound decode events).agree hi
  seen hi := (sound decode events).agree hi
  unreadable := by
    intro i payload e hi he
    have haccess : (after decode events).slot.access decode ⟨.deliver payload, .begun⟩ .proceed
        = ((after decode events).slot, .done (.delivered (.error e))) := by
      simp [access, enter, deliver, he]
    rw [after_concat, step_turn hi]
    exact ⟨congrArg Prod.fst haccess, by rw [getElem?_move _ hi, if_pos rfl, haccess]⟩
  flag := (sound decode events).flag
  collected := by
    intro i op hi
    obtain ⟨o, ho⟩ := Option.isSome_iff_exists.mp ((sound decode events).agree hi)
    rw [collect, ho, Option.getD_some]
  late := by
    intro i observer e o hi hcancels ho
    have haccess := access_cancels decode hcancels ho
    rw [after_concat, step_turn hi]
    refine ⟨congrArg Prod.fst haccess, ?_, by rw [getElem?_move _ hi, if_pos rfl, haccess]⟩
    -- the observer that comes to cancel is not the one that tells the pool
    obtain ⟨op, stage⟩ := observer
    cases stage with
    | telling o' => exact absurd hcancels (by simp [Observer.cancels?])
    | begun | alerted | cancelling _ | done _ => rfl
  told_once := told_length_le_one (sound decode events)
  told_by hi := ((sound decode events).told hi).1

end RemoteCall.Slot
