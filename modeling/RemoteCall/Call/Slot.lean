/-
  RemoteCall.Call.Slot
  ────────────────────
  **THE ONE OUTCOME OF A CALL.**

  A call has one place for its outcome.  The first observer to settle fills it;
  from then on every observer is shown what is in it.  A flag beside the slot
  says that it is filled.

      settle     — fill the slot unless it is filled
      deliver    — settle with a response, if the response can be read
      cancel     — settle with a failure; tells whether the pool has to know
      collect    — what is given out once the flag is set
-/
import RemoteCall.Failure.Basic
import RemoteCall.Bytes

namespace RemoteCall

/-- The place for the outcome of a call. -/
structure Slot (α : Type) where
  /-- The outcome, once there is one. -/
  outcome : Option (Outcome α) := none
  /-- The flag on which the outcome is awaited. -/
  finished : Bool := false
  deriving Inhabited

namespace Slot

variable {α : Type}

/-! ## §1. Filling the slot. -/

/-- Fills the slot, unless it is filled.  Gives the outcome that is in the slot afterwards, and
whether it is this one. -/
def settle (s : Slot α) (o : Outcome α) : Slot α × Outcome α × Bool :=
  match s.outcome with
  | some existing => (s, existing, false)
  | none => (⟨some o, true⟩, o, true)

/-- Records a failure, unless an outcome is recorded. -/
def fail (s : Slot α) (e : Failure) : Slot α :=
  (s.settle (.error e)).1

/-- Records a response that can be read.  One that cannot be read is reported, and leaves the slot
as it is. -/
def deliver (s : Slot α) (decode : Bytes → Outcome α) (payload : Bytes) : Slot α × Outcome Unit :=
  match decode payload with
  | .ok v => ((s.settle (.ok v)).1, .ok ())
  | .error e => (s, .error e)

/-! ## §2. Observing it. -/

/-- Whether an outcome is recorded. -/
def isFinished (s : Slot α) : Bool :=
  s.outcome.isSome

/-- The outcome that is given out once the flag is set. -/
def collect (s : Slot α) : Outcome α :=
  s.outcome.getD (.error .disconnected)

/-- Stops waiting for the call with a failure, unless it has an outcome.  Gives the outcome, and
whether the pool has to be told that the call is off. -/
def cancel (s : Slot α) (e : Failure) : Slot α × Outcome α × Bool :=
  s.settle (.error e)

/-- Lets go of the call: it is aborted if it has no outcome. -/
def release (s : Slot α) : Slot α × Bool :=
  if s.isFinished then (s, false)
  else
    let (s, _, told) := s.cancel .aborted
    (s, told)

/-! ## §3. The first settlement. -/

/-- Filling the slot gives what is in it afterwards. -/
@[simp] theorem outcome_settle (s : Slot α) (o : Outcome α) :
    (s.settle o).1.outcome = some (s.settle o).2.1 := by
  cases h : s.outcome <;> simp [settle, h]

/-- The first to come fills an empty slot. -/
theorem settle_of_none {s : Slot α} (h : s.outcome = none) (o : Outcome α) :
    s.settle o = (⟨some o, true⟩, o, true) := by
  simp [settle, h]

/-- A later settlement changes nothing. -/
theorem settle_of_some {s : Slot α} {existing : Outcome α} (h : s.outcome = some existing)
    (o : Outcome α) : s.settle o = (s, existing, false) := by
  simp [settle, h]

end Slot

end RemoteCall
