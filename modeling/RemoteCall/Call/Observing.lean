/-
  RemoteCall.Call.Observing
  ─────────────────────────
  **THE OBSERVERS OF A CALL SHARE ITS SLOT.**

  The pool, the observers that wait for a call or give it up, and the one that
  lets go of it work on one slot at the same time.  Each does its work in a few
  accesses, and between any two accesses of one of them any of the others may
  have theirs.

      Operation — what is done with a call
      Stage     — how far it has come
      access    — one access
      Scene     — the slot, its observers, and which of them have told the
                  pool that the call is off
-/
import RemoteCall.Call.Slot

namespace RemoteCall

namespace Slot

variable {α : Type}

/-! ## §1. What is done with a call. -/

/-- What the observers of a call do with its slot. -/
inductive Operation where
  /-- A response arrives. -/
  | deliver (payload : Bytes)
  /-- The call fails, in the pool or before it gets there. -/
  | fail (e : Failure)
  /-- Its outcome is waited for, for a limited time or without a limit. -/
  | pop (limited : Bool)
  /-- Its outcome is looked at. -/
  | tryPop
  /-- It is asked whether there is an outcome. -/
  | isFinished
  /-- It is given up. -/
  | abort
  /-- It is let go of. -/
  | drop
  deriving DecidableEq, Repr

/-- What an operation returns. -/
inductive Result (α : Type) where
  | nothing
  | delivered (reply : Outcome Unit)
  | outcome (o : Outcome α)
  | seen (o : Option (Outcome α))
  | finished (answer : Bool)

/-- How far an operation has come. -/
inductive Stage (α : Type) where
  /-- It has not had its first access, or still waits. -/
  | begun
  /-- It has seen the flag and collects the outcome next. -/
  | alerted
  /-- It has found that the call is to be cancelled, and does so next. -/
  | cancelling (e : Failure)
  /-- Its cancellation is the outcome, and the pool is told next. -/
  | telling (o : Outcome α)
  | done (r : Result α)

/-- What becomes of an observer whose turn it is. -/
inductive Turn where
  /-- It goes on with its work. -/
  | proceed
  /-- The time it was given for waiting is over. -/
  | expire
  deriving DecidableEq, Repr

/-- An observer that works on the slot. -/
structure Observer (α : Type) where
  operation : Operation
  stage : Stage α := .begun

/-! ## §2. One access. -/

/-- What an operation returns that has cancelled the call, or was too late to. -/
def Operation.closing (op : Operation) (o : Outcome α) : Result α :=
  match op with
  | .drop => .nothing
  | _ => .outcome o

/-- Cancels the call for an observer.  One whose failure is recorded has to tell the pool; any
other is done. -/
def cancelFor (s : Slot α) (op : Operation) (e : Failure) : Slot α × Stage α :=
  let (s, o, told) := s.cancel e
  (s, if told then .telling o else .done (op.closing o))

/-- The first access of an operation.  One that waits comes back to it. -/
def enter (decode : Bytes → Outcome α) (s : Slot α) (op : Operation) : Slot α × Stage α :=
  match op with
  | .deliver payload =>
    let (s, reply) := s.deliver decode payload
    (s, .done (.delivered reply))
  | .fail e => (s.fail e, .done .nothing)
  | .pop _ => (s, if s.finished then .alerted else .begun)
  | .tryPop => (s, .done (.seen s.outcome))
  | .isFinished => (s, .done (.finished s.isFinished))
  | .abort => s.cancelFor op .aborted
  | .drop => (s, if s.isFinished then .done .nothing else .cancelling .aborted)

/-- One access of an observer. -/
def access (decode : Bytes → Outcome α) (s : Slot α) (observer : Observer α) (turn : Turn) :
    Slot α × Stage α :=
  match observer.stage, turn with
  | .begun, .proceed => s.enter decode observer.operation
  | .begun, .expire =>
    (s, if observer.operation = .pop true then .cancelling .timeout else .begun)
  | .alerted, _ => (s, .done (.outcome s.collect))
  | .cancelling e, _ => s.cancelFor observer.operation e
  | .telling o, _ => (s, .done (observer.operation.closing o))
  | .done r, _ => (s, .done r)

/-! ## §3. All of them. -/

/-- The slot of a call, its observers in the order in which they came, and which of them have told
the pool that the call is off. -/
structure Scene (α : Type) where
  slot : Slot α := {}
  observers : List (Observer α) := []
  told : List Nat := []

/-- What happens: an observer sets to work on the slot, or has an access. -/
inductive Event where
  | joins (operation : Operation)
  | turn (observer : Nat) (turn : Turn)
  deriving DecidableEq, Repr

namespace Scene

/-- An observer has an access. -/
def move (decode : Bytes → Outcome α) (scene : Scene α) (i : Nat) (observer : Observer α)
    (turn : Turn) : Scene α :=
  let (slot, stage) := scene.slot.access decode observer turn
  { slot
    observers := scene.observers.set i { observer with stage }
    told := match observer.stage with
      | .telling _ => scene.told ++ [i]
      | _ => scene.told }

/-- What is there after an event. -/
def step (decode : Bytes → Outcome α) (scene : Scene α) : Event → Scene α
  | .joins operation => { scene with observers := scene.observers ++ [{ operation }] }
  | .turn i turn =>
    match scene.observers[i]? with
    | some observer => scene.move decode i observer turn
    | none => scene

/-- What is there after several events, from an empty slot on. -/
def after (decode : Bytes → Outcome α) (events : List Event) : Scene α :=
  events.foldl (step decode) {}

end Scene

end Slot

end RemoteCall
