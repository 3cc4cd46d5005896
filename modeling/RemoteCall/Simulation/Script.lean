/-
  RemoteCall.Simulation.Script
  ────────────────────────────
  **SCRIPTS THAT DRIVE A WORLD.**

  A script is a list of steps.  A step is an action, something that takes time,
  or several steps of which each begins where the one before it has ended.
  After each step of the script the world settles and makes a report; within a
  step of several it settles only if one of them waits.
-/
import RemoteCall.Simulation.Action

namespace RemoteCall.Simulation

/-! ## §1. Steps. -/

/-- What a script may do between two reports. -/
inductive Step where
  | one (action : Action)
  /-- Several steps with no report between them. -/
  | batch (steps : List Step)
  | wait (ms : Nat)
  /-- Issue a call and wait for its outcome. -/
  | request (plan : CallPlan)
  /-- Wait for the outcome of a call, for so many milliseconds at most. -/
  | pop (name : String) (timeout : Option Nat)
  | read (name : String) (count : Nat)

namespace World

/-! ## §2. Steps that take time. -/

/-- How long the outcome of a call is waited for at most, in milliseconds. -/
def maxWait : Nat := 60000

/-- Waits for the outcome of a call until its caller loses patience, but not for ever. -/
def await (w : World) (pool : Nat) (id : CallId) (deadline : Option Time) : Acted :=
  let limit := w.now + maxWait
  let target := min limit (deadline.getD limit)
  let passed := w.passUntil (·.isFinished pool id) target
  if passed.isFinished pool id || deadline.any (· ≤ limit) then
    passed.cancelCall pool id .timeout
  else (passed, .pending)

/-- Issues a call and waits for its outcome; if there is none the call is let go of. -/
def request (w : World) (plan : CallPlan) : Acted :=
  match w.issue? plan with
  | some (issued, pool, id) =>
    let (waited, reply) := issued.await pool id (plan.timeout.map (w.now + ·))
    (waited.mapPool pool (·.releaseCall id), reply)
  | none => (w, .unknown "pool")

/-- Takes at most `count` bytes off a socket, in at most `tries` pieces. -/
def read (name : String) : (tries count : Nat) → World → World × List Received × Nat
  | 0, count, w => (w, [], count)
  | tries + 1, count, w =>
    match w.socket? name with
    | none => (w, [], count)
    | some (s, i) =>
      match w.takeFrom i s count with
      | (w, items, 0) => (w, items, count)
      | (w, items, n) =>
        let (w, more, unread) := read name tries (count - n) w.settle
        (w, items ++ more, unread)

/-! ## §3. Scripts. -/

mutual

/-- Does a step. -/
def stepOnce : Step → World → Acted
  | .one action, w => w.act action
  | .batch steps, w =>
    let (w, replies) := stepEach steps w
    (w, .several replies)
  | .wait ms, w => (w.passUntil (fun _ => false) (w.now + ms), .nothing)
  | .request plan, w => w.request plan
  | .pop name timeout, w =>
    match w.call? name with
    | some call => w.await call.pool call.id (timeout.map (w.now + ·))
    | none => (w, .unknown name)
  | .read name count, w =>
    if (w.socket? name).isSome then
      let (w, items, unread) := read name (count + 1) count w
      (w, .taken (Received.sortCancels items) unread)
    else (w, .unknown name)

/-- Does several steps. -/
def stepEach : List Step → World → World × List Reply
  | [], w => (w, [])
  | s :: rest, w =>
    let (w, reply) := stepOnce s w
    let (w, replies) := stepEach rest w
    (w, reply :: replies)

end

/-- Does a step, lets the world settle, and makes a report. -/
def step (w : World) (s : Step) : World × Reply × Report :=
  let (w, reply) := stepOnce s w
  let (w, report) := w.settle.report
  (w, reply, report)

/-- Does all steps of a script. -/
def run : List Step → World → List (Reply × Report)
  | [], _ => []
  | s :: rest, w =>
    let (w, reply, report) := w.step s
    (reply, report) :: run rest w

end World

end RemoteCall.Simulation
