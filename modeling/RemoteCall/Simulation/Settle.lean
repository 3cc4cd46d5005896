/-
  RemoteCall.Simulation.Settle
  ────────────────────────────
  **LETTING A WORLD RUN.**

  A world settles when every task has made all the steps that it has without
  the clock moving.  The clock then jumps to the next moment at which a task
  has something to do by itself, and the world settles again.

  Waiting for the answer of a pool lets less than that happen: the pools look at
  what they were told, the endpoints that were started or dropped get to it, and
  nothing else is sure to have moved.

      settle      — everything that happens at this moment
      attend      — what happens before a pool answers
      passUntil   — everything that happens up to some moment
-/
import RemoteCall.Simulation.Calling
import RemoteCall.Simulation.Serving

namespace RemoteCall.Simulation.World

/-! ## §1. One moment. -/

/-- One task makes a step, if any has one. -/
def move? (w : World) : Option World :=
  w.takeTurn? <|> w.moveCaller? <|> w.moveServer?

/-- A pool takes a turn, or an endpoint that was started or dropped gets to it. -/
def answer? (w : World) : Option World :=
  w.takeTurn? <|> (List.range w.pools.length).findSome? w.turnPool?

/-- Makes at most so many steps. -/
def moveWithin (next? : World → Option World) : Nat → World → World
  | 0, w => w
  | n + 1, w =>
    match next? w with
    | some moved => moveWithin next? n moved
    | none => w

/-- The most steps that are made at one moment.  A world that makes as many would never settle. -/
def settleLimit : Nat := 1000000

/-- Makes all steps that there are. -/
def settle (w : World) : World :=
  w.moveWithin move? settleLimit

/-- Makes the steps that there are before a pool answers. -/
def attend (w : World) : World :=
  w.moveWithin answer? settleLimit

/-! ## §2. One moment after another. -/

/-- When a task has something to do by itself. -/
def wakeup? (w : World) : Option Time :=
  (w.callerWakeups ++ w.serverWakeups).min?

/-- The next moment at which something may happen, `target` at the latest. -/
def nextMoment (w : World) (target : Time) : Time :=
  match w.wakeup? with
  | some t => min t target
  | none => target

/-- Lets time pass, from moment to moment, until `isOver` holds or `target` has come; at most so
many moments are visited. -/
def passWithin (isOver : World → Bool) (target : Time) : Nat → World → World
  | 0, w => w
  | n + 1, w =>
    let settled := w.settle
    if isOver settled || target ≤ settled.now then settled
    else passWithin isOver target n { settled with now := settled.nextMoment target }

/-- Lets time pass until `isOver` holds or `target` has come.  Each moment is later than the one
before it, so there are no more of them than milliseconds. -/
def passUntil (w : World) (isOver : World → Bool) (target : Time) : World :=
  w.passWithin isOver target (target - w.now + 1)

end RemoteCall.Simulation.World
