/-
  RemoteCall.Pool.Lookout
  ───────────────────────
  **A POOL, ITS DIRECTORY, AND THE CHANGES OF IT.**

  A change of the directory takes two accesses to it: one to the entry of the
  agent, and one to the count of changes.  A pool takes more of them.  It learns
  that the count has changed, it notes the count, and it reads the peers of one
  agent after the other; and whenever it does what is due, it reads the peers of
  each agent to which it has to connect.  Between any two of these accesses any
  others may take place.  What a connection does between two accesses cannot be
  seen, so it is done with the access before it.

      Change, alter      — a change, and its access to the entry
      Stage              — how far the pool has come with its turn
      Lookout            — the pool, the directory, the changes in progress
      Lookout.own        — one access of the pool
      Lookout.act, after — whatever happens next, and one thing after the other
-/
import RemoteCall.Pool.Turn

namespace RemoteCall

/-! ## §1. Changes, taken apart. -/

namespace Directory

/-- A change of a directory. -/
inductive Change where
  /-- A peer of an agent is added. -/
  | register (name : AgentName) (peer : PeerName)
  /-- The peers of an agent are replaced. -/
  | set (name : AgentName) (peers : List PeerName)
  /-- An agent is forgotten. -/
  | remove (name : AgentName)
  deriving Repr

/-- The agent whose entry is changed. -/
def Change.agent : Change → AgentName
  | .register name _ | .set name _ | .remove name => name

/-- The whole of a change. -/
def change (d : Directory) : Change → Directory
  | .register name peer => d.register name peer
  | .set name peers => d.set name peers
  | .remove name => d.remove name

/-- The entry is changed; whether that is to be announced. -/
def alter (d : Directory) : Change → Directory × Bool
  | .register name peer => (d.enter name (withPeer (d.peers name) peer), true)
  | .set name peers => (d.enter name peers, true)
  | .remove name => if d.knows name then (d.strike name, true) else (d, false)

end Directory

namespace Pool

/-! ## §2. Turns, taken apart. -/

/-- The count of changes is noted. -/
def see (p : Pool) (directory : Directory) : Pool :=
  { p with subscription := .start directory }

/-- One of the connections has moved. -/
def place (p : Pool) (n : Nat) (moved : Moved) : Pool :=
  { p with connections := p.connections.set n moved.connection, ledger := moved.ledger }

/-- Spent connections are removed. -/
def shed (p : Pool) (now : Time) : Stepped :=
  ({ p with connections := p.connections.filter (!·.isSpent p.config now) },
    (p.connections.filter (·.isSpent p.config now)).flatMap (·.leave))

/-- How far the pool has come with its turn. -/
inductive Stage where
  /-- It waits for something to look at. -/
  | resting
  /-- It has learned that the directory has changed. -/
  | told
  /-- It reconsiders one connection after the other, and has come so far. -/
  | reconsidering (n : Nat)
  /-- It does what is due on one connection after the other, and has come so far. -/
  | advancing (n : Nat)
  deriving DecidableEq, Repr

/-- A pool that attends to a directory. -/
structure Lookout where
  pool : Pool
  directory : Directory
  /-- The changes whose entry has been changed and that have not been announced. -/
  changes : List Directory.Change := []
  stage : Stage := .resting

namespace Lookout

/-- What happens next. -/
inductive Act where
  /-- The pool has an access. -/
  | own (env : Surroundings) (now : Time)
  /-- An entry of the directory is being changed. -/
  | change (change : Directory.Change)
  /-- One of the changes in progress is announced. -/
  | announce (i : Nat)
  /-- The slot of a new call is opened. -/
  | issue (shape : Payload.Shape)
  /-- A caller or an observer records a failure of a call. -/
  | settle (id : CallId) (e : Failure)
  /-- A caller asks for something. -/
  | send (command : Command)
  /-- An attempt or a link reports something. -/
  | report (notice : Notice)
  /-- The pool is asked to stop. -/
  | stop

/-- The outside, with the directory as it is. -/
def around (x : Lookout) (env : Surroundings) : Surroundings :=
  { env with lookup := x.directory.peers }

/-- One access of the pool. -/
def own (env : Surroundings) (now : Time) (x : Lookout) : Lookout × List Effect :=
  match x.stage with
  | .resting =>
    match x.pool.subject? now x.directory with
    | none => (x, [])
    | some (.directory directory) => ({ x with pool := x.pool.see directory, stage := .told }, [])
    | some subject =>
      let (pool, effects) := x.pool.look (x.around env) now subject
      ({ x with pool, stage := .advancing 0 }, effects)
  -- there may have been another change since the pool was told
  | .told => ({ x with pool := x.pool.see x.directory, stage := .reconsidering 0 }, [])
  | .reconsidering n =>
    match x.pool.connections[n]? with
    | some c =>
      let moved := c.reconsider (x.around env) x.pool.config now x.pool.ledger
      ({ x with pool := x.pool.place n moved, stage := .reconsidering (n + 1) }, moved.effects)
    | none => ({ x with stage := .advancing 0 }, [])
  | .advancing n =>
    match x.pool.connections[n]? with
    | some c =>
      let moved := c.advance (x.around env) x.pool.config now x.pool.ledger
      ({ x with pool := x.pool.place n moved, stage := .advancing (n + 1) }, moved.effects)
    | none =>
      let (pool, effects) := x.pool.shed now
      ({ x with pool, stage := .resting }, effects)

/-- What is there after something has happened, and the effects on the outside. -/
def act (x : Lookout) : Act → Lookout × List Effect
  | .own env now => x.own env now
  | .change change =>
    let (directory, owed) := x.directory.alter change
    ({ x with directory, changes := if owed then x.changes ++ [change] else x.changes }, [])
  | .announce i =>
    match x.changes[i]? with
    | some _ =>
      ({ x with directory := x.directory.announce, changes := x.changes.eraseIdx i }, [])
    | none => (x, [])
  | .issue shape =>
    ({ x with
        pool :=
          { x.pool with
            nextCall := x.pool.nextCall + 1
            ledger := x.pool.ledger.issue x.pool.nextCall shape } }, [])
  | .settle id e => ({ x with pool := x.pool.fail id e }, [])
  | .send command => ({ x with pool := (x.pool.send command).1 }, [])
  | .report notice => ({ x with pool := { x.pool with notices := x.pool.notices ++ [notice] } }, [])
  | .stop => ({ x with pool := x.pool.stop }, [])

/-- What is there after several things have happened, and all effects on the outside. -/
def after (x : Lookout) : List Act → Lookout × List Effect
  | [] => (x, [])
  | act :: rest =>
    let (y, effects) := x.act act
    let (z, more) := y.after rest
    (z, effects ++ more)

end Lookout

end Pool

end RemoteCall
