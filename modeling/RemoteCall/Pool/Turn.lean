/-
  RemoteCall.Pool.Turn
  ────────────────────
  **ONE TURN OF A POOL.**

  The pool looks at one thing at a time, in this order of preference: that it
  has to stop, a command, a notice, a change of the directory, a timer.  After
  each of them every connection does what is due, and spent connections are
  removed.

      command, notice, directoryChanged — the pool looks at one thing
      advance                           — whatever is due
      teardown                          — the pool stops
      subject?, look                    — what is looked at next, and looking at it
      turn?                             — one turn, if there is anything to do
-/
import RemoteCall.Pool.Basic
import RemoteCall.Pool.Transition

namespace RemoteCall

namespace Pool

/-- What a step of the pool comes to. -/
abbrev Stepped := Pool × List Effect

/-! ## §1. Reaching connections. -/

/-- Makes sure that there is a connection for a key. -/
def withConnection (p : Pool) (now : Time) (key : ConnectionKey) : Pool :=
  match p.connection? key with
  | some _ => p
  | none => { p with connections := p.connections ++ [.new key now] }

/-- Changes the connection for a key. -/
def modify (p : Pool) (key : ConnectionKey) (f : Connection → Connection) : Pool :=
  { p with connections := p.connections.map fun c => if c.key = key then f c else c }

/-- Moves the connection for a key. -/
def settle (p : Pool) (moved : Moved) : Stepped :=
  ({ p.modify moved.connection.key (fun _ => moved.connection) with ledger := moved.ledger },
    moved.effects)

/-- Moves each connection in turn. -/
def moveAll (f : Connection → Ledger → Moved) :
    List Connection → Ledger → List Connection × Ledger × List Effect
  | [], ledger => ([], ledger, [])
  | c :: rest, ledger =>
    let moved := f c ledger
    let (cs, ledger, effects) := moveAll f rest moved.ledger
    (moved.connection :: cs, ledger, moved.effects ++ effects)

/-! ## §2. Whatever is due. -/

/-- Every connection does what is due; spent ones are removed. -/
def advance (env : Surroundings) (now : Time) (p : Pool) : Stepped :=
  let (cs, ledger, effects) := moveAll (Connection.advance env p.config now) p.connections p.ledger
  let spent := cs.filter (·.isSpent p.config now)
  ({ p with connections := cs.filter (!·.isSpent p.config now), ledger },
    effects ++ spent.flatMap (·.leave))

/-- When the pool has something to do by itself. -/
def wakeup? (p : Pool) : Option Time :=
  (p.connections.flatMap (·.wakeups p.config)).min?

/-! ## §3. One thing at a time. -/

/-- Lets go of a call in the first of the connections that holds it. -/
def cancelIn (env : Surroundings) (id : CallId) : List Connection → List Connection × List Effect
  | [] => ([], [])
  | c :: rest =>
    match c.cancel? env id with
    | some (c, effects) => (c :: rest, effects)
    | none =>
      let (rest, effects) := cancelIn env id rest
      (c :: rest, effects)

/-- Looks at a command. -/
def command (env : Surroundings) (now : Time) (p : Pool) : Command → Stepped
  | .call key call =>
    if p.ledger.isFinished call.id then (p, [])
    else
      ((p.withConnection now key).modify key fun c => { c with waiting := c.waiting ++ [call] }, [])
  | .abort id =>
    let (connections, effects) := cancelIn env id p.connections
    ({ p with connections }, effects)
  | .acquire key =>
    ((p.withConnection now key).modify key fun c => { c with handles := c.handles + 1 }, [])
  | .release key => (p.modify key fun c => { c with handles := c.handles - 1 }, [])

/-- The stream that a notice hands over is closed if no connection takes it. -/
def dropNotice : Notice → List Effect
  | .connected _ _ _ link => [.close link]
  | _ => []

/-- Looks at a notice that belongs to the current attempt of a connection. -/
def attend (p : Pool) (c : Connection) (notice : Notice) : Stepped :=
  match notice, c.phase with
  | .connected _ _ peer link, .connecting _ =>
    let (c, effects) := c.attach peer link
    p.settle { connection := c, ledger := p.ledger, effects }
  | .connectFailed _ _ e, .connecting _ => p.settle (c.lose p.config e p.ledger)
  | .response _ _ frame, _ => p.settle (c.respond p.config frame p.ledger)
  | .failed _ _ e, .connected _ => p.settle (c.lose p.config e p.ledger)
  | _, _ => (p, dropNotice notice)

/-- Looks at a notice.  One that belongs to another attempt is dropped. -/
def notice (p : Pool) (notice : Notice) : Stepped :=
  match p.connection? notice.key with
  | some c => if c.generation = notice.generation then p.attend c notice else (p, dropNotice notice)
  | none => (p, dropNotice notice)

/-- Looks at a change of the directory. -/
def directoryChanged (env : Surroundings) (now : Time) (directory : Directory) (p : Pool) :
    Stepped :=
  let (connections, ledger, effects) :=
    moveAll (Connection.reconsider env p.config now) p.connections p.ledger
  ({ p with connections, ledger, subscription := .start directory }, effects)

/-! ## §4. Stopping. -/

/-- No more commands are taken. -/
def closeQueue (p : Pool) : Pool :=
  { p with accepting := false }

/-- Every connection is given up, and its calls are told that the pool is gone. -/
def abandonAll (p : Pool) : Stepped :=
  let step (acc : Ledger × List Effect) (c : Connection) :=
    let (ledger, effects) := c.abandon acc.1
    (ledger, acc.2 ++ effects)
  let (ledger, effects) := p.connections.foldl step (p.ledger, [])
  ({ p with connections := [], ledger }, effects)

/-- The calls of the commands that are left are told that the pool is gone. -/
def drainQueue (p : Pool) : Pool :=
  let failCall (ledger : Ledger) : Command → Ledger
    | .call _ call => ledger.fail call.id .disconnected
    | _ => ledger
  { p with commands := [], ledger := p.commands.foldl failCall p.ledger }

/-- The pool stops. -/
def teardown (p : Pool) : Stepped :=
  let (abandoned, effects) := p.closeQueue.abandonAll
  ({ abandoned.drainQueue with notices := [], stopped := true },
    effects ++ p.notices.flatMap dropNotice)

/-! ## §5. Turns. -/

/-- Does what is due after a step. -/
def thenAdvance (env : Surroundings) (now : Time) (stepped : Stepped) : Stepped :=
  let (p, effects) := stepped.1.advance env now
  (p, stepped.2 ++ effects)

/-- Whether a timer is due. -/
def isDue (p : Pool) (now : Time) : Bool :=
  match p.wakeup? with
  | some t => t ≤ now
  | none => false

/-- What the pool may look at in a turn. -/
inductive Subject where
  /-- That it has to stop. -/
  | stop
  /-- The command at the head of the queue. -/
  | command (first : Command)
  /-- The notice at the head of the queue. -/
  | notice (first : Notice)
  /-- A change of the directory. -/
  | directory (directory : Directory)
  /-- A timer. -/
  | timer

/-- What the pool looks at next, in its order of preference. -/
def subject? (now : Time) (directory : Directory) (p : Pool) : Option Subject :=
  if p.stopped then none
  else if p.stopping then some .stop
  else
    match p.commands, p.notices with
    | first :: _, _ => some (.command first)
    | [], first :: _ => some (.notice first)
    | [], [] =>
      if p.subscription.isStale directory then some (.directory directory)
      else if p.isDue now then some .timer
      else none

/-- Looks at a subject. -/
def look (env : Surroundings) (now : Time) (p : Pool) : Subject → Stepped
  | .stop => p.teardown
  | .command first => { p with commands := p.commands.tail }.command env now first
  | .notice first => { p with notices := p.notices.tail }.notice first
  | .directory directory => p.directoryChanged env now directory
  | .timer => (p, [])

/-- One turn of the pool, if there is anything to do: a subject is looked at, and what is due is
done. -/
def turn? (env : Surroundings) (now : Time) (directory : Directory) (p : Pool) : Option Stepped :=
  (p.subject? now directory).map fun subject => thenAdvance env now (p.look env now subject)

end Pool

end RemoteCall
