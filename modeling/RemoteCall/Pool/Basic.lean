/-
  RemoteCall.Pool.Basic
  ─────────────────────
  **A POOL AS ITS CALLERS SEE IT.**

  Callers never wait for the pool and are never told that an agent cannot be
  reached: what they want is queued as a command, and what comes of a call is
  found in its slot.  A request that cannot be written, or is too large to be
  sent, settles its call at once; so does a pool that takes no more commands.
-/
import RemoteCall.Directory
import RemoteCall.Pool.Connection

namespace RemoteCall

/-! ## §1. Pools. -/

/-- What a caller asks of the pool. -/
inductive Command where
  /-- Run a call. -/
  | call (key : ConnectionKey) (call : PendingCall)
  /-- Let go of a call that was given up. -/
  | abort (id : CallId)
  /-- A handle was taken. -/
  | acquire (key : ConnectionKey)
  /-- A handle was dropped. -/
  | release (key : ConnectionKey)
  deriving Repr

/-- What an attempt or a link reports, and which attempt it belongs to. -/
inductive Notice where
  /-- The attempt has reached a peer. -/
  | connected (key : ConnectionKey) (generation : Nat) (peer : PeerName) (link : LinkId)
  /-- The attempt has reached no peer. -/
  | connectFailed (key : ConnectionKey) (generation : Nat) (e : Failure)
  /-- A response frame has arrived. -/
  | response (key : ConnectionKey) (generation : Nat) (frame : ResponseFrame)
  /-- The link has failed. -/
  | failed (key : ConnectionKey) (generation : Nat) (e : Failure)
  deriving Repr

namespace Notice

/-- The connection that a notice is for. -/
def key : Notice → ConnectionKey
  | .connected key _ _ _ | .connectFailed key _ _ | .response key _ _ | .failed key _ _ => key

/-- The number of the attempt that a notice belongs to. -/
def generation : Notice → Nat
  | .connected _ n _ _ | .connectFailed _ n _ | .response _ n _ | .failed _ n _ => n

end Notice

/-- A pool of connections. -/
structure Pool where
  /-- The settings. -/
  config : PoolConfig
  /-- The number of the next call. -/
  nextCall : CallId := 1
  /-- The slots of the calls. -/
  ledger : Ledger := {}
  /-- What callers have asked for and the pool has not looked at, in order. -/
  commands : List Command := []
  /-- Whether commands are still taken. -/
  accepting : Bool := true
  /-- What attempts and links have reported and the pool has not looked at, in order. -/
  notices : List Notice := []
  /-- What the pool has seen of the directory. -/
  subscription : Subscription
  /-- Whether the pool has been asked to stop. -/
  stopping : Bool := false
  /-- Whether the pool has stopped. -/
  stopped : Bool := false
  /-- The connections, the oldest first. -/
  connections : List Connection := []

namespace Pool

/-- A pool with checked settings, subscribed to a directory. -/
def new (config : PoolConfig) (directory : Directory) : Outcome Pool :=
  (config.validate).map fun _ => { config, subscription := .start directory }

/-- The connection for a key. -/
def connection? (p : Pool) (key : ConnectionKey) : Option Connection :=
  p.connections.find? (·.key == key)

/-- Queues a command; whether it was taken. -/
def send (p : Pool) (command : Command) : Pool × Bool :=
  if p.accepting then ({ p with commands := p.commands ++ [command] }, true) else (p, false)

/-! ## §2. Calls. -/

/-- What a caller may say about a call besides the request. -/
structure CallOptions where
  /-- When the call times out. -/
  deadline : Option Time := none
  /-- Whether the request may be sent again after a response that cannot be read. -/
  idempotent : Bool := false
  deriving Repr, Inhabited

/-- Whether a request may be sent under the limit of the pool. -/
def checkSize (p : Pool) (request : Bytes) : Outcome Unit :=
  let size := requestHeaderLength + request.length
  if p.config.maxMessageSize < size then .error (.messageTooLarge size p.config.maxMessageSize)
  else .ok ()

/-- Records a failure of a call. -/
def fail (p : Pool) (id : CallId) (e : Failure) : Pool :=
  { p with ledger := p.ledger.fail id e }

/-- Issues a call: its number, which is also that of its slot. -/
def call (p : Pool) (key : ConnectionKey) (options : CallOptions) (request : Payload.Outgoing)
    (response : Payload.Shape) : Pool × CallId :=
  let id := p.nextCall
  let issued : Pool := { p with nextCall := id + 1, ledger := p.ledger.issue id response }
  match request.encode with
  | .error e => (issued.fail id e, id)
  | .ok bytes =>
    match issued.checkSize bytes with
    | .error e => (issued.fail id e, id)
    | .ok _ =>
      match issued.send (.call key ⟨id, bytes, options.deadline, options.idempotent, 0⟩) with
      | (queued, true) => (queued, id)
      | (refused, false) => (refused.fail id .disconnected, id)

/-- Gives up a call with a failure, unless it has an outcome; the pool is told if it had none. -/
def cancel (p : Pool) (id : CallId) (e : Failure) : Pool :=
  match p.ledger.cancel id e with
  | (ledger, true) => ({ p with ledger }.send (.abort id)).1
  | (ledger, false) => { p with ledger }

/-- Lets go of a call: it is aborted if it has no outcome. -/
def releaseCall (p : Pool) (id : CallId) : Pool :=
  if p.ledger.isFinished id then p else p.cancel id .aborted

/-! ## §3. Handles. -/

/-- Takes a handle on a connection. -/
def acquire (p : Pool) (key : ConnectionKey) : Pool :=
  (p.send (.acquire key)).1

/-- Drops a handle on a connection. -/
def release (p : Pool) (key : ConnectionKey) : Pool :=
  (p.send (.release key)).1

/-! ## §4. Stopping and statistics. -/

/-- Asks the pool to stop. -/
def stop (p : Pool) : Pool :=
  { p with stopping := true }

/-- Whether the statistics of one connection come before those of another: by agent, then by
interface. -/
def statsBefore (a b : ConnectionStats) : Bool :=
  match a.agent.order b.agent with
  | .lt => true
  | .eq => a.interface ≤ b.interface
  | .gt => false

/-- The statistics of all connections, sorted by agent and interface. -/
def stats (p : Pool) : List ConnectionStats :=
  (p.connections.map (·.stats)).mergeSort statsBefore

/-- The statistics of the first connection to an agent. -/
def statsOf? (p : Pool) (agent : AgentName) : Option ConnectionStats :=
  p.stats.find? (·.agent == agent)

end Pool

end RemoteCall
