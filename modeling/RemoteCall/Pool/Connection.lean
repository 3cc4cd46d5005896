/-
  RemoteCall.Pool.Connection
  ──────────────────────────
  **POOLED CONNECTIONS.**

  A pool keeps one connection for each agent and interface version.  Behind it
  stands at most one link, an established stream to one of the agent's peers:

      disconnected ──→ connecting ──→ connected ──→ errored ──→ disconnected
                            └───────────────────────────┘

  A call waits on its connection until it is sent on a link; then it is in
  flight under the sequence number of its frame.  When the link is lost, the
  calls in flight are charged one retry and wait again.

  This module holds the types and what may be asked of a connection; what
  happens to it is in `RemoteCall.Pool.Transition`.
-/
import RemoteCall.AgentName
import RemoteCall.Call.Ledger
import RemoteCall.Config.Pool
import RemoteCall.Frame.Basic
import RemoteCall.PeerName

namespace RemoteCall

/-- A moment, in milliseconds. -/
abbrev Time := Nat

/-- The number of an established stream. -/
abbrev LinkId := Nat

/-- What a pooled connection is for. -/
structure ConnectionKey where
  /-- The agent that is called. -/
  agent : AgentName
  /-- The interface version that is spoken. -/
  interface : UInt32
  deriving DecidableEq, Repr

/-- A call that the pool has accepted and that has no outcome as far as the pool knows. -/
structure PendingCall where
  /-- The number of the call. -/
  id : CallId
  /-- The written request, sent as it is on every attempt. -/
  request : Bytes
  /-- When the call times out. -/
  deadline : Option Time
  /-- Whether the request may be sent again after a response that cannot be read. -/
  idempotent : Bool
  /-- How often the call has been charged a retry. -/
  retries : UInt32 := 0
  deriving DecidableEq, Repr, Inhabited

/-- Whether the deadline of a call has come. -/
def PendingCall.isExpired (call : PendingCall) (now : Time) : Bool :=
  match call.deadline with
  | some deadline => deadline ≤ now
  | none => false

/-! ## §1. Links. -/

/-- The pool's side of an established stream. -/
structure Live where
  /-- The peer at the other end. -/
  peer : PeerName
  /-- The stream. -/
  link : LinkId
  /-- The sequence number of the next frame. -/
  next : SequenceNumber := 0
  /-- The calls that were sent and not answered, by sequence number. -/
  inFlight : List (SequenceNumber × PendingCall) := []
  /-- The sequence numbers of duplicates, whose responses are dropped. -/
  discarded : List SequenceNumber := []
  /-- Whether the agent has announced that it is shutting down. -/
  draining : Bool := false
  deriving Repr

namespace Live

/-- The calls in flight. -/
def calls (live : Live) : List PendingCall :=
  live.inFlight.map (·.2)

/-- The call that was sent under a sequence number. -/
def callAt? (live : Live) (n : SequenceNumber) : Option PendingCall :=
  (live.inFlight.find? (·.1 == n)).map (·.2)

/-- Puts a call in flight under a sequence number. -/
def put (live : Live) (n : SequenceNumber) (call : PendingCall) : Live :=
  { live with inFlight := live.inFlight.filter (·.1 != n) ++ [(n, call)] }

/-- Takes a call out of flight. -/
def takeOut (live : Live) (n : SequenceNumber) : Live :=
  { live with inFlight := live.inFlight.filter (·.1 != n) }

/-- Drops the response to a sequence number when it comes. -/
def discard (live : Live) (n : SequenceNumber) : Live :=
  { live with discarded := n :: live.discarded.filter (· != n) }

/-- The next sequence number is handed out. -/
def advance (live : Live) : Live :=
  { live with next := live.next.next }

end Live

/-! ## §2. Connections. -/

/-- How far a connection has got. -/
inductive Phase where
  /-- There is no link; none is sought before `retryAt`. -/
  | disconnected (retryAt : Time)
  /-- The peers are tried one after another. -/
  | connecting (candidates : List PeerName)
  /-- There is a link. -/
  | connected (live : Live)
  /-- The attempt or the link has failed. -/
  | errored (e : Failure)
  deriving Repr

/-- A pooled connection. -/
structure Connection where
  /-- What it is for. -/
  key : ConnectionKey
  /-- How many handles keep it. -/
  handles : Nat := 0
  /-- Since when there has been no use for it. -/
  idleSince : Option Time := none
  /-- Whether it waits for the directory to name a peer. -/
  looking : Bool := false
  /-- The number of the current attempt; reports of other attempts are not its own. -/
  generation : Nat := 0
  /-- The calls that were not sent on the current link, in order. -/
  waiting : List PendingCall := []
  /-- How far it has got. -/
  phase : Phase
  /-- How many attempts to connect were started. -/
  attempts : Nat := 0
  /-- How many calls were put back after a failure. -/
  retries : Nat := 0
  deriving Repr

namespace Connection

/-- A new connection, which may connect at once. -/
def new (key : ConnectionKey) (now : Time) : Connection :=
  { key, phase := .disconnected now }

/-- The link, if there is one. -/
def live? (c : Connection) : Option Live :=
  match c.phase with
  | .connected live => some live
  | _ => none

/-- The calls in flight. -/
def inFlight (c : Connection) : List PendingCall :=
  match c.phase with
  | .connected live => live.calls
  | _ => []

/-- The calls that the connection holds: those in flight and those that wait. -/
def calls (c : Connection) : List PendingCall :=
  c.inFlight ++ c.waiting

/-- Whether there is a use for the connection. -/
def hasDemand (c : Connection) : Bool :=
  0 < c.handles || !c.waiting.isEmpty || !c.inFlight.isEmpty

/-- Whether the connection is to be removed: it has been without use for the expiry time. -/
def isSpent (c : Connection) (config : PoolConfig) (now : Time) : Bool :=
  match c.idleSince with
  | some since => config.expiryTime ≤ now - since
  | none => false

/-- The times at which the connection has something to do by itself. -/
def wakeups (c : Connection) (config : PoolConfig) : List Time :=
  let deadlines := (c.waiting ++ c.inFlight).filterMap (·.deadline)
  let retry :=
    match c.phase with
    | .disconnected retryAt => if !c.looking && c.hasDemand then [retryAt] else []
    | _ => []
  let expiry :=
    match c.idleSince with
    | some since => [since + config.expiryTime]
    | none => []
  deadlines ++ retry ++ expiry

end Connection

/-! ## §3. Statistics. -/

/-- How far a connection has got, as statistics show it. -/
inductive ConnectionState where
  /-- There is no link. -/
  | disconnected
  /-- A link is sought. -/
  | connecting
  /-- There is a link. -/
  | connected
  /-- The attempt or the link has failed. -/
  | errored
  deriving DecidableEq, Repr

/-- Statistics of one connection. -/
structure ConnectionStats where
  /-- The agent that is called. -/
  agent : AgentName
  /-- The interface version that is spoken. -/
  interface : UInt32
  /-- How far the connection has got. -/
  state : ConnectionState
  /-- The peer at the other end of the link. -/
  peer : Option PeerName
  /-- How many handles keep the connection. -/
  refcount : Nat
  /-- How many calls wait for a link. -/
  waiting : Nat
  /-- How many calls were sent and not answered. -/
  inFlight : Nat
  /-- How many attempts to connect were started. -/
  attempts : Nat
  /-- How many calls were put back after a failure. -/
  retries : Nat
  deriving Repr

/-- The state of a phase. -/
def Phase.state : Phase → ConnectionState
  | .disconnected _ => .disconnected
  | .connecting _ => .connecting
  | .connected _ => .connected
  | .errored _ => .errored

/-- The statistics of a connection. -/
def Connection.stats (c : Connection) : ConnectionStats where
  agent := c.key.agent
  interface := c.key.interface
  state := c.phase.state
  peer := c.live?.map (·.peer)
  refcount := c.handles
  waiting := c.waiting.length
  inFlight := c.inFlight.length
  attempts := c.attempts
  retries := c.retries

end RemoteCall
