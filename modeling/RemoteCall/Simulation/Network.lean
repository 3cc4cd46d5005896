/-
  RemoteCall.Simulation.Network
  ─────────────────────────────
  **A NETWORK THAT LIVES IN MEMORY.**

  A connection is a cable: two byte streams without loss or delay.  An end that
  is closed lets the other end read what was written before, then nothing more;
  what the other end writes is refused.  A stream may hold a bounded number of
  unread bytes only, and may be made to fail.

  Addresses are texts.  A listener is scripted, and then says what becomes of
  connecting peers, or it belongs to an endpoint, and then they always get
  through and wait in its backlog.
-/
import RemoteCall.PeerName
import RemoteCall.Pool.Connection
import RemoteCall.Simulation.OsError

namespace RemoteCall.Simulation

/-! ## §1. Streams and cables. -/

/-- One direction of a cable. -/
structure Stream where
  pending : Bytes := []
  /-- Whether nothing more will be written. -/
  ended : Bool := false
  deserted : Bool := false
  /-- How many unread bytes the stream may hold. -/
  window : Option Nat := none
  /-- The failure of every read, if reading is made to fail. -/
  readFault : Option (IoKind × String) := none
  /-- The failure of every write, if writing is made to fail. -/
  writeFault : Option (IoKind × String) := none
  deriving Inhabited

namespace Stream

/-- What reading comes to. -/
inductive Reading where
  | bytes (chunk : Bytes)
  | blocked
  /-- There is nothing to read and there never will be. -/
  | ended
  | failed (kind : IoKind) (message : String)

/-- What reading at most `limit` bytes comes to. -/
def peek (s : Stream) (limit : Nat) : Reading :=
  match s.readFault with
  | some (kind, message) => .failed kind message
  | none =>
    if s.pending.isEmpty then (if s.ended then .ended else .blocked)
    else .bytes (s.pending.take limit)

/-- Takes bytes off the front. -/
def skip (s : Stream) (n : Nat) : Stream :=
  { s with pending := s.pending.drop n }

/-- How many of `n` bytes can be written now, or why none ever can. -/
def room (s : Stream) (n : Nat) : Except (IoKind × String) Nat :=
  match s.writeFault with
  | some fault => .error fault
  | none =>
    if s.deserted then .error brokenPipe
    else
      match s.window with
      | some w => .ok (min n (w - s.pending.length))
      | none => .ok n

/-- Puts bytes at the end. -/
def put (s : Stream) (bytes : Bytes) : Stream :=
  { s with pending := s.pending ++ bytes }

end Stream

/-- An end of a cable. -/
inductive Side where
  /-- The end of the side that connected. -/
  | initiator
  /-- The end of the side that listened. -/
  | acceptor
  deriving DecidableEq, Repr

/-- The other end. -/
def Side.other : Side → Side
  | .initiator => .acceptor
  | .acceptor => .initiator

/-- The other end of the other end is this one. -/
@[simp] theorem Side.other_other (side : Side) : side.other.other = side := by
  cases side <;> rfl

/-- Two streams, one each way. -/
structure Cable where
  fromInitiator : Stream := {}
  fromAcceptor : Stream := {}
  deriving Inhabited

namespace Cable

/-- The stream that an end writes. -/
def outgoing (c : Cable) : Side → Stream
  | .initiator => c.fromInitiator
  | .acceptor => c.fromAcceptor

/-- The stream that an end reads. -/
def incoming (c : Cable) (side : Side) : Stream :=
  c.outgoing side.other

/-- Changes the stream that an end writes. -/
def mapOutgoing (c : Cable) (side : Side) (f : Stream → Stream) : Cable :=
  match side with
  | .initiator => { c with fromInitiator := f c.fromInitiator }
  | .acceptor => { c with fromAcceptor := f c.fromAcceptor }

/-- Changes the stream that an end reads. -/
def mapIncoming (c : Cable) (side : Side) (f : Stream → Stream) : Cable :=
  c.mapOutgoing side.other f

/-- A change of what an end writes is seen there. -/
@[simp] theorem outgoing_mapOutgoing (c : Cable) (side : Side) (f : Stream → Stream) :
    (c.mapOutgoing side f).outgoing side = f (c.outgoing side) := by
  cases side <;> rfl

/-- A change of what an end writes leaves alone what it reads. -/
@[simp] theorem incoming_mapOutgoing (c : Cable) (side : Side) (f : Stream → Stream) :
    (c.mapOutgoing side f).incoming side = c.incoming side := by
  cases side <;> rfl

/-- A change of what an end reads is seen there. -/
@[simp] theorem incoming_mapIncoming (c : Cable) (side : Side) (f : Stream → Stream) :
    (c.mapIncoming side f).incoming side = f (c.incoming side) := by
  cases side <;> rfl

/-- An end writes no more. -/
def finish (c : Cable) (side : Side) : Cable :=
  c.mapOutgoing side fun s => { s with ended := true }

/-- An end is closed. -/
def close (c : Cable) (side : Side) : Cable :=
  (c.finish side).mapIncoming side fun s => { s with deserted := true }

end Cable

/-! ## §2. Listeners. -/

/-- What becomes of the peers that connect to a scripted listener. -/
inductive Mode where
  | accept
  | hang
  | refuse (errno : Int)
  deriving DecidableEq, Repr

/-- A connection that waits to be accepted. -/
structure Arrival where
  link : LinkId
  /-- The peer that they are known as. -/
  peer : PeerName

/-- The owner of a listener. -/
inductive Owner where
  | script (mode : Mode)
  | endpoint (number : Nat)

/-- A listener. -/
structure Listener where
  address : String
  owner : Owner
  /-- The connections that got through and were not accepted, in order of arrival. -/
  backlog : List Arrival := []
  /-- How many of the next attempts to accept fail. -/
  faults : Nat := 0

/-- A network. -/
structure Network where
  /-- All cables that were ever laid. -/
  cables : Array Cable := #[]
  listeners : List Listener := []
  /-- The port of the next connecting side. -/
  nextClientPort : Nat := 50000
  /-- The port of the next listener that leaves the choice open. -/
  nextServerPort : Nat := 40001

namespace Network

/-- The listener at an address. -/
def listener? (n : Network) (address : String) : Option Listener :=
  n.listeners.find? (·.address == address)

/-- Changes the listener at an address. -/
def mapListener (n : Network) (address : String) (f : Listener → Listener) : Network :=
  { n with listeners := n.listeners.map fun l => if l.address == address then f l else l }

/-- Adds a listener. -/
def listen (n : Network) (l : Listener) : Network :=
  { n with listeners := n.listeners ++ [l] }

/-- A cable. -/
def cable (n : Network) (link : LinkId) : Cable :=
  n.cables[link]?.getD {}

/-- Changes a cable. -/
def mapCable (n : Network) (link : LinkId) (f : Cable → Cable) : Network :=
  { n with cables := n.cables.modify link f }

/-- Closes an end of a cable. -/
def close (n : Network) (link : LinkId) (side : Side) : Network :=
  n.mapCable link (·.close side)

/-- Removes the listener at an address; those in its backlog find their cables closed. -/
def unlisten (n : Network) (address : String) : Network :=
  let waiting :=
    match n.listener? address with
    | some l => l.backlog
    | none => []
  let rest := { n with listeners := n.listeners.filter (·.address != address) }
  waiting.foldl (fun n arrival => n.close arrival.link .acceptor) rest

/-- Whether an address is that of a local socket. -/
def isLocal (address : String) : Bool :=
  (PeerName.unmarked? address).isSome

/-- The peer as which a side that connects to an address is known at the other end. -/
def clientName (n : Network) (address : String) : PeerName :=
  match PeerName.unmarked? address with
  | some path => .unix ⟨path⟩
  | none => .tcp (.v4 ⟨127, 0, 0, 1⟩ n.nextClientPort.toUInt16)

/-- What connecting comes to. -/
inductive Connecting where
  /-- A cable to a scripted listener. -/
  | script (link : LinkId)
  | endpoint (link : LinkId)
  | hanging
  | refused (errno : Int)

/-- Lays a cable. -/
def lay (n : Network) : Network × LinkId :=
  ({ n with cables := n.cables.push {}, nextClientPort := n.nextClientPort + 1 }, n.cables.size)

/-- Connects to an address. -/
def connect (n : Network) (address : String) : Network × Connecting :=
  match n.listener? address with
  | none => (n, .refused (if isLocal address then 2 else 111))
  | some l =>
    match l.owner with
    | .script .hang => (n, .hanging)
    | .script (.refuse errno) => (n, .refused errno)
    | .script .accept =>
      let (laid, link) := n.lay
      (laid, .script link)
    | .endpoint _ =>
      let arrival := n.clientName address
      let (laid, link) := n.lay
      (laid.mapListener address fun l => { l with backlog := l.backlog ++ [⟨link, arrival⟩] },
        .endpoint link)

end Network

end RemoteCall.Simulation
