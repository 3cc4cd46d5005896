/-
  RemoteCall.Simulation.World
  ───────────────────────────
  **EVERYTHING THAT IS SIMULATED, AT ONE MOMENT.**

  A world holds a clock, a directory, a network, the pools with their attempts
  and links, the endpoints, and what a script has a name for.  A pool or an
  endpoint that is over stays in its list, so that what refers to it keeps its
  meaning; the one pool that new calls go to is the current one.
-/
import RemoteCall.Pool.Turn
import RemoteCall.Server.Endpoint
import RemoteCall.Simulation.Echo
import RemoteCall.Simulation.Network

namespace RemoteCall.Simulation

/-! ## §1. What a pool has running. -/

/-- An attempt to connect to one of several peers. -/
structure Attempt where
  pool : Nat
  /-- The connection that wants a link. -/
  key : ConnectionKey
  /-- The number of the attempt on its connection. -/
  generation : Nat
  /-- The peers that have not failed, the one that is tried now first. -/
  candidates : List PeerName
  /-- When the peer that is tried now is given up, if it leaves the attempt waiting. -/
  waitsUntil : Option Time := none
  lastFailure : Option Failure := none

/-- The reader and the writer of an established stream. -/
structure Link where
  id : LinkId
  pool : Nat
  /-- The connection that has the link. -/
  key : ConnectionKey
  /-- The attempt that the link came from. -/
  generation : Nat
  /-- Request bytes that were not written. -/
  unsent : Bytes := []
  /-- Response bytes that make no whole frame yet. -/
  received : Bytes := []
  reading : Bool := true
  writing : Bool := true

/-! ## §2. What an endpoint has running. -/

/-- A call that the service has kept. -/
structure Held where
  /-- The connection of the endpoint that it came by. -/
  worker : Nat
  call : IncompleteCall
  resolved : Bool := false
  /-- Whether it was shown that its answer is no longer wanted. -/
  shown : Bool := false

/-- An endpoint with the echo service. -/
structure Host where
  name : String
  /-- The endpoint; its address is the one that was asked for, until it is bound. -/
  endpoint : Endpoint UInt32
  /-- Whether the address was bound, or could not be. -/
  placed : Bool := false
  /-- Whether the name was given to another endpoint before this one was up. -/
  disowned : Bool := false
  /-- When the service has initialised. -/
  readyAt : Time := 0
  /-- Why the service fails to initialise, if it does. -/
  defect : Option Failure := none
  /-- The log of the service, as far as it was not shown. -/
  log : List Note := []
  /-- The calls that the service has kept, in the order of their dispatch. -/
  held : List Held := []
  /-- Whether it was shown how starting the endpoint has ended. -/
  startShown : Bool := false
  /-- Whether it was shown that the endpoint has stopped. -/
  stopShown : Bool := false

namespace Host

/-- How starting the endpoint has ended, if it has. -/
def start? (h : Host) : Option (Outcome PeerName) :=
  match h.endpoint.stage with
  | .initialising => none
  | .failed e => some (.error e)
  | _ => some (.ok h.endpoint.localName)

/-- Whether the answer to a kept call is no longer wanted. -/
def isAbandoned (h : Host) (held : Held) : Bool :=
  match h.endpoint.hosted[held.worker]? with
  | some hosted => hosted.worker.isAbandoned h.endpoint.shutdown held.call.ticket
  | none => false

/-- Notes what the worker with number `i` has done. -/
def observe (i : Nat) (h : Host) : WorkerEffect → Host
  | .dispatched incoming fate _ =>
    let noted := { h with log := h.log ++ (Note.ofCall? incoming).toList }
    match fate with
    | .kept => { noted with held := noted.held ++ [{ worker := i, call := incoming.call }] }
    | _ => noted
  | _ => h

/-- The endpoint makes a step, if it may. -/
def fire? (h : Host) (event : Endpoint.Event) : Option Host :=
  if h.endpoint.enabled event then
    let (endpoint, effects) := h.endpoint.step event
    let i :=
      match event with
      | .worked i _ => i
      | _ => 0
    some (effects.foldl (observe i) { h with endpoint })
  else none

end Host

/-! ## §3. What a script has a name for. -/

/-- A call that was issued. -/
structure NamedCall where
  name : String
  pool : Nat
  /-- The number of the call in its pool. -/
  id : CallId
  shown : Bool := false

/-- A handle on a connection. -/
structure NamedHandle where
  name : String
  pool : Nat
  key : ConnectionKey

/-- An end of a cable that is in the hands of the script. -/
structure Socket where
  name : String
  /-- The address at which it was connected. -/
  address : String
  link : LinkId
  side : Side
  /-- Whether bytes are taken only when the script says so. -/
  isManual : Bool := false
  /-- Bytes that were taken and make no whole frame yet. -/
  received : Bytes := []
  /-- Whether the end of the stream was shown. -/
  endShown : Bool := false

/-! ## §4. The world. -/

/-- Everything that is simulated. -/
structure World where
  now : Time := 0
  directory : Directory := {}
  network : Network := {}
  pools : List Pool := []
  /-- The pool that is in use, by its number. -/
  current : Option Nat := none
  attempts : List Attempt := []
  /-- The established streams of the pools. -/
  links : List Link := []
  /-- All endpoints, the oldest first. -/
  hosts : List Host := []
  /-- The endpoints that were started or dropped at this moment, by their numbers, in the order in
  which they get to it. -/
  turns : List Nat := []
  calls : List NamedCall := []
  handles : List NamedHandle := []
  /-- The ends of cables that have a name. -/
  sockets : List Socket := []

namespace World

/-- The pool that is in use. -/
def pool? (w : World) : Option Pool := do
  w.pools[← w.current]?

/-- Changes a pool. -/
def mapPool (w : World) (i : Nat) (f : Pool → Pool) : World :=
  { w with pools := w.pools.modify i f }

/-- A pool is told something. -/
def notify (w : World) (i : Nat) (notice : Notice) : World :=
  w.mapPool i fun p => { p with notices := p.notices ++ [notice] }

/-- The limit on frames of a pool. -/
def frameLimit (w : World) (i : Nat) : Nat :=
  match w.pools[i]? with
  | some p => p.config.maxMessageSize
  | none => defaultMaxMessageSize

/-- Changes the link over a stream. -/
def mapLink (w : World) (id : LinkId) (f : Link → Link) : World :=
  { w with links := w.links.map fun l => if l.id = id then f l else l }

/-- Changes an endpoint. -/
def mapHost (w : World) (i : Nat) (f : Host → Host) : World :=
  { w with hosts := w.hosts.modify i f }

/-- Changes the network. -/
def mapNetwork (w : World) (f : Network → Network) : World :=
  { w with network := f w.network }

/-- The outcome of a call, if it has one. -/
def entry? (w : World) (pool : Nat) (id : CallId) : Option Entry := do
  (← w.pools[pool]?).ledger.get? id

/-- Whether a call has an outcome. -/
def isFinished (w : World) (pool : Nat) (id : CallId) : Bool :=
  match w.entry? pool id with
  | some entry => entry.slot.isFinished
  | none => false

/-- How many connections the script has accepted at an address. -/
def accepted (w : World) (address : String) : Nat :=
  (w.sockets.filter fun s => s.side = .acceptor && s.address == address).length

/-- The script takes over the accepting end of a cable. -/
def adopt (w : World) (address : String) (link : LinkId) : World :=
  let name := s!"{address}#{w.accepted address + 1}"
  { w with sockets := w.sockets ++ [{ name, address, link, side := .acceptor }] }

end World

end RemoteCall.Simulation
