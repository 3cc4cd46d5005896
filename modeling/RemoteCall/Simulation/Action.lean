/-
  RemoteCall.Simulation.Action
  ────────────────────────────
  **WHAT A SCRIPT MAY DO TO A WORLD AT ONE MOMENT.**

  An action changes a world by what it does itself, and nothing that follows
  from it: commands are queued, bytes are written, a listener is installed.
  What follows is left to `World.settle`.  Only an action that waits for an
  answer of the pool lets happen what happens before it (`World.attend`).

      Action        — the actions
      Reply         — what an action or a step comes to
      World.act     — does an action
-/
import RemoteCall.Simulation.Report
import RemoteCall.Simulation.Settle

namespace RemoteCall.Simulation

/-! ## §1. Actions and replies. -/

/-- A call that is to be issued. -/
structure CallPlan where
  /-- The connection that it goes to. -/
  key : ConnectionKey
  /-- After how many milliseconds it times out. -/
  timeout : Option Nat := none
  /-- Whether the request may be sent again after a response that cannot be read. -/
  idempotent : Bool := false
  request : Payload.Outgoing
  response : Payload.Shape

/-- An endpoint that is to be started. -/
structure HostPlan where
  name : String
  address : PeerName
  limits : EndpointConfig := {}
  echo : Echo := {}
  /-- How long the service takes to initialise, in milliseconds. -/
  delay : Nat := 0
  /-- Why the service fails to initialise, if it does. -/
  defect : Option Failure := none

/-- What the other end of a cable is made to fail at. -/
inductive Direction where
  | read
  | write
  deriving DecidableEq, Repr

/-- What a script may do at one moment. -/
inductive Action where
  | register (agent : AgentName) (peer : PeerName)
  | set (agent : AgentName) (peers : List PeerName)
  | remove (agent : AgentName)
  | openPool (config : PoolConfig)
  /-- Stop the pool; whether the end is waited for. -/
  | closePool (awaited : Bool)
  | call (name : String) (plan : CallPlan)
  | abort (name : String)
  | peek (name : String)
  | dropCall (name : String)
  | acquire (name : String) (key : ConnectionKey)
  /-- Take another handle on the same connection. -/
  | clone (source name : String)
  | release (name : String)
  /-- Ask for the interface of the connection to an agent. -/
  | lookup (agent : AgentName)
  /-- Listen at an address, or change what becomes of connecting peers. -/
  | listen (address : String) (mode : Mode)
  | unlisten (address : String)
  /-- Connect to an address; how many unread bytes the other end may have sent, if not any
  number. -/
  | dial (name address : String) (window : Option Nat)
  | send (name : String) (bytes : Bytes)
  | close (name : String)
  | finish (name : String)
  | fault (name : String) (direction : Direction) (kind : IoKind) (message : String)
  /-- Make the next attempt to accept fail. -/
  | acceptFault (address : String)
  | start (plan : HostPlan)
  | shutdown (name : String)
  | dropHost (name : String)
  | complete (host : String) (held : Nat) (response : Payload.Outgoing)
  | fail (host : String) (held : Nat) (e : Failure)
  | forget (host : String) (held : Nat)

/-- What an action or a step comes to. -/
inductive Reply where
  | nothing
  /-- Something that is named does not exist. -/
  | unknown (what : String)
  | truth (b : Bool)
  | number (n : Nat)
  | text (t : String)
  | settings (config : PoolConfig)
  | refused (e : Failure)
  | outcome (settled : Settled)
  /-- There is no outcome after a long time. -/
  | pending
  /-- Whether a call has finished, and its outcome. -/
  | peeked (finished : Bool) (settled : Option Settled)
  | handle (key : ConnectionKey)
  /-- The interface of a connection, if there is one. -/
  | interface (version : Option UInt32)
  /-- What was received, and how many bytes there were not. -/
  | taken (items : List Received) (unread : Nat)
  /-- What each of several steps comes to. -/
  | several (replies : List Reply)

namespace World

/-- What an action comes to. -/
abbrev Acted := World × Reply

/-! ## §2. Finding what is named; the latest bearer of a name is meant. -/

/-- The call of a name. -/
def call? (w : World) (name : String) : Option NamedCall :=
  w.calls.reverse.find? (·.name == name)

/-- The handle of a name. -/
def handle? (w : World) (name : String) : Option NamedHandle :=
  w.handles.reverse.find? (·.name == name)

/-- The socket of a name, with its number. -/
def socket? (w : World) (name : String) : Option (Socket × Nat) :=
  w.sockets.zipIdx.reverse.find? (·.1.name == name)

/-- The endpoint of a name, with its number. -/
def host? (w : World) (name : String) : Option (Host × Nat) :=
  w.hosts.zipIdx.reverse.find? (·.1.name == name)

/-! ## §3. Pools, calls and handles. -/

/-- The pool in use is asked to stop, and is in use no more. -/
def closePool (w : World) : World :=
  match w.current with
  | some i => { w.mapPool i (·.stop) with current := none }
  | none => w

/-- A pool is opened, if its settings are in order. -/
def openPool (w : World) (config : PoolConfig) : Acted :=
  match Pool.new config w.directory with
  | .ok p =>
    let closed := w.closePool
    ({ closed with pools := closed.pools ++ [p], current := some closed.pools.length },
      .settings config)
  | .error e => (w, .refused e)

/-- Issues a call in the pool in use: the pool and the call, by their numbers. -/
def issue? (w : World) (plan : CallPlan) : Option (World × Nat × CallId) := do
  let i ← w.current
  let p ← w.pools[i]?
  let options := { deadline := plan.timeout.map (w.now + ·), idempotent := plan.idempotent }
  let (p, id) := p.call plan.key options plan.request plan.response
  return (w.mapPool i fun _ => p, i, id)

/-- Lets go of the call of a name. -/
def dropCall (w : World) (name : String) : World :=
  match w.call? name with
  | some call =>
    { w.mapPool call.pool (·.releaseCall call.id) with
      calls := w.calls.filter (·.name != name) }
  | none => w

/-- Issues a call that has a name; an earlier call of the name is let go of. -/
def call (w : World) (name : String) (plan : CallPlan) : Acted :=
  match w.issue? plan with
  | some (issued, pool, id) =>
    let dropped := issued.dropCall name
    ({ dropped with calls := dropped.calls ++ [{ name, pool, id }] }, .number id)
  | none => (w, .unknown "pool")

/-- Gives up a call, unless it has an outcome; what its outcome is. -/
def cancelCall (w : World) (pool : Nat) (id : CallId) (e : Failure) : Acted :=
  let cancelled := w.mapPool pool (·.cancel id e)
  match (cancelled.entry? pool id).bind Settled.ofEntry? with
  | some settled => (cancelled, .outcome settled)
  | none => (cancelled, .pending)

/-- Drops the handle of a name. -/
def dropHandle (w : World) (name : String) : World :=
  match w.handle? name with
  | some handle =>
    { w.mapPool handle.pool (·.release handle.key) with
      handles := w.handles.filter (·.name != name) }
  | none => w

/-- Takes a handle of a pool; an earlier handle of the name is dropped. -/
def takeHandle (w : World) (name : String) (pool : Nat) (key : ConnectionKey) : World :=
  let dropped := (w.mapPool pool (·.acquire key)).dropHandle name
  { dropped with handles := dropped.handles ++ [{ name, pool, key }] }

/-! ## §4. Sockets. -/

/-- Listens at an address. -/
def listen (w : World) (address : String) (mode : Mode) : World :=
  match w.network.listener? address with
  | none => w.mapNetwork (·.listen { address, owner := .script mode })
  | some l =>
    match l.owner with
    | .script _ => w.mapNetwork (·.mapListener address fun l => { l with owner := .script mode })
    | .endpoint _ => w

/-- Listens no more; whether the script did. -/
def unlisten (w : World) (address : String) : Acted :=
  match (w.network.listener? address).map Listener.owner with
  | some (.script _) => (w.mapNetwork (·.unlisten address), .truth true)
  | _ => (w, .truth false)

/-- Lets go of the connection that was made under a name, if there is one. -/
def hangUp (w : World) (name : String) : World :=
  let isOld (s : Socket) := s.side = .initiator && s.name == name
  let old := w.sockets.filter isOld
  { w with sockets := w.sockets.filter (!isOld ·) }.mapNetwork fun n =>
    old.foldl (fun n (s : Socket) => n.close s.link .initiator) n

/-- The script has connected under a name; an earlier connection of the name is let go of. -/
def hold (w : World) (name address : String) (link : LinkId) (window : Option Nat) : World :=
  let dropped := w.hangUp name
  let socket : Socket := { name, address, link, side := .initiator, isManual := window.isSome }
  { dropped with sockets := dropped.sockets ++ [socket] }.mapNetwork
    (·.mapCable link (·.mapOutgoing .acceptor fun s => { s with window }))

/-- Connects to an address. -/
def dial (w : World) (name address : String) (window : Option Nat) : Acted :=
  let (network, result) := w.network.connect address
  let tried := { w with network }
  match result with
  | .script link => ((tried.adopt address link).hold name address link window, .text "connected")
  | .endpoint link => (tried.hold name address link window, .text "connected")
  | .hanging => (tried, .text "hang")
  | .refused errno => (tried, .text (osText errno))

/-- Does something with the cable of a socket. -/
def withSocket (w : World) (name : String) (f : Side → Cable → Cable) : Acted :=
  match w.socket? name with
  | some (s, _) => (w.mapNetwork (·.mapCable s.link (f s.side)), .nothing)
  | none => (w, .unknown name)

/-- Writes bytes; whether they may still be read. -/
def send (w : World) (name : String) (bytes : Bytes) : Acted :=
  match w.socket? name with
  | some (s, _) =>
    let stream := (w.network.cable s.link).outgoing s.side
    if stream.ended || stream.deserted then (w, .truth false)
    else
      (w.mapNetwork (·.mapCable s.link (·.mapOutgoing s.side (·.put bytes))), .truth true)
  | none => (w, .unknown name)

/-- Makes the other end of a cable fail from now on. -/
def faultAt (direction : Direction) (cause : IoKind × String) (side : Side) (c : Cable) : Cable :=
  match direction with
  | .read => c.mapOutgoing side fun s => { s with readFault := some cause }
  | .write => c.mapIncoming side fun s => { s with writeFault := some cause }

/-! ## §5. Endpoints. -/

/-- Shuts down the endpoint of a name, if it is up, and waits for the end. -/
def shutdown (w : World) (name : String) : Option World := do
  let (h, i) ← w.host? name
  if h.endpoint.isUp then
    let h ← h.fire? (.signalled true)
    return w.mapHost i fun _ => h
  else none

/-- Drops the endpoint of a name.  One that is up is told to shut down; one that is not will be, as
soon as it is up. -/
def dropHost (w : World) (name : String) : World :=
  match w.host? name with
  | some (h, i) =>
    match h.fire? (.signalled false) with
    | some told => { w.mapHost i fun _ => told with turns := w.turns ++ [i] }
    | none => w.mapHost i fun h => { h with disowned := true }
  | none => w

/-- Starts an endpoint.  It takes its turn before an earlier endpoint of the name, which is
dropped. -/
def start (w : World) (plan : HostPlan) : World :=
  let queued := { w with turns := w.turns ++ [w.hosts.length] }
  let dropped := queued.dropHost plan.name
  let endpoint : Endpoint UInt32 :=
    { service := plan.echo.service, limits := plan.limits, localName := plan.address }
  { dropped with
    hosts := dropped.hosts ++
      [{ name := plan.name, endpoint, readyAt := w.now + plan.delay, defect := plan.defect }] }

/-- Resolves a call that an endpoint has kept. -/
def resolve (w : World) (name : String) (number : Nat) (outcome : Outcome Bytes) : Acted :=
  let resolved : Option World := do
    let (h, i) ← w.host? name
    let held ← h.held[number]?
    if held.resolved then none
    else
      let h ← h.fire? (.resolved held.worker held.call outcome)
      let kept := h.held.modify number fun held => { held with resolved := true }
      return w.mapHost i fun _ => { h with held := kept }
  match resolved with
  | some w => (w, .nothing)
  | none => (w, .unknown name)

/-! ## §6. Actions. -/

/-- Does an action, and nothing that follows from it. -/
def act (w : World) : Action → Acted
  | .register agent peer =>
    ({ w with directory := w.directory.register agent peer }, .nothing)
  | .set agent peers => ({ w with directory := w.directory.set agent peers }, .nothing)
  | .remove agent => ({ w with directory := w.directory.remove agent }, .nothing)
  | .openPool config => w.openPool config
  | .closePool awaited =>
    if w.current.isSome then
      (if awaited then w.closePool.attend else w.closePool, .nothing)
    else (w, .unknown "pool")
  | .call name plan => w.call name plan
  | .abort name =>
    match w.call? name with
    | some call => w.cancelCall call.pool call.id .aborted
    | none => (w, .unknown name)
  | .peek name =>
    match w.call? name with
    | some call => (w, .peeked (w.isFinished call.pool call.id) (w.outcome? call))
    | none => (w, .unknown name)
  | .dropCall name =>
    if (w.call? name).isSome then (w.dropCall name, .nothing) else (w, .unknown name)
  | .acquire name key =>
    match w.current with
    | some i => (w.takeHandle name i key, .handle key)
    | none => (w, .unknown "pool")
  | .clone source name =>
    match w.handle? source with
    | some handle => (w.takeHandle name handle.pool handle.key, .nothing)
    | none => (w, .unknown source)
  | .release name =>
    if (w.handle? name).isSome then (w.dropHandle name, .nothing) else (w, .unknown name)
  | .lookup agent =>
    let attended := w.attend
    match attended.pool? with
    | some p => (attended, .interface ((p.statsOf? agent).map (·.interface)))
    | none => (w, .unknown "pool")
  | .listen address mode => (w.listen address mode, .nothing)
  | .unlisten address => w.unlisten address
  | .dial name address window => w.dial name address window
  | .send name bytes => w.send name bytes
  | .close name => w.withSocket name fun side cable => cable.close side
  | .finish name => w.withSocket name fun side cable => cable.finish side
  | .fault name direction kind message => w.withSocket name (faultAt direction (kind, message))
  | .acceptFault address =>
    (w.mapNetwork (·.mapListener address fun l => { l with faults := l.faults + 1 }),
      .truth (w.network.listener? address).isSome)
  | .start plan => (w.start plan, .nothing)
  | .shutdown name =>
    match w.shutdown name with
    | some w => (w, .nothing)
    | none => (w, .unknown name)
  | .dropHost name =>
    if (w.host? name).any (·.1.endpoint.isUp) then (w.dropHost name, .nothing)
    else (w, .unknown name)
  | .complete host number response => w.resolve host number response.encode
  | .fail host number e => w.resolve host number (.error e)
  | .forget host number => w.resolve host number (.error .abandoned)

end World

end RemoteCall.Simulation
