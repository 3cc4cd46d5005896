/-
  RemoteCall.Simulation.Serving
  ─────────────────────────────
  **WHAT THE ENDPOINTS OF A WORLD DO BY THEMSELVES.**

  An endpoint binds its address, accepts what waits in the backlog of its
  listener, gives up the listener when it shuts down, and lets its workers read
  and write.  Every step is one that `Endpoint.enabled` permits; this module
  says which is taken, and what it does to the network.

      takeTurn?     — the first endpoint that was started or dropped gets to it
      moveServer?   — one step of an endpoint, if any has one
-/
import RemoteCall.Simulation.World

namespace RemoteCall.Simulation.World

/-- The endpoint with number `i` makes a step, if it may. -/
def fire? (w : World) (i : Nat) (event : Endpoint.Event) : Option World := do
  let h ← w.hosts[i]?
  let h ← h.fire? event
  return w.mapHost i fun _ => h

/-- Writes into the log of an endpoint. -/
def note (w : World) (i : Nat) (note : Note) : World :=
  w.mapHost i fun h => { h with log := h.log ++ [note] }

/-! ## §1. Starting. -/

/-- The text of an address in the failure to bind it. -/
def boundText (address : PeerName) : String :=
  match address.path? with
  | some path => path.text
  | none => address.text

/-- The address at which an endpoint listens: where the choice of a TCP number is left open, the
next one is taken, even if it turns out to be in use. -/
def chooseAddress (w : World) : PeerName → World × PeerName
  | .tcp socket =>
    if socket.port = 0 then
      (w.mapNetwork fun n => { n with nextServerPort := n.nextServerPort + 1 },
        .tcp (socket.withPort w.network.nextServerPort.toUInt16))
    else (w, .tcp socket)
  | .unix path => (w, .unix path)

/-- An endpoint with settings that are in order binds its address. -/
def bindHost? (w : World) (i : Nat) (h : Host) : Option World :=
  let asked := h.endpoint.localName
  let placed := w.mapHost i fun h => { h with placed := true }
  match h.endpoint.limits.validate with
  | .error e => placed.fire? i (.initialised (.error e))
  | .ok _ =>
    let (chosen, address) := placed.chooseAddress asked
    match chosen.network.listener? address.text with
    | some _ =>
      chosen.fire? i (.initialised (.error
        (.connectionFailed s!"Failed to bind to {boundText asked}: {osText 98}")))
    | none =>
      let named := chosen.mapHost i fun h =>
        { h with endpoint := { h.endpoint with localName := address } }
      some (named.mapNetwork (·.listen { address := address.text, owner := .endpoint i }))

/-- The service initialises, when it is time.  An endpoint that cannot be named any more is dropped
as soon as it is up. -/
def initialiseHost? (w : World) (i : Nat) (h : Host) : Option World :=
  if h.readyAt ≤ w.now then
    match h.defect with
    | none =>
      let up := w.fire? i (.initialised (.ok ()))
      if h.disowned then up.bind (·.fire? i (.signalled false)) else up
    | some e =>
      (w.fire? i (.initialised (.error e))).map
        (·.mapNetwork (·.unlisten h.endpoint.localName.text))
  else none

/-! ## §2. Accepting and closing. -/

/-- The endpoint accepts the first connection that waits, or fails to. -/
def acceptHost? (w : World) (i : Nat) (h : Host) : Option World := do
  let address := h.endpoint.localName.text
  let listener ← w.network.listener? address
  if 0 < listener.faults then
    let failed ← w.fire? i (.acceptFailed w.now)
    return failed.mapNetwork (·.mapListener address fun l => { l with faults := l.faults - 1 })
  else
    match listener.backlog with
    | [] => none
    | arrival :: rest =>
      let accepted ← w.fire? i (.accepted arrival.peer arrival.link)
      return (accepted.mapNetwork (·.mapListener address fun l => { l with backlog := rest })).note
        i (.connected arrival.peer)

/-- The endpoint stops accepting and gives up its listener. -/
def closeHost? (w : World) (i : Nat) (h : Host) : Option World :=
  (w.fire? i .closed).map (·.mapNetwork (·.unlisten h.endpoint.localName.text))

/-- The service is told that it is over. -/
def destroyHost? (w : World) (i : Nat) : Option World :=
  (w.fire? i .destroyed).map (·.note i .destroying)

/-! ## §3. Workers. -/

/-- A worker writes, if it has anything to write. -/
def writeWorker? (w : World) (i j : Nat) (hosted : Hosted UInt32) : Option World :=
  let unsent := hosted.worker.unsent
  match ((w.network.cable hosted.link).outgoing .acceptor).room unsent.length with
  | .error _ => w.fire? i (.worked j .writeFailed)
  | .ok n =>
    (w.fire? i (.worked j (.wrote n))).map
      (·.mapNetwork (·.mapCable hosted.link (·.mapOutgoing .acceptor (·.put (unsent.take n)))))

/-- A worker reads, if there is anything to read. -/
def readWorker? (w : World) (i j : Nat) (hosted : Hosted UInt32) : Option World :=
  match ((w.network.cable hosted.link).incoming .acceptor).peek readChunk with
  | .blocked => none
  | .bytes chunk =>
    (w.fire? i (.worked j (.received chunk))).map
      (·.mapNetwork (·.mapCable hosted.link (·.mapIncoming .acceptor (·.skip chunk.length))))
  | .ended | .failed _ _ => w.fire? i (.worked j .lost)

/-- A worker finishes, when it has nothing more to do. -/
def retireWorker? (w : World) (i j : Nat) (hosted : Hosted UInt32) : Option World :=
  (w.fire? i (.retired j)).map (·.mapNetwork (·.close hosted.link .acceptor))

/-- A worker makes a step, if it has one. -/
def moveWorker? (w : World) (i j : Nat) (hosted : Hosted UInt32) : Option World :=
  w.retireWorker? i j hosted
    <|> w.fire? i (.worked j .shutdown)
    <|> w.writeWorker? i j hosted
    <|> w.readWorker? i j hosted
    <|> w.fire? i (.worked j .drained)

/-! ## §4. All of them. -/

/-- An endpoint makes a step, if it has one. -/
def moveHost? (w : World) (i : Nat) : Option World := do
  let h ← w.hosts[i]?
  let moveOwn? :=
    match h.endpoint.stage with
    | .initialising => if h.placed then w.initialiseHost? i h else w.bindHost? i h
    | .accepting => w.closeHost? i h <|> w.acceptHost? i h
    | .backingOff _ => w.fire? i (.resumed w.now)
    | .closing => w.destroyHost? i
    | _ => none
  moveOwn? <|> h.endpoint.hosted.zipIdx.findSome? fun (hosted, j) => w.moveWorker? i j hosted

/-- The first of the endpoints that were started or dropped gets to it. -/
def takeTurn? (w : World) : Option World :=
  match w.turns with
  | [] => none
  | i :: rest =>
    let taken := { w with turns := rest }
    some ((taken.moveHost? i).getD taken)

/-- One of the endpoints makes a step, if any has one. -/
def moveServer? (w : World) : Option World :=
  (List.range w.hosts.length).findSome? w.moveHost?

/-- When an endpoint has something to do by itself. -/
def serverWakeups (w : World) : List Time :=
  w.hosts.filterMap fun h =>
    match h.endpoint.stage with
    | .initialising => some h.readyAt
    | .backingOff resumeAt => some resumeAt
    | _ => none

end RemoteCall.Simulation.World
