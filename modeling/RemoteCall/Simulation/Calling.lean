/-
  RemoteCall.Simulation.Calling
  ─────────────────────────────
  **WHAT THE POOLS OF A WORLD DO BY THEMSELVES.**

  A pool takes turns, and what it does to the outside starts and stops other
  tasks.  An attempt tries its peers one after another and reports the first
  that it reaches.  A link writes what it is handed, and reports each response
  frame that it reads and the first thing that goes wrong.

      turnPool?, moveAttempt?, moveLink?   — one step of a task, if it has one

  Reports are notices to the pool, which looks at them in the order in which
  they were made.
-/
import RemoteCall.Simulation.World

namespace RemoteCall.Simulation.World

/-! ## §1. Turns of a pool. -/

/-- What the outside is like for a pool.  A link that is about to be attached takes frames. -/
def surroundings (w : World) : Surroundings where
  lookup := w.directory.peers
  takes id _ :=
    match w.links.find? (·.id = id) with
    | some link => link.writing
    | none => true
  draw _ _ := 0.5

/-- Whether an attempt belongs to a pool and has this number on this connection. -/
def isAttempt (pool : Nat) (key : ConnectionKey) (generation : Nat) (a : Attempt) : Bool :=
  a.pool = pool && a.key = key && a.generation = generation

/-- A link fails, and the pool is told. -/
def failLink (w : World) (link : Link) (e : Failure) : World :=
  w.notify link.pool (.failed link.key link.generation e)

/-- A frame is handed to the writer of a link. -/
def write (w : World) (link : Link) (frame : RequestFrame) : World :=
  match frame.encode (w.frameLimit link.pool) with
  | .ok bytes => w.mapLink link.id fun l => { l with unsent := l.unsent ++ bytes }
  | .error e => (w.mapLink link.id fun l => { l with writing := false }).failLink link e

/-- A pool does something to the outside. -/
def effect (pool : Nat) (w : World) : Effect → World
  | .seek key generation candidates =>
    { w with attempts := w.attempts ++ [{ pool, key, generation, candidates }] }
  | .giveUp key generation =>
    { w with attempts := w.attempts.filter (!isAttempt pool key generation ·) }
  | .attach key generation id => { w with links := w.links ++ [{ id, pool, key, generation }] }
  | .send id _ frame taken =>
    match taken, w.links.find? (·.id = id) with
    | true, some link => w.write link frame
    | _, _ => w
  | .close id =>
    { w with links := w.links.filter (·.id != id), network := w.network.close id .initiator }

/-- A pool takes a turn. -/
def turnPool? (w : World) (i : Nat) : Option World := do
  let p ← w.pools[i]?
  let (p, effects) ← p.turn? w.surroundings w.now w.directory
  return effects.foldl (effect i) (w.mapPool i fun _ => p)

/-! ## §2. Attempts to connect. -/

/-- An attempt is over, and the pool is told. -/
def finishAttempt (w : World) (a : Attempt) (notice : Notice) : World :=
  { w with attempts := w.attempts.filter (!isAttempt a.pool a.key a.generation ·) }.notify
    a.pool notice

/-- An attempt goes on otherwise. -/
def putAttempt (w : World) (a : Attempt) : World :=
  { w with
    attempts := w.attempts.map fun b =>
      if isAttempt a.pool a.key a.generation b then a else b }

/-- The peer that is tried now has failed. -/
def passOver (w : World) (a : Attempt) (e : Failure) : World :=
  w.putAttempt
    { a with candidates := a.candidates.drop 1, waitsUntil := none, lastFailure := some e }

/-- How long a pool tries one peer. -/
def patience (w : World) (i : Nat) : Nat :=
  match w.pools[i]? with
  | some p => p.config.connectTimeout
  | none => 0

/-- Tries a peer. -/
def tryPeer (w : World) (a : Attempt) (peer : PeerName) : World :=
  let (network, result) := w.network.connect peer.text
  let tried := { w with network }
  match result with
  | .script link =>
    (tried.adopt peer.text link).finishAttempt a (.connected a.key a.generation peer link)
  | .endpoint link => tried.finishAttempt a (.connected a.key a.generation peer link)
  | .hanging => tried.putAttempt { a with waitsUntil := some (w.now + w.patience a.pool) }
  | .refused errno =>
    tried.passOver a (.connectionFailed s!"{peer.text}: {osText errno}")

/-- An attempt makes a step, if it has one. -/
def moveAttempt? (w : World) (a : Attempt) : Option World :=
  match a.waitsUntil with
  | some limit =>
    if limit ≤ w.now then
      some (w.passOver a (.connectTimeout (.ofMillis (w.patience a.pool))))
    else none
  | none =>
    match a.candidates with
    | peer :: _ => some (w.tryPeer a peer)
    | [] =>
      let e := a.lastFailure.getD (.connectionFailed "no candidate addresses")
      some (w.finishAttempt a (.connectFailed a.key a.generation e))

/-! ## §3. Links. -/

/-- A link writes, if it has anything to write. -/
def writeLink? (w : World) (link : Link) : Option World :=
  if !link.writing || link.unsent.isEmpty then none
  else
    match ((w.network.cable link.id).outgoing .initiator).room link.unsent.length with
    | .error (kind, message) =>
      some ((w.mapLink link.id fun l => { l with writing := false }).failLink link
        (.ofIo kind message))
    | .ok 0 => none
    | .ok n =>
      some ((w.mapLink link.id fun l => { l with unsent := l.unsent.drop n }).mapNetwork
        (·.mapCable link.id (·.mapOutgoing .initiator (·.put (link.unsent.take n)))))

/-- The reader of a link stops, and the pool is told why. -/
def stopReading (w : World) (link : Link) (e : Failure) : World :=
  (w.mapLink link.id fun l => { l with reading := false }).failLink link e

/-- Bytes have arrived on a link: the pool is told of each whole frame, and of the first that is at
fault. -/
def receive (w : World) (link : Link) (chunk : Bytes) : World :=
  let (frames, fault, rest) :=
    ResponseFrame.drain (w.frameLimit link.pool) (link.received ++ chunk)
  let taken :=
    (w.mapNetwork (·.mapCable link.id (·.mapIncoming .initiator (·.skip chunk.length)))).mapLink
      link.id fun l => { l with received := rest }
  let told :=
    frames.foldl (fun w frame => w.notify link.pool (.response link.key link.generation frame))
      taken
  match fault with
  | some e => told.stopReading link e
  | none => told

/-- Why a link fails when its stream ends: in the middle of a frame, or properly. -/
def endOfStream (link : Link) : Failure :=
  if link.received.isEmpty then .connectionClosed else .io .other "bytes remaining on stream"

/-- A link reads, if there is anything to read. -/
def readLink? (w : World) (link : Link) : Option World :=
  if !link.reading then none
  else
    match ((w.network.cable link.id).incoming .initiator).peek readChunk with
    | .blocked => none
    | .bytes chunk => some (w.receive link chunk)
    | .ended => some (w.stopReading link (endOfStream link))
    | .failed kind message => some (w.stopReading link (.ofIo kind message))

/-- A link makes a step, if it has one. -/
def moveLink? (w : World) (link : Link) : Option World :=
  w.writeLink? link <|> w.readLink? link

/-! ## §4. All of them. -/

/-- One of the pools, attempts and links makes a step, if any has one. -/
def moveCaller? (w : World) : Option World :=
  (List.range w.pools.length).findSome? w.turnPool?
    <|> w.attempts.findSome? w.moveAttempt?
    <|> w.links.findSome? w.moveLink?

/-- When a pool or an attempt has something to do by itself. -/
def callerWakeups (w : World) : List Time :=
  (w.pools.filter (!·.stopped)).filterMap (·.wakeup?) ++ w.attempts.filterMap (·.waitsUntil)

end RemoteCall.Simulation.World
