/-
  RemoteCall.Simulation.Report
  ────────────────────────────
  **WHAT IS SHOWN OF A WORLD.**

  A report shows what has happened since the last one, and the statistics of
  the moment.  Making a report marks what it shows, so that nothing is shown
  twice:

      takeFrames    — what sockets have received
      takeFinished  — which calls have finished
      hostReport    — what endpoints have logged, started and stopped
-/
import RemoteCall.Simulation.World

namespace RemoteCall.Simulation

/-! ## §1. Parts of a report. -/

/-- The outcome of a call, with the shape of its response. -/
structure Settled where
  shape : Payload.Shape
  outcome : Outcome shape.Value

/-- The outcome that an entry holds, if there is one. -/
def Settled.ofEntry? (entry : Entry) : Option Settled :=
  entry.slot.outcome.map fun outcome => ⟨entry.shape, outcome⟩

/-- Something that was received on a socket. -/
inductive Received where
  /-- A frame from the side that connected. -/
  | request (frame : RequestFrame)
  /-- A frame from the side that accepted. -/
  | response (frame : ResponseFrame)
  /-- Bytes at the end of the stream that make no whole frame. -/
  | remnant (bytes : Bytes)
  | ended
  deriving Repr

/-- What is shown of an endpoint. -/
structure HostReport where
  /-- How starting the endpoint has ended. -/
  start : Option (Outcome PeerName) := none
  log : List Note := []
  /-- The kept calls whose answers are no longer wanted, by number. -/
  abandoned : List Nat := []
  /-- What the endpoint has counted, while it is up. -/
  counters : Option Counters := none
  /-- Whether the endpoint has stopped. -/
  stopped : Bool := false

/-- Whether there is nothing to show. -/
def HostReport.isEmpty (r : HostReport) : Bool :=
  r.start.isNone && r.log.isEmpty && r.abandoned.isEmpty && r.counters.isNone && !r.stopped

/-- What is shown of a world. -/
structure Report where
  now : Time
  /-- What was received, by the name of the socket. -/
  wire : List (String × List Received)
  /-- The calls that have finished, by name. -/
  done : List (String × Settled)
  /-- The statistics of the pool in use, if there is one. -/
  pool : Option (List ConnectionStats)
  /-- What is shown of each endpoint, by name. -/
  hosts : List (String × HostReport)

/-! ## §2. Frames. -/

namespace Received

/-- The sequence number of a cancel. -/
def cancelled? : Received → Option SequenceNumber
  | .request frame => if frame.kind = .cancel then some frame.sequence else none
  | _ => none

/-- Whether both are cancels, or neither is. -/
def alike (a b : Received) : Bool :=
  a.cancelled?.isSome == b.cancelled?.isSome

/-- Whether the sequence number of one cancel is at most that of another. -/
def cancelledBefore (a b : Received) : Bool :=
  match a.cancelled?, b.cancelled? with
  | some m, some n => m ≤ n
  | _, _ => true

/-- Each run of cancels in the order of their sequence numbers; cancels that are sent at one moment
have no order of their own. -/
def sortCancels (items : List Received) : List Received :=
  (items.splitBy alike).flatMap (·.mergeSort cancelledBefore)

end Received

namespace Socket

/-- The largest frame that is recognised on a socket. -/
def frameLimit : Nat := 2 ^ 32

/-- Makes frames of bytes that were taken. -/
def split (s : Socket) (chunk : Bytes) : Socket × List Received :=
  let bytes := s.received ++ chunk
  match s.side with
  | .acceptor =>
    let (frames, _, rest) := RequestFrame.drain frameLimit bytes
    ({ s with received := rest }, frames.map .request)
  | .initiator =>
    let (frames, _, rest) := ResponseFrame.drain frameLimit bytes
    ({ s with received := rest }, frames.map .response)

/-- Shows the end of a stream, and before it the bytes that make no whole frame. -/
def finish (s : Socket) : Socket × List Received :=
  let remnant := if s.received.isEmpty then [] else [.remnant s.received]
  ({ s with received := [], endShown := true }, remnant ++ [.ended])

/-- Takes at most `limit` bytes off a stream: the socket, the stream, what was received, and how
many bytes were taken. -/
def take (s : Socket) (stream : Stream) (limit : Nat) : Socket × Stream × List Received × Nat :=
  let chunk := stream.pending.take limit
  let (taken, frames) := s.split chunk
  (taken, stream.skip chunk.length, frames, chunk.length)

/-- Shows the end of a stream if nothing more will come and it was not shown. -/
def takeEnd (s : Socket) (stream : Stream) : Socket × List Received :=
  if stream.ended && stream.pending.isEmpty && !s.endShown then s.finish else (s, [])

end Socket

namespace World

/-- Takes at most `limit` bytes from a socket. -/
def takeFrom (w : World) (i : Nat) (s : Socket) (limit : Nat) : World × List Received × Nat :=
  let stream := (w.network.cable s.link).incoming s.side
  let (taken, stream, frames, count) := s.take stream limit
  let (shown, ending) := taken.takeEnd stream
  ({ w with
      sockets := w.sockets.set i shown
      network := w.network.mapCable s.link (·.mapIncoming s.side fun _ => stream) },
    frames ++ ending, count)

/-- Takes everything from the sockets that are read by themselves. -/
def takeFrames (w : World) : World × List (String × List Received) :=
  w.sockets.zipIdx.foldl (fun (w, shown) (s, i) =>
    if s.isManual then (w, shown)
    else
      let pending := ((w.network.cable s.link).incoming s.side).pending.length
      match w.takeFrom i s pending with
      | (w, [], _) => (w, shown)
      | (w, items, _) => (w, shown ++ [(s.name, Received.sortCancels items)])) (w, [])

/-! ## §3. Calls. -/

/-- The outcome of a call that has a name, if it has one. -/
def outcome? (w : World) (call : NamedCall) : Option Settled := do
  Settled.ofEntry? (← w.entry? call.pool call.id)

/-- Shows the calls that have finished since the last report. -/
def takeFinished (w : World) : World × List (String × Settled) :=
  let shown :=
    w.calls.filterMap fun call =>
      if call.shown then none else (w.outcome? call).map fun outcome => (call.name, outcome)
  ({ w with
      calls := w.calls.map fun call =>
        if (w.outcome? call).isSome then { call with shown := true } else call },
    shown)

end World

/-! ## §4. Endpoints. -/

namespace Host

/-- Whether a kept call is to be shown as one whose answer is no longer wanted. -/
def isToShow (h : Host) (held : Held) : Bool :=
  !held.resolved && !held.shown && h.isAbandoned held

/-- What is shown of an endpoint. -/
def report (h : Host) : HostReport where
  start := if h.startShown then none else h.start?
  log := h.log
  abandoned := (h.held.zipIdx.filter fun (held, _) => h.isToShow held).map (·.2)
  counters := if h.endpoint.isUp then some h.endpoint.counters else none
  stopped := h.endpoint.stage == .destroyed && !h.stopShown

/-- The endpoint after a report. -/
def afterReport (h : Host) : Host :=
  { h with
    log := []
    held := h.held.map fun held =>
      if h.isToShow held then { held with shown := true } else held
    startShown := h.startShown || h.start?.isSome
    stopShown := h.stopShown || h.endpoint.stage == .destroyed }

end Host

/-! ## §5. Reports. -/

/-- The endpoints that still bear their names: of several with one name, the latest. -/
def World.namedHosts (w : World) : List Host :=
  (w.hosts.zipIdx.filter fun (h, i) => (w.hosts.drop (i + 1)).all (·.name != h.name)).map (·.1)

/-- Makes a report of a world. -/
def World.report (w : World) : World × Report :=
  let (w, wire) := w.takeFrames
  let (w, done) := w.takeFinished
  let hosts := (w.namedHosts.map fun h => (h.name, h.report)).filter (!·.2.isEmpty)
  ({ w with hosts := w.hosts.map (·.afterReport) },
    { now := w.now, wire, done, pool := w.pool?.map (·.stats), hosts })

end RemoteCall.Simulation
