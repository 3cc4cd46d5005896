/-
  RemoteCall.Server.Worker
  ────────────────────────
  **THE WORKER OF ONE CONNECTION.**

  A worker takes request frames off its receive buffer, hands calls to the
  service, and puts responses into its transmit buffer.  Two limits bound what
  a peer can make it hold:

    • at `maxOutstandingCalls` unresolved calls it dispatches no other, and
      reads ahead by a bounded amount only, so that cancels still get through;
    • at `txBufferLimit` unsent bytes it takes up no further outcome.

  Outcomes of calls come in through a queue, wherever they are resolved.
-/
import RemoteCall.Config.Endpoint
import RemoteCall.Frame.Lookahead
import RemoteCall.Server.Service

namespace RemoteCall

/-- How many bytes are read at a time, and read ahead when no call may be dispatched. -/
def readChunk : Nat := 8 * 1024

/-! ## §1. Workers. -/

/-- The resolution of a dispatched call. -/
structure Completed where
  /-- The call. -/
  call : IncompleteCall
  /-- How it was resolved. -/
  outcome : Outcome Bytes

/-- The worker of a connection. -/
structure Worker (σ : Type) where
  /-- The other side. -/
  peer : PeerName
  /-- The session that the service keeps for the connection. -/
  session : σ
  /-- Bytes that were received and not decoded. -/
  received : Bytes := []
  /-- Response bytes that were not sent. -/
  unsent : Bytes := []
  /-- The dispatched calls that have not been answered, by sequence number. -/
  outstanding : List (SequenceNumber × Ticket) := []
  /-- The interface version, fixed by the first request. -/
  version : Option UInt32 := none
  /-- Resolutions that were not taken up, the oldest first. -/
  completions : List Completed := []
  /-- Whether no answer on this connection is wanted any more. -/
  abandoned : Bool := false
  /-- The dispatches whose answers are not wanted any more. -/
  revoked : List Ticket := []
  /-- The number of the next dispatch. -/
  nextTicket : Ticket := 0
  /-- Whether requests are still taken. -/
  reading : Bool := true
  /-- Whether the stream is of no more use. -/
  broken : Bool := false

/-- What a worker does that others take notice of. -/
inductive WorkerEffect where
  /-- The service was asked whether it speaks a version. -/
  | consulted (version : UInt32) (supported : Bool)
  /-- A call was handed to the service. -/
  | dispatched (incoming : Incoming) (fate : Fate) (verdict : Outcome Unit)
  /-- An outstanding call is outstanding no more: it was resolved or rejected. -/
  | finished (call : IncompleteCall) (outcome : Outcome Bytes)
  /-- A response was put into the transmit buffer, or dropped if it does not fit. -/
  | queued (frame : ResponseFrame)

/-- What a step of a worker comes to. -/
abbrev Worked (σ : Type) := Worker σ × List WorkerEffect

namespace Worker

variable {σ : Type}

/-- The worker of a new connection. -/
def new (service : Service σ) (peer : PeerName) : Worker σ :=
  { peer, session := service.connected peer }

/-- The dispatch that is outstanding under a sequence number. -/
def outstanding? (w : Worker σ) (n : SequenceNumber) : Option Ticket :=
  (w.outstanding.find? (·.1 == n)).map (·.2)

/-- Whether as many calls are outstanding as may be. -/
def isFull (limits : EndpointConfig) (w : Worker σ) : Bool :=
  limits.maxOutstandingCalls ≤ w.outstanding.length

/-- Whether the answer to a dispatch is no longer wanted: the endpoint is shutting down, the
connection is of no use, or the peer has cancelled the call. -/
def isAbandoned (w : Worker σ) (shutdown : Bool) (ticket : Ticket) : Bool :=
  shutdown || w.abandoned || w.revoked.contains ticket

/-- The answer to the call under a sequence number is no longer wanted. -/
def revoke (w : Worker σ) (n : SequenceNumber) : Worker σ :=
  match w.outstanding? n with
  | some ticket => { w with revoked := ticket :: w.revoked }
  | none => w

/-- The answers to several calls are no longer wanted. -/
def revokeAll (w : Worker σ) (ns : List SequenceNumber) : Worker σ :=
  ns.foldl revoke w

/-! ## §2. Answering. -/

/-- The written form of a response; a failure that names the excess if it does not fit, and nothing
if that does not fit either. -/
def written (limits : EndpointConfig) (frame : ResponseFrame) : Bytes :=
  match frame.encode limits.maxMessageSize with
  | .ok bytes => bytes
  | .error e =>
    match (ResponseFrame.failure frame.sequence e).encode limits.maxMessageSize with
    | .ok bytes => bytes
    | .error _ => []

/-- Puts a response into the transmit buffer. -/
def queue (limits : EndpointConfig) (frame : ResponseFrame) (w : Worker σ) : Worked σ :=
  ({ w with unsent := w.unsent ++ written limits frame }, [.queued frame])

/-- Takes up a resolution.  One for a call that is not outstanding is dropped. -/
def complete (limits : EndpointConfig) (done : Completed) (w : Worker σ) : Worked σ :=
  let n := done.call.sequence
  match w.outstanding? n with
  | none => (w, [])
  | some _ =>
    let freed : Worker σ := { w with outstanding := w.outstanding.filter (·.1 != n) }
    -- no peer is left to be answered, but the call is over
    if freed.broken then (freed, [.finished done.call done.outcome])
    else
      let (queued, effects) := freed.queue limits (.ofOutcome n done.outcome)
      (queued, .finished done.call done.outcome :: effects)

/-- A call is resolved, from wherever. -/
def resolve (call : IncompleteCall) (outcome : Outcome Bytes) (w : Worker σ) : Worker σ :=
  { w with completions := w.completions ++ [⟨call, outcome⟩] }

/-! ## §3. Dispatching. -/

/-- What taking in a frame comes to: a worker that goes on, or one that has met a protocol error. -/
structure Admitted (σ : Type) where
  /-- The worker afterwards. -/
  worker : Worker σ
  /-- The protocol error, if there is one. -/
  fault : Option Failure := none
  /-- The effects, in order. -/
  effects : List WorkerEffect := []

/-- Checks the version of a frame.  The first frame fixes it; the service may refuse it, and then
the peer is told. -/
def checkVersion (service : Service σ) (limits : EndpointConfig) (frame : RequestFrame)
    (w : Worker σ) : Admitted σ :=
  match w.version with
  | some expected =>
    if expected = frame.version then { worker := w }
    else { worker := w, fault := some (.versionMismatch expected frame.version) }
  | none =>
    let supported := service.supports frame.version
    let asked := WorkerEffect.consulted frame.version supported
    if supported then { worker := { w with version := some frame.version }, effects := [asked] }
    else
      let e := Failure.unsupportedVersion frame.version
      let (queued, effects) := w.queue limits (.failure frame.sequence e)
      { worker := queued, fault := some e, effects := asked :: effects }

/-- Hands a call to the service.  The sequence number must not be outstanding.  A call that the
service rejects is answered at once. -/
def dispatch (service : Service σ) (limits : EndpointConfig) (shutdown : Bool)
    (frame : RequestFrame) (w : Worker σ) : Admitted σ :=
  let n := frame.sequence
  match w.outstanding? n with
  | some _ => { worker := w, fault := some (.invalidMessage s!"sequence {n} already outstanding") }
  | none =>
    let call : IncompleteCall := ⟨w.nextTicket, n, frame.version⟩
    let incoming : Incoming := ⟨call, frame.payload, w.isAbandoned shutdown call.ticket⟩
    let reaction := service.called w.session incoming
    let handed := WorkerEffect.dispatched incoming reaction.fate reaction.verdict
    let accepted : Worker σ :=
      { w with
        session := reaction.session
        nextTicket := w.nextTicket + 1
        outstanding := w.outstanding ++ [(n, call.ticket)] }
    -- a service may resolve a call before it returns; the resolution waits in the queue
    let resolved :=
      match reaction.fate.resolution? with
      | some outcome => accepted.resolve call outcome
      | none => accepted
    match reaction.verdict with
    | .ok _ => { worker := resolved, effects := [handed] }
    -- the failure is the answer, and a resolution will find no entry
    | .error e =>
      let freed : Worker σ :=
        { resolved with outstanding := resolved.outstanding.filter (·.1 != n) }
      let (queued, effects) := freed.queue limits (.failure n e)
      { worker := queued, effects := handed :: .finished call (.error e) :: effects }

/-- Takes in a frame. -/
def takeIn (service : Service σ) (limits : EndpointConfig) (shutdown : Bool)
    (frame : RequestFrame) (w : Worker σ) : Admitted σ :=
  let checked := w.checkVersion service limits frame
  match checked.fault, frame.kind with
  | some _, _ => checked
  | none, .cancel => { checked with worker := checked.worker.revoke frame.sequence }
  | none, .call =>
    let dispatched := checked.worker.dispatch service limits shutdown frame
    { dispatched with effects := checked.effects ++ dispatched.effects }

/-- What taking frames off a buffer comes to. -/
structure Pumped (σ : Type) where
  /-- The worker afterwards; its own receive buffer is out of date. -/
  worker : Worker σ
  /-- The bytes that are left. -/
  buffer : Bytes
  /-- The protocol error, if there is one. -/
  fault : Option Failure := none
  /-- The effects, in order. -/
  effects : List WorkerEffect := []

/-- Takes frames off a buffer until more bytes are needed, a frame is at fault, or no other call may
be dispatched.  In the last case cancels further back in the buffer are honoured, and stay there. -/
def pumpFrom (service : Service σ) (limits : EndpointConfig) (shutdown : Bool) (buffer : Bytes)
    (w : Worker σ) : Pumped σ :=
  -- a cancel takes no room, so it is let through even if no other call may be dispatched
  if w.isFull limits && !RequestFrame.nextIsCancel buffer then
    { worker := w.revokeAll (RequestFrame.bufferedCancels buffer), buffer }
  else
    match _h : RequestFrame.decode limits.maxMessageSize buffer with
    | .incomplete => { worker := w, buffer }
    | .fault e rest => { worker := w, buffer := rest, fault := some e }
    | .frame frame rest =>
      let admitted := w.takeIn service limits shutdown frame
      match admitted.fault with
      | some e =>
        { worker := admitted.worker, buffer := rest, fault := some e, effects := admitted.effects }
      | none =>
        let more := pumpFrom service limits shutdown rest admitted.worker
        { more with effects := admitted.effects ++ more.effects }
termination_by buffer.length
decreasing_by exact Frame.length_of_decodeWith _h

/-- Takes frames off the receive buffer.  After a protocol error nothing more is read. -/
def pump (service : Service σ) (limits : EndpointConfig) (shutdown : Bool) (w : Worker σ) :
    Worked σ :=
  let pumped := w.pumpFrom service limits shutdown w.received
  let taken : Worker σ := { pumped.worker with received := pumped.buffer }
  match pumped.fault with
  | none => (taken, pumped.effects)
  | some _ => ({ taken with reading := false, abandoned := true }, pumped.effects)

/-! ## §4. Shutting down. -/

/-- Answers the calls in a buffer that were not dispatched, so that the peer knows that they did not
run.  Cancels are honoured; from a frame at fault on, the buffer is dropped. -/
def refuseFrom (limits : EndpointConfig) (buffer : Bytes) (w : Worker σ) : Pumped σ :=
  match _h : RequestFrame.decode limits.maxMessageSize buffer with
  | .incomplete => { worker := w, buffer }
  | .fault _ _ => { worker := w, buffer := [] }
  | .frame frame rest =>
    match frame.kind with
    | .cancel => refuseFrom limits rest (w.revoke frame.sequence)
    | .call =>
      let (queued, effects) := w.queue limits (.failure frame.sequence .shuttingDown)
      let more := refuseFrom limits rest queued
      { more with effects := effects ++ more.effects }
termination_by buffer.length
decreasing_by all_goals exact Frame.length_of_decodeWith _h

/-- The endpoint is shutting down: nothing more is read, and what was not dispatched is refused. -/
def drain (limits : EndpointConfig) (w : Worker σ) : Worked σ :=
  let refused := { w with reading := false }.refuseFrom limits w.received
  ({ refused.worker with received := refused.buffer }, refused.effects)

/-- The peer is gone: only the outcomes of the outstanding calls are waited for. -/
def disconnect (w : Worker σ) : Worker σ :=
  { w with reading := false, broken := true, unsent := [], abandoned := true }

/-! ## §5. Steps. -/

/-- Whether the worker may read. -/
def canRead (limits : EndpointConfig) (w : Worker σ) : Bool :=
  w.reading && (!w.isFull limits || w.received.length < readChunk)

/-- Whether the worker may take up a resolution. -/
def canDrain (limits : EndpointConfig) (w : Worker σ) : Bool :=
  w.broken || w.unsent.length < limits.txBufferLimit

/-- Whether the worker may write. -/
def canWrite (w : Worker σ) : Bool :=
  !w.broken && !w.unsent.isEmpty

/-- Whether the worker has nothing more to do. -/
def isDone (w : Worker σ) : Bool :=
  !w.reading && w.outstanding.isEmpty && (w.broken || w.unsent.isEmpty)

/-- What may happen to a worker. -/
inductive Event where
  /-- The endpoint is shutting down. -/
  | shutdown
  /-- Bytes have arrived. -/
  | received (chunk : Bytes)
  /-- The peer has closed its side, or reading has failed. -/
  | lost
  /-- The oldest resolution is taken up. -/
  | drained
  /-- Some bytes were written. -/
  | wrote (count : Nat)
  /-- Writing has failed. -/
  | writeFailed
  deriving Repr

/-- Whether an event may happen now. -/
def enabled (limits : EndpointConfig) (shutdown : Bool) (w : Worker σ) : Event → Bool
  | .shutdown => shutdown && w.reading
  | .received chunk => w.canRead limits && !chunk.isEmpty
  | .lost => w.canRead limits
  | .drained => w.canDrain limits && !w.completions.isEmpty
  | .wrote count => w.canWrite && 0 < count && count ≤ w.unsent.length
  | .writeFailed => w.canWrite

/-- The worker after an event. -/
def step (service : Service σ) (limits : EndpointConfig) (shutdown : Bool) (w : Worker σ) :
    Event → Worked σ
  | .shutdown => w.drain limits
  | .received chunk => { w with received := w.received ++ chunk }.pump service limits shutdown
  | .lost => (w.disconnect, [])
  | .drained =>
    match w.completions with
    | [] => (w, [])
    | done :: rest =>
      let (taken, effects) := { w with completions := rest }.complete limits done
      if taken.reading then
        let (pumped, more) := taken.pump service limits shutdown
        (pumped, effects ++ more)
      else (taken, effects)
  | .wrote count => ({ w with unsent := w.unsent.drop count }, [])
  | .writeFailed => (w.disconnect, [])

end Worker

end RemoteCall
