/-
  RemoteCall.Pool.Transition
  ──────────────────────────
  **WHAT HAPPENS TO A POOLED CONNECTION.**

  Every transition is a function from a connection and the ledger of calls to
  their next state, with the effects it has on the outside:

      expire     — calls past their deadline time out, settled calls are let go
      seek       — an attempt to connect is started
      flush      — waiting calls are sent on the link
      respond    — a response frame has arrived
      lose       — the attempt or the link has failed
      cancel     — a caller has given up
      abandon    — the pool is shut down

  A call never leaves a connection unless it is settled.
-/
import RemoteCall.Pool.Connection

namespace RemoteCall

/-! ## §1. The outside. -/

/-- What the outside is like while a transition runs. -/
structure Surroundings where
  /-- The peers of an agent, in order of preference. -/
  lookup : AgentName → List PeerName
  /-- Whether the writer of a link takes a frame. -/
  takes : LinkId → RequestFrame → Bool
  /-- A number between zero and one for each frame; a call is sent twice if it falls short of the
  probability of duplicates. -/
  draw : LinkId → SequenceNumber → Float

/-- What a transition does to the outside. -/
inductive Effect where
  | seek (key : ConnectionKey) (generation : Nat) (candidates : List PeerName)
  | giveUp (key : ConnectionKey) (generation : Nat)
  /-- Start reading from and writing to a link. -/
  | attach (key : ConnectionKey) (generation : Nat) (link : LinkId)
  /-- Hand a frame about a call to the writer of a link, which takes it or not. -/
  | send (link : LinkId) (call : PendingCall) (frame : RequestFrame) (taken : Bool)
  | close (link : LinkId)
  deriving Repr

/-- What a transition comes to. -/
structure Moved where
  connection : Connection
  ledger : Ledger
  effects : List Effect := []

/-- What becomes of the outside when a phase is left. -/
def Connection.leave (c : Connection) : List Effect :=
  match c.phase with
  | .connecting _ => [.giveUp c.key c.generation]
  | .connected live => [.close live.link]
  | _ => []

/-! ## §2. Deadlines. -/

/-- Times out those of the calls whose deadline has come. -/
def Ledger.timeOut (ledger : Ledger) (now : Time) (calls : List PendingCall) : Ledger :=
  ledger.failAll ((calls.filter (·.isExpired now)).map (·.id)) .timeout

/-- Those of the calls that have no outcome. -/
def Ledger.unsettled (ledger : Ledger) (calls : List PendingCall) : List PendingCall :=
  calls.filter fun call => !ledger.isFinished call.id

namespace Live

/-- The calls in flight that have an outcome, with their sequence numbers. -/
def settled (live : Live) (ledger : Ledger) : List (SequenceNumber × PendingCall) :=
  live.inFlight.filter fun sent => ledger.isFinished sent.2.id

/-- Lets go of the calls in flight that have an outcome. -/
def forget (live : Live) (ledger : Ledger) : Live :=
  { live with inFlight := live.inFlight.filter fun sent => !ledger.isFinished sent.2.id }

/-- Hands a frame about a call to the writer. -/
def handOver (live : Live) (env : Surroundings) (call : PendingCall) (frame : RequestFrame) :
    Effect :=
  .send live.link call frame (env.takes live.link frame)

end Live

namespace Connection

/-- Times out the calls whose deadline has come, and lets go of all calls that have an outcome; the
agent is told of those that were in flight. -/
def expire (env : Surroundings) (now : Time) (c : Connection) (ledger : Ledger) : Moved :=
  let ledger := ledger.timeOut now (c.waiting ++ c.inFlight)
  let waiting := ledger.unsettled c.waiting
  match c.phase with
  | .connected live =>
    { connection := { c with waiting, phase := .connected (live.forget ledger) }
      ledger
      effects := (live.settled ledger).map fun (n, call) =>
        live.handOver env call (.cancel c.key.interface n) }
  | _ => { connection := { c with waiting }, ledger }

/-! ## §3. Connecting. -/

/-- Starts an attempt to connect; without a peer, the connection waits for the directory. -/
def seek (env : Surroundings) (c : Connection) : Connection × List Effect :=
  match env.lookup c.key.agent with
  | [] => ({ c with looking := true }, [])
  | peers =>
    ({ c with
        generation := c.generation + 1
        attempts := c.attempts + 1
        phase := .connecting peers },
      [.seek c.key (c.generation + 1) peers])

/-- Whether an attempt is to be started. -/
def isDue (c : Connection) (now : Time) : Bool :=
  match c.phase with
  | .disconnected retryAt => retryAt ≤ now && !c.looking && c.hasDemand
  | _ => false

/-- The attempt has succeeded. -/
def attach (c : Connection) (peer : PeerName) (link : LinkId) : Connection × List Effect :=
  ({ c with phase := .connected { peer, link } }, [.attach c.key c.generation link])

end Connection

/-! ## §4. Sending. -/

/-- Whether a call that is sent under `n` is to be sent twice. -/
def Surroundings.duplicates (env : Surroundings) (config : PoolConfig) (link : LinkId)
    (n : SequenceNumber) : Bool :=
  0.0 < config.dupeCalls && env.draw link n < config.dupeCalls

/-- What sending the waiting calls comes to. -/
structure Flushed where
  live : Live
  waiting : List PendingCall
  effects : List Effect

namespace Live

/-- Sends a call a second time, under a sequence number of its own. -/
def duplicate (live : Live) (env : Surroundings) (interface : UInt32) (call : PendingCall) :
    Live × Effect :=
  let n := live.next
  let frame := RequestFrame.call interface n call.request
  let sent := live.advance
  (if env.takes live.link frame then sent.discard n else sent, live.handOver env call frame)

/-- Sends a call whose frame the writer takes, and sends it a second time if the draw says so. -/
def transmit (live : Live) (env : Surroundings) (config : PoolConfig) (interface : UInt32)
    (call : PendingCall) : Live × List Effect :=
  let n := live.next
  let effect := live.handOver env call (.call interface n call.request)
  if env.duplicates config live.link n then
    let (twice, again) := live.advance.duplicate env interface call
    (twice.put n call, [effect, again])
  else (live.advance.put n call, [effect])

/-- Sends the waiting calls in order, until the writer refuses a frame.  A call that has an outcome
is passed over. -/
def flush (env : Surroundings) (config : PoolConfig) (interface : UInt32) (ledger : Ledger)
    (live : Live) : List PendingCall → Flushed
  | [] => ⟨live, [], []⟩
  | call :: rest =>
    if ledger.isFinished call.id then flush env config interface ledger live rest
    else
      let frame := RequestFrame.call interface live.next call.request
      if env.takes live.link frame then
        let (sent, effects) := live.transmit env config interface call
        let more := flush env config interface ledger sent rest
        { more with effects := effects ++ more.effects }
      -- the frame is lost with its number, but the call still waits
      else ⟨live.advance, call :: rest, [live.handOver env call frame]⟩

end Live

namespace Connection

/-- Sends the waiting calls, if there is a link that is not draining. -/
def flush (env : Surroundings) (config : PoolConfig) (c : Connection) (ledger : Ledger) :
    Connection × List Effect :=
  match c.phase with
  | .connected live =>
    if live.draining then (c, [])
    else
      let flushed := live.flush env config c.key.interface ledger c.waiting
      ({ c with waiting := flushed.waiting, phase := .connected flushed.live }, flushed.effects)
  | _ => (c, [])

/-- Notes since when the connection is without use. -/
def noteDemand (c : Connection) (now : Time) : Connection :=
  if c.hasDemand then { c with idleSince := none }
  else if c.idleSince.isNone then { c with idleSince := some now }
  else c

/-- After a failure the connection waits before it connects again. -/
def backOff (config : PoolConfig) (now : Time) (c : Connection) : Connection :=
  match c.phase with
  | .errored _ => { c with phase := .disconnected (now + config.reconnectInterval) }
  | _ => c

/-- Whatever is due: deadlines, backing off, connecting, sending. -/
def advance (env : Surroundings) (config : PoolConfig) (now : Time) (c : Connection)
    (ledger : Ledger) : Moved :=
  let expired := c.expire env now ledger
  let rested := expired.connection.backOff config now
  let (sought, seeking) := if rested.isDue now then rested.seek env else (rested, [])
  let (flushed, sending) := sought.flush env config expired.ledger
  { connection := flushed.noteDemand now
    ledger := expired.ledger
    effects := expired.effects ++ seeking ++ sending }

end Connection

/-! ## §5. Failures of an attempt or a link. -/

/-- Charges each call without an outcome one retry.  A call whose budget is spent fails; the others
are given back, in order. -/
def Ledger.chargeAll (limit : UInt32) (e : Failure) :
    List PendingCall → Ledger → List PendingCall × Ledger
  | [], ledger => ([], ledger)
  | call :: rest, ledger =>
    if ledger.isFinished call.id then chargeAll limit e rest ledger
    -- a budget of n allows n charges; the next one is an outcome
    else if limit < call.retries + 1 then chargeAll limit e rest (ledger.fail call.id e)
    else
      let (kept, ledger) := chargeAll limit e rest ledger
      ({ call with retries := call.retries + 1 } :: kept, ledger)

namespace Connection

/-- The calls in flight in the order in which they were issued. -/
def inFlightByAge (c : Connection) : List PendingCall :=
  c.inFlight.mergeSort fun a b => a.id ≤ b.id

/-- The attempt or the link has failed.

If there was a link, the calls in flight on it fail when the peer broke the protocol or refuses the
interface version, and are charged a retry otherwise; they come before the calls that wait, which
are not charged.  If there was none, the calls that wait are charged. -/
def lose (config : PoolConfig) (e : Failure) (c : Connection) (ledger : Ledger) : Moved :=
  let lost : Connection := { c with phase := .errored e }
  match c.phase with
  | .connected _ =>
    -- to send the calls again would end the same way
    if e.isProtocol || e.isVersionRejection then
      let ledger := ledger.failAll (c.inFlightByAge.map (·.id)) e
      { connection := { lost with waiting := ledger.unsettled c.waiting }
        ledger
        effects := c.leave }
    else
      let (kept, ledger) := Ledger.chargeAll config.callRetries e c.inFlightByAge ledger
      { connection :=
          { lost with
            waiting := kept ++ ledger.unsettled c.waiting
            retries := c.retries + kept.length }
        ledger
        effects := c.leave }
  | _ =>
    let (kept, ledger) := Ledger.chargeAll config.callRetries e c.waiting ledger
    { connection := { lost with waiting := kept, retries := c.retries + kept.length }
      ledger
      effects := c.leave }

/-! ## §6. Responses. -/

/-- A response that can be read settles its call.  One that cannot be read settles it too, unless
the request may be sent again and the budget allows it. -/
def answer (config : PoolConfig) (payload : Bytes) (call : PendingCall) (c : Connection)
    (ledger : Ledger) : Moved :=
  match ledger.deliver call.id payload with
  | (ledger, .ok _) => { connection := c, ledger }
  | (ledger, .error e) =>
    if call.idempotent && call.retries < config.callRetries then
      { connection :=
          { c with
            waiting := c.waiting ++ [{ call with retries := call.retries + 1 }]
            retries := c.retries + 1 }
        ledger }
    else { connection := c, ledger := ledger.fail call.id e }

/-- A response frame has arrived.

The response to a duplicate is dropped, and so is one to a call that is not in flight.  An agent
that is shutting down has not run the call: it waits for the next link, uncharged, and nothing more
is sent on this one.  An agent that refuses the interface version fails the whole link. -/
def respond (config : PoolConfig) (frame : ResponseFrame) (c : Connection) (ledger : Ledger) :
    Moved :=
  match c.phase with
  | .connected live =>
    let n := frame.sequence
    if live.discarded.contains n then
      { connection :=
          { c with
            phase := .connected { live with discarded := live.discarded.filter (· != n) } }
        ledger }
    else
      match live.callAt? n with
      | none => { connection := c, ledger }
      | some call =>
        let taken : Connection := { c with phase := .connected (live.takeOut n) }
        match frame.result with
        | .ok payload => taken.answer config payload call ledger
        | .error e =>
          -- the call has not run, so to send it again costs nothing
          if e.isRefusal then
            { connection :=
                { c with
                  phase := .connected { live.takeOut n with draining := true }
                  waiting := c.waiting ++ [call] }
              ledger }
          else if e.isVersionRejection then
            taken.lose config e (ledger.fail call.id e)
          else { connection := taken, ledger := ledger.fail call.id e }
  | _ => { connection := c, ledger }

/-! ## §7. Giving up. -/

/-- Lets go of a call that a caller has given up, if the connection holds it.  The agent is told if
the call was in flight. -/
def cancel? (env : Surroundings) (id : CallId) (c : Connection) :
    Option (Connection × List Effect) :=
  if c.waiting.any (·.id == id) then
    some ({ c with waiting := c.waiting.eraseP (·.id == id) }, [])
  else
    match c.phase with
    | .connected live =>
      match live.inFlight.find? (·.2.id == id) with
      | some (n, call) =>
        some ({ c with phase := .connected (live.takeOut n) },
          [live.handOver env call (.cancel c.key.interface n)])
      | none => none
    | _ => none

/-- The directory has changed.

A link whose peer is no longer listed is lost.  An attempt whose peers have changed is dropped
without charging any call, and another may be started at once. -/
def reconsider (env : Surroundings) (config : PoolConfig) (now : Time) (c : Connection)
    (ledger : Ledger) : Moved :=
  let seen : Connection := { c with looking := false }
  let peers := env.lookup c.key.agent
  match c.phase with
  | .connected live =>
    if peers.any (·.same live.peer) then { connection := seen, ledger }
    else
      seen.lose config
        (.connectionFailed s!"{c.key.agent.text} no longer advertised at {live.peer.text}") ledger
  | .connecting candidates =>
    -- an attempt is about all its candidates, a link about one peer
    if PeerName.sameAll candidates peers then { connection := seen, ledger }
    else
      { connection :=
          { seen with generation := c.generation + 1, phase := .disconnected now }
        ledger
        effects := c.leave }
  | _ => { connection := seen, ledger }

/-- The pool is shut down: every call without an outcome is told that the pool is gone. -/
def abandon (c : Connection) (ledger : Ledger) : Ledger × List Effect :=
  (ledger.failAll ((c.waiting ++ c.inFlight).map (·.id)) .disconnected, c.leave)

end Connection

end RemoteCall
