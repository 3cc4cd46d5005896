/-
  RemoteCall.Proofs.Link.Exchange
  ───────────────────────────────
  **A CALLER AND AN AGENT ON ONE LINK.**

  A connection of a pool and a worker of an endpoint exchange frames on one
  stream.  Requests and responses are two queues of bytes; each end takes as
  many bytes as it likes at a time:

      connection → writer → outgoing → worker → incoming → reader → responses

  The connection does what a pool makes it do, in any order; the worker makes
  any step that is enabled; calls that services keep are resolved at any time;
  and the observers of calls may do to the ledger what they like.
-/
import RemoteCall.Proofs.Link.Dealing

namespace RemoteCall

variable {σ : Type}

/-! ## §1. Exchanges. -/

/-- A connection, a worker, and what is between them. -/
structure Exchange (σ : Type) where
  /-- The connection of the caller. -/
  caller : Connection
  /-- The slots of the calls. -/
  ledger : Ledger
  /-- Whether the writer of the link goes on. -/
  writing : Bool := true
  /-- Request bytes that the worker has not received. -/
  outgoing : Bytes := []
  /-- The worker, and what is around it. -/
  agent : Worker.Scene σ
  /-- Response bytes that the reader of the link has not read. -/
  incoming : Bytes := []
  /-- Response bytes that were read and not decoded. -/
  received : Bytes := []
  /-- Whether the reader of the link goes on. -/
  reading : Bool := true
  /-- Responses that the connection has not looked at, the oldest first. -/
  responses : List ResponseFrame := []

namespace Exchange

/-- The writer writes a frame.  One that is too large stops it. -/
def write (max : Nat) (x : Exchange σ) (frame : RequestFrame) : Exchange σ :=
  if x.writing then
    match frame.encode max with
    | .ok bytes => { x with outgoing := x.outgoing ++ bytes }
    | .error _ => { x with writing := false }
  else x

/-- The connection moves, and the writer writes the frames that it has taken. -/
def move (config : PoolConfig) (x : Exchange σ) (moved : Moved) : Exchange σ × List Effect :=
  let settled : Exchange σ := { x with caller := moved.connection, ledger := moved.ledger }
  ((takenIn moved.effects).foldl (write config.maxMessageSize) settled, moved.effects)

/-- The reader reads some bytes.  A fault stops it. -/
def read (max : Nat) (count : Nat) (x : Exchange σ) : Exchange σ :=
  if x.reading then
    let (frames, fault, left) := ResponseFrame.drain max (x.received ++ x.incoming.take count)
    { x with
      incoming := x.incoming.drop count
      received := left
      reading := fault.isNone
      responses := x.responses ++ frames }
  else x

/-- What the caller may do. -/
inductive Act where
  /-- A call joins those that wait. -/
  | queued (call : PendingCall)
  /-- Others do something to the slots of the calls. -/
  | observed (ledger : Ledger)
  /-- The waiting calls are sent. -/
  | flushed (env : Surroundings)
  /-- Calls time out. -/
  | expired (env : Surroundings) (now : Time)
  /-- Whatever is due is done. -/
  | advanced (env : Surroundings) (now : Time)
  /-- A call is let go of. -/
  | canceled (env : Surroundings) (id : CallId)
  /-- The connection looks at the oldest response. -/
  | looked
  /-- The link is lost. -/
  | lost (e : Failure)
  /-- The reader reads some bytes. -/
  | read (count : Nat)

/-- What there is after the caller has done something, and the effects of that. -/
def act (config : PoolConfig) (x : Exchange σ) : Act → Exchange σ × List Effect
  | .queued call =>
    ({ x with caller := { x.caller with waiting := x.caller.waiting ++ [call] } }, [])
  | .observed ledger => ({ x with ledger }, [])
  | .flushed env =>
    let (connection, effects) := x.caller.flush env config x.ledger
    x.move config { connection, ledger := x.ledger, effects }
  | .expired env now => x.move config (x.caller.expire env now x.ledger)
  | .advanced env now => x.move config (x.caller.advance env config now x.ledger)
  | .canceled env id =>
    match x.caller.cancel? env id with
    | some (connection, effects) => x.move config { connection, ledger := x.ledger, effects }
    | none => (x, [])
  | .looked =>
    match x.responses with
    | frame :: later =>
      { x with responses := later }.move config (x.caller.respond config frame x.ledger)
    | [] => (x, [])
  | .lost e => x.move config (x.caller.lose config e x.ledger)
  | .read count => (x.read config.maxMessageSize count, [])

/-- What there is after something has happened at the agent. -/
def serve (service : Service σ) (limits : EndpointConfig) (x : Exchange σ)
    (occurrence : Worker.Occurrence) : Exchange σ :=
  let moment : Worker.Moment σ := ⟨x.agent, occurrence⟩
  { x with
    agent := (x.agent.after service limits occurrence).1
    outgoing := x.outgoing.drop moment.arrived.length
    incoming := x.incoming ++ moment.wrote }

/-! ## §2. Runs. -/

/-- An exchange has come this far, with these effects at the caller and these moments at the agent.
The link is new at first; what the worker receives is the beginning of what is outgoing. -/
inductive Run (service : Service σ) (limits : EndpointConfig) (config : PoolConfig) :
    List Effect → List (Worker.Moment σ) → Exchange σ → Prop where
  /-- The link is new. -/
  | start (c : Connection) (ledger : Ledger) (peer : PeerName) (link : LinkId) (origin : PeerName) :
    Run service limits config [] []
      { caller := (c.attach peer link).1, ledger, agent := { worker := .new service origin } }
  /-- The caller does something. -/
  | caller {effects : List Effect} {history : List (Worker.Moment σ)} {x : Exchange σ}
    (run : Run service limits config effects history x) (act : Act) :
    Run service limits config (effects ++ (x.act config act).2) history (x.act config act).1
  /-- Something happens at the agent. -/
  | agent {effects : List Effect} {history : List (Worker.Moment σ)} {x : Exchange σ}
    (run : Run service limits config effects history x) (occurrence : Worker.Occurrence) :
    x.agent.Admits limits occurrence →
    (⟨x.agent, occurrence⟩ : Worker.Moment σ).arrived <+: x.outgoing →
    Run service limits config effects (history ++ [⟨x.agent, occurrence⟩])
      (x.serve service limits occurrence)

end Exchange

end RemoteCall
