/-
  RemoteCall.Server.Endpoint
  ──────────────────────────
  **THE LIFE OF AN ENDPOINT.**

      initialising ──→ accepting ⇄ backing off
            │               │
          failed         closing ──→ destroyed

  The address is bound before the service initialises, so peers that come early
  wait and are not refused.  Every accepted connection has a worker.  When the
  endpoint shuts down it accepts no more, waits for its workers, and lets the
  service know that it is over.  An endpoint that is merely dropped shuts down
  in the same way, but the end is not awaited.
-/
import RemoteCall.Pool.Connection
import RemoteCall.Server.Worker

namespace RemoteCall

/-! ## §1. Endpoints. -/

/-- How long accepting pauses after a failure, in milliseconds. -/
def acceptPause : Nat := 10

/-- What an endpoint counts. -/
structure Counters where
  /-- Connections that were accepted. -/
  accepted : Nat := 0
  /-- Connections whose worker has not finished. -/
  active : Nat := 0
  /-- Calls that were handed to the service. -/
  dispatched : Nat := 0
  /-- Dispatched calls that were completed. -/
  completed : Nat := 0
  failed : Nat := 0
  deriving DecidableEq, Repr, Inhabited

namespace Counters

/-- A connection is accepted. -/
def opened (c : Counters) : Counters :=
  { c with accepted := c.accepted + 1, active := c.active + 1 }

/-- A worker has finished. -/
def closed (c : Counters) : Counters :=
  { c with active := c.active - 1 }

/-- Counts what a worker does. -/
def count (c : Counters) : WorkerEffect → Counters
  | .dispatched _ _ _ => { c with dispatched := c.dispatched + 1 }
  | .finished _ (.ok _) => { c with completed := c.completed + 1 }
  | .finished _ (.error _) => { c with failed := c.failed + 1 }
  | _ => c

/-- Counts everything that a worker does. -/
def countAll (c : Counters) (effects : List WorkerEffect) : Counters :=
  effects.foldl count c

end Counters

/-- How far an endpoint has got. -/
inductive Stage where
  | initialising
  /-- The service has failed to initialise. -/
  | failed (e : Failure)
  | accepting
  /-- Accepting has failed and is tried again at `resumeAt`; nothing else is noticed before. -/
  | backingOff (resumeAt : Time)
  /-- No more connections are accepted; the workers finish. -/
  | closing
  /-- The service has been told that it is over. -/
  | destroyed
  deriving Repr, DecidableEq

/-- An accepted connection. -/
structure Hosted (σ : Type) where
  worker : Worker σ
  link : LinkId
  /-- Whether the worker has not finished. -/
  running : Bool := true

/-- A service at an address. -/
structure Endpoint (σ : Type) where
  service : Service σ
  limits : EndpointConfig
  /-- The address at which peers connect. -/
  localName : PeerName
  stage : Stage := .initialising
  /-- Whether it has been told to shut down. -/
  shutdown : Bool := false
  /-- Whether the end is awaited. -/
  awaited : Bool := false
  counters : Counters := {}
  /-- The accepted connections, the oldest first. -/
  hosted : List (Hosted σ) := []

namespace Endpoint

variable {σ : Type}

/-- Whether the endpoint is up and has not been told to shut down. -/
def isUp (e : Endpoint σ) : Bool :=
  !e.shutdown &&
    match e.stage with
    | .accepting | .backingOff _ => true
    | _ => false

/-- Whether all workers have finished. -/
def isQuiet (e : Endpoint σ) : Bool :=
  e.hosted.all (!·.running)

/-- Changes one of the accepted connections. -/
def modify (e : Endpoint σ) (i : Nat) (f : Hosted σ → Hosted σ) : Endpoint σ :=
  { e with hosted := e.hosted.modify i f }

/-! ## §2. Steps. -/

/-- What may happen to an endpoint. -/
inductive Event where
  /-- The service has initialised, or has failed to. -/
  | initialised (result : Outcome Unit)
  | accepted (peer : PeerName) (link : LinkId)
  | acceptFailed (now : Time)
  | resumed (now : Time)
  /-- The endpoint is told to shut down; whether the end is awaited. -/
  | signalled (awaited : Bool)
  /-- No more connections are accepted. -/
  | closed
  | worked (i : Nat) (event : Worker.Event)
  /-- A call of a connection is resolved. -/
  | resolved (i : Nat) (call : IncompleteCall) (outcome : Outcome Bytes)
  /-- A worker has nothing more to do. -/
  | retired (i : Nat)
  /-- The service is told that it is over. -/
  | destroyed

/-- Whether an event may happen now. -/
def enabled (e : Endpoint σ) : Event → Bool
  | .initialised _ => e.stage == .initialising
  | .accepted _ _ => e.stage == .accepting
  | .acceptFailed _ => e.stage == .accepting
  | .resumed now =>
    match e.stage with
    | .backingOff resumeAt => resumeAt ≤ now
    | _ => false
  | .signalled _ =>
    match e.stage with
    | .initialising | .failed _ => false
    | _ => true
  | .closed => e.stage == .accepting && e.shutdown
  | .worked i event =>
    match e.hosted[i]? with
    | some h => h.running && !h.worker.isDone && h.worker.enabled e.limits e.shutdown event
    | none => false
  | .resolved i _ _ => (e.hosted[i]?).isSome
  | .retired i =>
    match e.hosted[i]? with
    | some h => h.running && h.worker.isDone
    | none => false
  | .destroyed => e.stage == .closing && e.isQuiet && e.awaited

/-- The endpoint after an event, and what its workers have done. -/
def step (e : Endpoint σ) : Event → Endpoint σ × List WorkerEffect
  | .initialised (.ok _) => ({ e with stage := .accepting }, [])
  | .initialised (.error failure) => ({ e with stage := .failed failure }, [])
  | .accepted peer link =>
    ({ e with
        counters := e.counters.opened
        hosted := e.hosted ++ [{ worker := .new e.service peer, link }] }, [])
  | .acceptFailed now => ({ e with stage := .backingOff (now + acceptPause) }, [])
  | .resumed _ => ({ e with stage := .accepting }, [])
  | .signalled awaited => ({ e with shutdown := true, awaited := e.awaited || awaited }, [])
  | .closed => ({ e with stage := .closing }, [])
  | .worked i event =>
    match e.hosted[i]? with
    | none => (e, [])
    | some h =>
      let (worker, effects) := h.worker.step e.service e.limits e.shutdown event
      ({ e.modify i fun h => { h with worker } with counters := e.counters.countAll effects },
        effects)
  | .resolved i call outcome =>
    (e.modify i fun h => { h with worker := h.worker.resolve call outcome }, [])
  | .retired i =>
    ({ e.modify i fun h => { h with running := false } with counters := e.counters.closed }, [])
  | .destroyed => ({ e with stage := .destroyed }, [])

end Endpoint

end RemoteCall
