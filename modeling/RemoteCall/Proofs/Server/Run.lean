/-
  RemoteCall.Proofs.Server.Run
  ────────────────────────────
  **RUNS OF THE WORKER OF A CONNECTION.**

  A run is a list of moments: what there was, and what happened then.  Three
  kinds of things happen, in any order: the endpoint is told to shut down, the
  worker makes a step that is enabled, and a call that a service has kept is
  resolved.  What is resolved is held no more, so it is not resolved again;
  letting go of a call is to resolve it as abandoned.

  What a run leaves behind is read off its moments: the bytes that were
  received and written, the frames that were queued, the calls that were
  dispatched, and how they were resolved.
-/
import RemoteCall.Server.Worker

namespace RemoteCall.Worker

variable {σ : Type}

/-! ## §1. Moments. -/

/-- A worker and what is around it. -/
structure Scene (σ : Type) where
  /-- The worker. -/
  worker : Worker σ
  /-- Whether the endpoint has been told to shut down. -/
  shutdown : Bool := false
  /-- The calls that a service has kept and that have not been resolved. -/
  held : List IncompleteCall := []

/-- What may happen. -/
inductive Occurrence where
  /-- The endpoint is told to shut down. -/
  | signalled
  /-- The worker makes a step. -/
  | worked (event : Worker.Event)
  /-- A call that is held is resolved. -/
  | resolved (call : IncompleteCall) (outcome : Outcome Bytes)

/-- A call that was handed to the service, and what became of it there. -/
structure Dispatch where
  /-- What the service was handed. -/
  incoming : Incoming
  /-- What was done with the call. -/
  fate : Fate
  /-- Whether it was accepted. -/
  verdict : Outcome Unit

/-- The call that was handed over. -/
def Dispatch.call (d : Dispatch) : IncompleteCall := d.incoming.call

/-- The resolution that the service came to before it returned. -/
def Dispatch.resolution? (d : Dispatch) : Option Completed :=
  d.fate.resolution?.map (⟨d.call, ·⟩)

/-- The call, if it is kept. -/
def Dispatch.kept? (d : Dispatch) : Option IncompleteCall :=
  match d.fate.resolution? with
  | none => some d.call
  | some _ => none

/-- The dispatch that an effect tells of. -/
def dispatch? : WorkerEffect → Option Dispatch
  | .dispatched incoming fate verdict => some ⟨incoming, fate, verdict⟩
  | _ => none

/-- The end of an outstanding call that an effect tells of. -/
def finished? : WorkerEffect → Option Completed
  | .finished call outcome => some ⟨call, outcome⟩
  | _ => none

/-- The response that an effect tells of. -/
def queued? : WorkerEffect → Option ResponseFrame
  | .queued frame => some frame
  | _ => none

/-- The calls that were handed to the service, in order. -/
def dispatchesIn (effects : List WorkerEffect) : List Dispatch := effects.filterMap dispatch?

/-- The calls that are outstanding no more, in order. -/
def finishedIn (effects : List WorkerEffect) : List Completed := effects.filterMap finished?

/-- The responses that were queued, in order. -/
def queuedIn (effects : List WorkerEffect) : List ResponseFrame := effects.filterMap queued?

namespace Scene

/-- What there is after something has happened, and what the worker has done. -/
def after (service : Service σ) (limits : EndpointConfig) (s : Scene σ) :
    Occurrence → Scene σ × List WorkerEffect
  | .signalled => ({ s with shutdown := true }, [])
  | .worked event =>
    let (worker, effects) := s.worker.step service limits s.shutdown event
    ({ s with worker, held := s.held ++ (dispatchesIn effects).filterMap (·.kept?) }, effects)
  | .resolved call outcome =>
    ({ s with worker := s.worker.resolve call outcome, held := s.held.erase call }, [])

/-- Whether something may happen: a worker that is not done makes steps that are enabled, and a call
that is resolved is held. -/
def Admits (limits : EndpointConfig) (s : Scene σ) : Occurrence → Prop
  | .signalled => True
  | .worked event => s.worker.isDone = false ∧ s.worker.enabled limits s.shutdown event = true
  | .resolved call _ => call ∈ s.held

instance (limits : EndpointConfig) (s : Scene σ) :
    (occurrence : Occurrence) → Decidable (s.Admits limits occurrence)
  | .signalled => isTrue trivial
  | .worked _ => inferInstanceAs (Decidable (_ ∧ _))
  | .resolved call _ => inferInstanceAs (Decidable (call ∈ s.held))

end Scene

/-- One moment of a run: what there was, and what happened. -/
structure Moment (σ : Type) where
  /-- What there was. -/
  before : Scene σ
  /-- What happened. -/
  occurrence : Occurrence

namespace Moment

variable (service : Service σ) (limits : EndpointConfig) (m : Moment σ)

/-- What the worker did. -/
def effects : List WorkerEffect := (m.before.after service limits m.occurrence).2

/-- The bytes that arrived. -/
def arrived : Bytes :=
  match m.occurrence with
  | .worked (.received chunk) => chunk
  | _ => []

/-- The bytes that were written. -/
def wrote : Bytes :=
  match m.occurrence with
  | .worked (.wrote count) => m.before.worker.unsent.take count
  | _ => []

/-- Whether the peer closed its side or the stream failed. -/
def isLoss : Bool :=
  match m.occurrence with
  | .worked .lost | .worked .writeFailed => true
  | _ => false

/-- How calls were resolved that the service had kept. -/
def resolution? : Option Completed :=
  match m.occurrence with
  | .resolved call outcome => some ⟨call, outcome⟩
  | _ => none

end Moment

/-! ## §2. Runs. -/

section History

variable (service : Service σ) (limits : EndpointConfig) (history : List (Moment σ))

/-- What the worker has done, in order. -/
def effectsOf : List WorkerEffect := history.flatMap (·.effects service limits)

/-- The bytes that have arrived, in order. -/
def receivedOf : Bytes := history.flatMap (·.arrived)

/-- The bytes that have been written, in order. -/
def writtenOf : Bytes := history.flatMap (·.wrote)

/-- Whether the peer has closed its side or the stream has failed. -/
def lossIn : Bool := history.any (·.isLoss)

/-- How calls have been resolved, by the service before it returned or while they were held. -/
def resolutionsOf : List Completed :=
  (dispatchesIn (effectsOf service limits history)).filterMap (·.resolution?)
    ++ history.filterMap (·.resolution?)

end History

/-- The worker of a new connection has come this far. -/
inductive Run (service : Service σ) (limits : EndpointConfig) :
    List (Moment σ) → Scene σ → Prop where
  /-- The connection is new. -/
  | start (peer : PeerName) : Run service limits [] { worker := .new service peer }
  /-- Something happens. -/
  | next {history : List (Moment σ)} {s : Scene σ} (run : Run service limits history s)
    (occurrence : Occurrence) : s.Admits limits occurrence →
    Run service limits (history ++ [⟨s, occurrence⟩]) (s.after service limits occurrence).1

variable {service : Service σ} {limits : EndpointConfig} {history : List (Moment σ)}

@[simp] theorem dispatchesIn_append (xs ys : List WorkerEffect) :
    dispatchesIn (xs ++ ys) = dispatchesIn xs ++ dispatchesIn ys :=
  List.filterMap_append

@[simp] theorem finishedIn_append (xs ys : List WorkerEffect) :
    finishedIn (xs ++ ys) = finishedIn xs ++ finishedIn ys :=
  List.filterMap_append

@[simp] theorem queuedIn_append (xs ys : List WorkerEffect) :
    queuedIn (xs ++ ys) = queuedIn xs ++ queuedIn ys :=
  List.filterMap_append

theorem effectsOf_concat (service : Service σ) (limits : EndpointConfig)
    (history : List (Moment σ)) (m : Moment σ) :
    effectsOf service limits (history ++ [m])
      = effectsOf service limits history ++ m.effects service limits := by
  simp [effectsOf]

theorem receivedOf_concat (history : List (Moment σ)) (m : Moment σ) :
    receivedOf (history ++ [m]) = receivedOf history ++ m.arrived := by
  simp [receivedOf]

theorem lossIn_concat (history : List (Moment σ)) (m : Moment σ) :
    lossIn (history ++ [m]) = (lossIn history || m.isLoss) := by
  simp [lossIn]

theorem writtenOf_concat (history : List (Moment σ)) (m : Moment σ) :
    writtenOf (history ++ [m]) = writtenOf history ++ m.wrote := by
  simp [writtenOf]

end RemoteCall.Worker
