/-
  RemoteCall.Server.Service
  ─────────────────────────
  **SERVICES AND THE CALLS THAT THEY ARE HANDED.**

  A service keeps a session for each connection.  It is handed a call together
  with its payload; it may answer at once, keep the call and answer later, or
  refuse it by a verdict.  A call that is let go of without an answer fails as
  abandoned, so every call is resolved exactly once.
-/
import RemoteCall.Frame.Basic
import RemoteCall.PeerName

namespace RemoteCall

/-- The number of a dispatched call on its connection; no two dispatches share one. -/
abbrev Ticket := Nat

/-- A dispatched call that waits for its resolution. -/
structure IncompleteCall where
  /-- Which dispatch it is. -/
  ticket : Ticket
  /-- The sequence number under which the peer sent the call. -/
  sequence : SequenceNumber
  /-- The interface version that the connection speaks. -/
  interface : UInt32
  deriving DecidableEq, Repr, Inhabited

/-- What a service is handed. -/
structure Incoming where
  /-- The call. -/
  call : IncompleteCall
  /-- The payload of the request. -/
  payload : Bytes
  /-- Whether the answer is no longer wanted. -/
  isAbandoned : Bool
  deriving Repr

/-- What a service does with a call before it returns. -/
inductive Fate where
  /-- The call is kept, to be resolved later. -/
  | kept
  /-- The call is completed or failed. -/
  | resolved (outcome : Outcome Bytes)
  /-- The call is let go of. -/
  | dropped

/-- The resolution that a fate amounts to, if it is one. -/
def Fate.resolution? : Fate → Option (Outcome Bytes)
  | .kept => none
  | .resolved outcome => some outcome
  | .dropped => some (.error .abandoned)

/-- What a service comes to when it is handed a call. -/
structure Reaction (σ : Type) where
  /-- The session afterwards. -/
  session : σ
  /-- What was done with the call. -/
  fate : Fate
  /-- Whether the call is accepted; an error fails it. -/
  verdict : Outcome Unit

/-- A service, with sessions of type `σ`. -/
structure Service (σ : Type) where
  /-- Whether a connection may speak an interface version. -/
  supports : UInt32 → Bool
  /-- The session of a new connection. -/
  connected : PeerName → σ
  /-- Hands over a call. -/
  called : σ → Incoming → Reaction σ

end RemoteCall
