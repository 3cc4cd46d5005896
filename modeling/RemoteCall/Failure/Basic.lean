/-
  RemoteCall.Failure.Basic
  ────────────────────────
  **WHY A CALL, A CONNECTION OR A SETTING FAILS.**

  The class of a failure decides what becomes of the calls it touches:

      transport          refused, reset, timed out: tried again within a budget
      protocol           the peer spoke something unreadable: never tried again
      version rejection  the agent does not speak this interface, as found here
                         or as reported by the agent
      the rest           verdicts on one call, handed through as they are

  A failure is a value, so that one recorded outcome can be shown to every
  observer of a call.
-/
import RemoteCall.Duration
import RemoteCall.Failure.IoKind

namespace RemoteCall

/-- A reason to fail. -/
inductive Failure where
  /-- An address could not be connected or bound. -/
  | connectionFailed (detail : String)
  /-- Connecting took longer than allowed. -/
  | connectTimeout (limit : Duration)
  | io (kind : IoKind) (message : String)
  /-- The other side closed the connection. -/
  | connectionClosed
  | invalidMessage (detail : String)
  /-- A frame is larger than the limit. -/
  | messageTooLarge (size max : Nat)
  /-- The agent does not speak this version. -/
  | unsupportedVersion (version : UInt32)
  /-- A frame speaks another version than the connection. -/
  | versionMismatch (expected actual : UInt32)
  | decode (detail : String)
  /-- A payload could not be written. -/
  | serialization (detail : String)
  /-- The verdict of the remote side, as it was reported. -/
  | remote (code : UInt16) (message : String)
  | timeout
  | aborted
  | disconnected
  /-- A handler let go of a call without an answer. -/
  | abandoned
  | shuttingDown
  | invalidAgentName (detail : String)
  | invalidPeerName (detail : String)
  | invalidConfig (detail : String)
  deriving DecidableEq, Repr, Inhabited

/-- What an operation comes to: a value, or the reason why there is none. -/
abbrev Outcome (α : Type) := Except Failure α

namespace Failure

/-! ## §1. The text of a failure. -/

/-- The failure as messages show it. -/
def text : Failure → String
  | .connectionFailed detail => s!"Connection failed: {detail}"
  | .connectTimeout limit => s!"Connect timed out after {limit.text}"
  | .io kind message => s!"IO error ({kind.name}): {message}"
  | .connectionClosed => "Connection closed"
  | .invalidMessage detail => s!"Invalid message format: {detail}"
  | .messageTooLarge size max => s!"Message too large: {size} bytes (max: {max})"
  | .unsupportedVersion version => s!"Unsupported protocol version {version}"
  | .versionMismatch expected actual =>
    s!"Protocol version mismatch: expected {expected}, got {actual}"
  | .decode detail => s!"Failed to decode payload: {detail}"
  | .serialization detail => s!"Serialization error: {detail}"
  | .remote code message => s!"Remote error {code}: {message}"
  | .timeout => "Call timed out"
  | .aborted => "Call aborted"
  | .disconnected => "Disconnected"
  | .abandoned => "Call abandoned"
  | .shuttingDown => "Shutting down"
  | .invalidAgentName detail => s!"Invalid agent name: {detail}"
  | .invalidPeerName detail => s!"Invalid peer name: {detail}"
  | .invalidConfig detail => s!"Invalid configuration: {detail}"

/-! ## §2. Classes. -/

/-- Whether the transport broke: refused, reset, timed out or closed. -/
def isTransport : Failure → Bool
  | .connectionFailed _ | .connectTimeout _ | .io _ _ | .connectionClosed => true
  | _ => false

/-- Whether the peer spoke something that cannot be read or accepted. -/
def isProtocol : Failure → Bool
  | .invalidMessage _ | .messageTooLarge _ _ | .unsupportedVersion _ | .versionMismatch _ _ => true
  | _ => false

/-- What a stream failure becomes: an early end of the stream counts as a closed connection. -/
def ofIo (kind : IoKind) (message : String) : Failure :=
  match kind with
  | .unexpectedEof => .connectionClosed
  | kind => .io kind message

end Failure

end RemoteCall
