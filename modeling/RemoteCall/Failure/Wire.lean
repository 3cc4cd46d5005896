/-
  RemoteCall.Failure.Wire
  ───────────────────────
  **FAILURES AS THEY CROSS A CONNECTION.**

  An error response carries a 16-bit code and a message.  A failure that is
  itself the report of a remote side keeps its code and message; any other is
  sent under the code of its kind with its text as the message.  Whatever
  arrives is a `Failure.remote`, so that a verdict of the other side is never
  taken for a failure on this one.
-/
import RemoteCall.Failure.Basic

namespace RemoteCall

/-! ## §1. The reserved codes. -/

/-- A code in an error response. -/
abbrev WireCode := UInt16

namespace WireCode

/-- The deadline passed. -/
def timeout : WireCode := 1
/-- The caller gave up. -/
def aborted : WireCode := 2
/-- The pool is gone. -/
def disconnected : WireCode := 3
/-- The handler let go of the call. -/
def abandoned : WireCode := 4
/-- The endpoint is shutting down; the call did not run. -/
def shuttingDown : WireCode := 5
/-- An address could not be connected. -/
def connectionFailed : WireCode := 10
/-- Connecting took too long. -/
def connectTimeout : WireCode := 11
/-- A stream failed. -/
def io : WireCode := 12
/-- The connection was closed. -/
def connectionClosed : WireCode := 13
/-- A frame is malformed. -/
def invalidMessage : WireCode := 20
/-- A frame is too large. -/
def messageTooLarge : WireCode := 21
/-- The version is not spoken here. -/
def unsupportedVersion : WireCode := 22
/-- The version is not that of the connection. -/
def versionMismatch : WireCode := 23
/-- A payload could not be read. -/
def decode : WireCode := 24
/-- A payload could not be written. -/
def serialization : WireCode := 30
/-- A name or a setting is malformed. -/
def invalidArgument : WireCode := 40

end WireCode

namespace Failure

/-! ## §2. To the wire and back. -/

/-- A failure that an application chose. -/
def application (code : WireCode) (message : String) : Failure :=
  .remote code message

/-- The code under which a failure is sent. -/
def wireCode : Failure → WireCode
  | .timeout => WireCode.timeout
  | .aborted => WireCode.aborted
  | .disconnected => WireCode.disconnected
  | .abandoned => WireCode.abandoned
  | .shuttingDown => WireCode.shuttingDown
  | .connectionFailed _ => WireCode.connectionFailed
  | .connectTimeout _ => WireCode.connectTimeout
  | .io _ _ => WireCode.io
  | .connectionClosed => WireCode.connectionClosed
  | .invalidMessage _ => WireCode.invalidMessage
  | .messageTooLarge _ _ => WireCode.messageTooLarge
  | .unsupportedVersion _ => WireCode.unsupportedVersion
  | .versionMismatch _ _ => WireCode.versionMismatch
  | .decode _ => WireCode.decode
  | .serialization _ => WireCode.serialization
  | .invalidAgentName _ | .invalidPeerName _ | .invalidConfig _ => WireCode.invalidArgument
  | .remote code _ => code

/-- The message with which a failure is sent. -/
def wireMessage : Failure → String
  | .remote _ message => message
  | other => other.text

/-- The failure that a received code and message stand for. -/
def ofWire (code : WireCode) (message : String) : Failure :=
  .remote code message

/-- Whether the agent refused the version of the connection, as found here or as reported.
Every call on the connection would meet the same answer. -/
def isVersionRejection : Failure → Bool
  | .unsupportedVersion _ | .versionMismatch _ _ => true
  | .remote code _ => code == WireCode.unsupportedVersion || code == WireCode.versionMismatch
  | _ => false

/-- Whether the agent refused a call because it is shutting down. -/
def isRefusal : Failure → Bool
  | .remote code _ => code == WireCode.shuttingDown
  | _ => false

end Failure

end RemoteCall
