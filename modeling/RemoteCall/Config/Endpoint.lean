/-
  RemoteCall.Config.Endpoint
  ──────────────────────────
  **SETTINGS OF A SERVICE ENDPOINT.**

  Two limits bound what one peer can make a connection hold: the number of
  calls that are dispatched and not yet answered, and the number of response
  bytes that are not yet sent.
-/
import RemoteCall.Config.Pool

namespace RemoteCall

/-- Settings of an endpoint. -/
structure EndpointConfig where
  /-- How many calls of one connection may be dispatched and unanswered. -/
  maxOutstandingCalls : Nat := 64
  /-- At how many unsent response bytes no further outcome is taken up. -/
  txBufferLimit : Nat := 1024 * 1024
  /-- The largest request body that is accepted. -/
  maxMessageSize : Nat := defaultMaxMessageSize
  deriving Inhabited, DecidableEq

namespace EndpointConfig

/-- Checks the settings. -/
def validate (config : EndpointConfig) : Outcome Unit :=
  if config.maxOutstandingCalls = 0 then
    .error (.invalidConfig "max_outstanding_calls must be at least 1")
  else if config.txBufferLimit = 0 then
    .error (.invalidConfig "tx_buffer_limit must be non-zero")
  else if config.maxMessageSize = 0 then
    .error (.invalidConfig "max_message_size must be non-zero")
  else .ok ()

/-- The names of the settings in a document, in order. -/
def fieldNames : List String :=
  ["max_outstanding_calls", "tx_buffer_limit", "max_message_size"]

/-- The settings that a document gives. -/
def ofDocument? (d : Json.Document) : Option EndpointConfig := do
  match ← d.fields? fieldNames with
  | [calls, unsent, size] =>
    let word := Json.Document.natural? (2 ^ 64)
    let default : EndpointConfig := {}
    return {
      maxOutstandingCalls := ← PoolConfig.optional default.maxOutstandingCalls word calls
      txBufferLimit := ← PoolConfig.optional default.txBufferLimit word unsent
      maxMessageSize := ← PoolConfig.optional default.maxMessageSize word size }
  | _ => none

/-- The settings that a text gives. -/
def parse? (bytes : Bytes) : Option EndpointConfig :=
  (Json.Document.parse? bytes).bind ofDocument?

/-- All settings under their names. -/
def toJson (config : EndpointConfig) : Json.Value :=
  .ofMembers [
    ("max_outstanding_calls", .integer config.maxOutstandingCalls),
    ("tx_buffer_limit", .integer config.txBufferLimit),
    ("max_message_size", .integer config.maxMessageSize)]

end EndpointConfig

end RemoteCall
