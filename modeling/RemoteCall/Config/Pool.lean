/-
  RemoteCall.Config.Pool
  ──────────────────────
  **SETTINGS OF A CONNECTION POOL.**

  Every setting may be left out of a document, and then has its default.  The
  checks are made in the order of the fields, and the first that fails is
  reported.
-/
import RemoteCall.Failure.Basic
import RemoteCall.Json.Value

namespace RemoteCall

/-- The default limit on the size of a frame: 16 MiB. -/
def defaultMaxMessageSize : Nat := 16 * 1024 * 1024

/-- Settings of a pool.  Times are in milliseconds. -/
structure PoolConfig where
  /-- How long one attempt to connect may take. -/
  connectTimeout : Nat := 5000
  /-- How often a call may be issued again after a transport failure. -/
  callRetries : UInt32 := 3
  /-- How long a connection without use is kept. -/
  expiryTime : Nat := 60000
  /-- How long to wait before connecting again after a failure. -/
  reconnectInterval : Nat := 100
  /-- The probability that a call is sent twice; for tests. -/
  dupeCalls : Float := 0.0
  /-- The largest response body that is accepted. -/
  maxMessageSize : Nat := defaultMaxMessageSize
  deriving Inhabited

namespace PoolConfig

/-- Whether a number is a probability. -/
def isProbability (x : Float) : Bool :=
  0.0 ≤ x && x ≤ 1.0

/-- Checks the settings. -/
def validate (config : PoolConfig) : Outcome Unit :=
  if config.connectTimeout = 0 then
    .error (.invalidConfig "connect_timeout must be non-zero")
  else if !isProbability config.dupeCalls then
    .error (.invalidConfig
      s!"dupe_calls must be a probability, got {Decimal.positional config.dupeCalls}")
  else if config.maxMessageSize = 0 then
    .error (.invalidConfig "max_message_size must be non-zero")
  else .ok ()

/-- The names of the settings in a document, in order. -/
def fieldNames : List String :=
  ["connect_timeout_ms", "call_retries", "expiry_time_ms", "reconnect_interval_ms", "dupe_calls",
    "max_message_size"]

/-- Reads a setting that may be left out. -/
def optional {α : Type} (default : α) (read : Json.Document → Option α) :
    Option Json.Document → Option α
  | none => some default
  | some d => read d

/-- The settings that a document gives. -/
def ofDocument? (d : Json.Document) : Option PoolConfig := do
  match ← d.fields? fieldNames with
  | [timeout, retries, expiry, interval, dupe, size] =>
    let word := Json.Document.natural? (2 ^ 64)
    let default : PoolConfig := {}
    return {
      connectTimeout := ← optional default.connectTimeout word timeout
      callRetries := ←
        optional default.callRetries (fun d => (d.natural? (2 ^ 32)).map Nat.toUInt32) retries
      expiryTime := ← optional default.expiryTime word expiry
      reconnectInterval := ← optional default.reconnectInterval word interval
      dupeCalls := ← optional default.dupeCalls Json.Document.float? dupe
      maxMessageSize := ← optional default.maxMessageSize word size }
  | _ => none

/-- The settings that a text gives. -/
def parse? (bytes : Bytes) : Option PoolConfig :=
  (Json.Document.parse? bytes).bind ofDocument?

/-- All settings under their names. -/
def toJson (config : PoolConfig) : Json.Value :=
  .ofMembers [
    ("connect_timeout_ms", .integer config.connectTimeout),
    ("call_retries", .integer config.callRetries.toNat),
    ("expiry_time_ms", .integer config.expiryTime),
    ("reconnect_interval_ms", .integer config.reconnectInterval),
    ("dupe_calls", .float config.dupeCalls),
    ("max_message_size", .integer config.maxMessageSize)]

end PoolConfig

end RemoteCall
