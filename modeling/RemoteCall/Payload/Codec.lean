/-
  RemoteCall.Payload.Codec
  ────────────────────────
  **PAYLOADS AS BYTES.**

  Numbers stand with their most significant byte first; a text, a byte string
  or a JSON document has its length in four bytes before it; a value that may
  be missing has a truth value before it; pairs and triples are written part
  after part.  So the written form of a value says where it ends.

      encode s v            — the bytes of a value
      read s                — a value off the front of a payload
      decode s bytes        — a value that takes up a whole payload
-/
import RemoteCall.Payload.Reader
import RemoteCall.Payload.Shape
import RemoteCall.Text.Utf8

namespace RemoteCall.Payload

/-! ## §1. Writing. -/

/-- A byte string with its length before it; its length must fit four bytes. -/
def encodeField (bytes : Bytes) : Outcome Bytes :=
  if bytes.length < 2 ^ 32 then .ok (BigEndian.encode 4 bytes.length ++ bytes)
  else .error (.serialization s!"field of {bytes.length} bytes exceeds u32 length")

/-- The written form of a value. -/
def encode : (s : Shape) → s.Value → Outcome Bytes
  | .unit, _ => .ok []
  | .bool, b => .ok [if b then 1 else 0]
  | .u8, n => .ok (BigEndian.encode 1 n.toNat)
  | .u16, n => .ok (BigEndian.encode 2 n.toNat)
  | .u32, n => .ok (BigEndian.encode 4 n.toNat)
  | .u64, n => .ok (BigEndian.encode 8 n.toNat)
  | .string, text => encodeField (Bytes.ofText text)
  | .bytes, bytes => encodeField bytes
  | .option _, none => .ok [0]
  | .option s, some v => do
    let bytes ← encode s v
    return 1 :: bytes
  | .pair a b, (v, w) => do
    let first ← encode a v
    let second ← encode b w
    return first ++ second
  | .triple a b c, (v, w, x) => do
    let first ← encode a v
    let second ← encode b w
    let third ← encode c x
    return first ++ second ++ third
  | .json, v => encodeField v.print
  | .job, job => encodeField job.toJson.print

/-! ## §2. Reading. -/

/-- Takes a truth value. -/
def readBool : Read Bool := do
  let b ← Read.u8
  if b = 0 then return false
  else if b = 1 then return true
  else Read.fail s!"invalid bool byte {b}"

/-- Takes a text. -/
def readText : Read String := do
  let bytes ← Read.field
  match Utf8.decode? bytes with
  | some text => return text
  | none => Read.fail (((Utf8.fault? bytes).map Utf8.Fault.text).getD "invalid utf-8")

/-- Takes a JSON document and makes of it what `make` does. -/
def readDocument {α : Type} (make : Bytes → Option α) : Read α := do
  let bytes ← Read.field
  match make bytes with
  | some v => return v
  | none => Read.fail "malformed JSON document"

/-- Takes a value of a shape. -/
def read : (s : Shape) → Read s.Value
  | .unit => return ()
  | .bool => readBool
  | .u8 => Read.u8
  | .u16 => Read.u16
  | .u32 => Read.u32
  | .u64 => Read.u64
  | .string => readText
  | .bytes => Read.field
  | .option s => do
    if ← readBool then
      let v ← read s
      return some v
    else return none
  | .pair a b => do
    let v ← read a
    let w ← read b
    return (v, w)
  | .triple a b c => do
    let v ← read a
    let w ← read b
    let x ← read c
    return (v, w, x)
  | .json => readDocument Json.Value.parse?
  | .job => readDocument fun bytes => (Json.Document.parse? bytes).bind Job.ofDocument?

/-- The value that a whole payload holds; nothing may be left over. -/
def decode (s : Shape) (bytes : Bytes) : Outcome s.Value :=
  match read s bytes with
  | (.error e, _) => .error e
  | (.ok v, []) => .ok v
  | (.ok _, rest) => .error (.decode s!"{rest.length} trailing bytes after payload")

/-! ## §3. What a caller may hand over. -/

/-- A value to be sent: of a known shape, or a JSON table with keys of any kind. -/
inductive Outgoing where
  | typed (s : Shape) (v : s.Value)
  /-- A table that is written as a JSON object. -/
  | table (entries : List (Json.Value × Json.Value))

/-- The written form of a value to be sent.  A table can be written only if each key has a text. -/
def Outgoing.encode : Outgoing → Outcome Bytes
  | .typed s v => Payload.encode s v
  | .table entries =>
    match Json.Value.ofTable? entries with
    | some object => encodeField object.print
    | none => .error (.serialization "key must be a string")

end RemoteCall.Payload
