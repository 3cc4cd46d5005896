/-
  RemoteCall.Payload.Shape
  ────────────────────────
  **TYPES OF REQUESTS AND RESPONSES.**

  A payload says nothing about its own type; both sides must agree on a shape.
  `Shape.Value` is the type of the values of a shape.
-/
import RemoteCall.Json.Value

namespace RemoteCall.Payload

/-- A piece of work, as JSON documents describe it. -/
structure Job where
  id : UInt64
  name : String
  deriving DecidableEq, Repr, Inhabited

namespace Job

/-- The job as a JSON value. -/
def toJson (job : Job) : Json.Value :=
  .ofMembers [("id", .integer job.id.toNat), ("name", .string job.name)]

/-- The job that a document describes; both fields must be there. -/
def ofDocument? (d : Json.Document) : Option Job := do
  match ← d.fields? ["id", "name"] with
  | [some id, some name] => return ⟨(← id.natural? (2 ^ 64)).toUInt64, ← name.text?⟩
  | _ => none

end Job

/-- The type of a payload. -/
inductive Shape where
  | unit
  | bool
  | u8
  | u16
  | u32
  | u64
  | string
  | bytes
  | option (s : Shape)
  /-- Two values, one after the other. -/
  | pair (a b : Shape)
  /-- Three values, one after the other. -/
  | triple (a b c : Shape)
  | json
  | job
  deriving DecidableEq, Repr, Inhabited

/-- The values of a shape. -/
abbrev Shape.Value : Shape → Type
  | .unit => Unit
  | .bool => Bool
  | .u8 => UInt8
  | .u16 => UInt16
  | .u32 => UInt32
  | .u64 => UInt64
  | .string => String
  | .bytes => Bytes
  | .option s => Option s.Value
  | .pair a b => a.Value × b.Value
  | .triple a b c => a.Value × b.Value × c.Value
  | .json => Json.Value
  | .job => Job

/-- Whether values of the shape hold JSON documents. -/
def Shape.holdsJson : Shape → Bool
  | .json | .job => true
  | .option s => s.holdsJson
  | .pair a b => a.holdsJson || b.holdsJson
  | .triple a b c => a.holdsJson || b.holdsJson || c.holdsJson
  | _ => false

end RemoteCall.Payload
