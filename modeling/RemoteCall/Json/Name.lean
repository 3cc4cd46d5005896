/-
  RemoteCall.Json.Name
  ────────────────────
  **NAMES IN JSON DOCUMENTS.**

  A name stands in a document as a string that holds its text.  Reading it back
  applies the rules for names, so a string that is no name is refused.
-/
import RemoteCall.AgentName
import RemoteCall.Json.Value
import RemoteCall.PeerName

namespace RemoteCall

/-- What a reader of names makes of a document that is a string. -/
def Json.Document.name? {α : Type} (read : String → Outcome α) (d : Json.Document) : Option α := do
  (read (← d.text?)).toOption

namespace AgentName

/-- The name as a JSON value. -/
def toJson (name : AgentName) : Json.Value :=
  .string name.text

/-- The name that a JSON document holds. -/
def parseJson? (bytes : Bytes) : Option AgentName := do
  (← Json.Document.parse? bytes).name? parse

end AgentName

namespace PeerName

/-- The peer as a JSON value. -/
def toJson (peer : PeerName) : Json.Value :=
  .string peer.text

/-- The peer that a JSON document holds. -/
def parseJson? (bytes : Bytes) : Option PeerName := do
  (← Json.Document.parse? bytes).name? parse

end PeerName

end RemoteCall
