/-
  RemoteCall.PeerName
  ───────────────────
  **WHERE AN AGENT LIVES.**

  A peer is a socket address or a local socket path.  A text names a path if
  it starts with `unix:` (which is not part of the path) or with a slash, or if
  it ends in `.sock`; any other text must be a socket address.  A path is
  always written with `unix:` in front, so its text is read as a path again,
  whatever the path is.
-/
import RemoteCall.Address.Path
import RemoteCall.Address.Socket
import RemoteCall.Failure.Basic

namespace RemoteCall

/-- A concrete address of an agent. -/
inductive PeerName where
  | tcp (address : SocketAddress)
  | unix (path : SocketPath)
  deriving DecidableEq, Repr

namespace PeerName

/-- The mark in front of a path. -/
def pathMark : String := "unix:"

/-- The text of a peer. -/
def text : PeerName → String
  | .tcp address => address.text
  | .unix path => pathMark ++ path.text

/-- The text after the mark of a path, if it is there. -/
def unmarked? (text : String) : Option String :=
  if pathMark.toList.isPrefixOf text.toList then
    some (String.ofList (text.toList.drop pathMark.toList.length))
  else none

/-- Whether a text without a mark is a path all the same. -/
def looksLikePath (text : String) : Bool :=
  text.toList.head? == some '/' || ".sock".toList.isSuffixOf text.toList

/-- Reads a peer, or says that the text is no address. -/
def parse (text : String) : Outcome PeerName :=
  match unmarked? text with
  | some path => .ok (.unix ⟨path⟩)
  | none =>
    if looksLikePath text then .ok (.unix ⟨text⟩)
    else
      match SocketAddress.parse? text with
      | some address => .ok (.tcp address)
      | none => .error (.invalidPeerName s!"{text}: invalid socket address syntax")

/-- Whether the peer is a local socket. -/
def isUnix : PeerName → Bool
  | .unix _ => true
  | .tcp _ => false

/-- The path of a local socket. -/
def path? : PeerName → Option SocketPath
  | .unix path => some path
  | .tcp _ => none

/-- Whether two peers are the same place: paths by their components, addresses in all parts. -/
def same : PeerName → PeerName → Bool
  | .tcp a, .tcp b => a == b
  | .unix p, .unix q => p.same q
  | _, _ => false

/-- Whether two lists of peers name the same places in the same order. -/
def sameAll : List PeerName → List PeerName → Bool
  | [], [] => true
  | p :: ps, q :: qs => p.same q && sameAll ps qs
  | _, _ => false

@[simp] theorem same_refl (p : PeerName) : p.same p = true := by
  cases p <;> simp [same, SocketPath.same]

end PeerName

end RemoteCall
