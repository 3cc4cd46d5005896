/-
  RemoteCall.Address.Path
  ───────────────────────
  **PATHS OF LOCAL SOCKETS.**

  A path is kept as it was written.  Two paths are the same if they have the
  same components: repeated and trailing slashes do not matter, nor does a
  component `.` unless it is the first one of a relative path; `..` does.
-/

namespace RemoteCall

/-- A path to a local socket, as written. -/
structure SocketPath where
  text : String
  deriving DecidableEq, Repr, Inhabited

namespace SocketPath

/-- The parts of a text between its slashes. -/
def parts : List Char → List (List Char)
  | [] => [[]]
  | c :: rest =>
    if c = '/' then [] :: parts rest
    else
      match parts rest with
      | [] => [[c]]
      | part :: more => (c :: part) :: more

/-- The components of a path: whether it starts at the root, and its steps. -/
def components (path : SocketPath) : Bool × List (List Char) :=
  let cs := path.text.toList
  let absolute := cs.head? == some '/'
  let steps := (parts cs).filter fun part => !part.isEmpty && part != ['.']
  let fromHere := !absolute && (parts cs).head? == some ['.']
  (absolute, if fromHere then ['.'] :: steps else steps)

/-- Whether two paths lead to the same place by their components alone. -/
def same (p q : SocketPath) : Bool :=
  p.components == q.components

end SocketPath

end RemoteCall
