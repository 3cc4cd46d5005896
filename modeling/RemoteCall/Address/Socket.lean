/-
  RemoteCall.Address.Socket
  ─────────────────────────
  **AN ADDRESS WITH A PORT.**

      a.b.c.d:port     [groups]:port     [groups%scope]:port

  Port and scope may have any number of leading zeros.  Nothing may follow the
  port.  A scope of zero is not written.
-/
import RemoteCall.Address.Ip

namespace RemoteCall

/-- Where a stream connection leads. -/
inductive SocketAddress where
  /-- An address of four bytes and a port. -/
  | v4 (ip : Ipv4) (port : UInt16)
  /-- An address of eight groups, a port, and the zone that the address is meant in. -/
  | v6 (ip : Ipv6) (port : UInt16) (scope : UInt32)
  deriving DecidableEq, Repr

namespace SocketAddress

/-- The port. -/
def port : SocketAddress → UInt16
  | .v4 _ port => port
  | .v6 _ port _ => port

/-- The same address at another port. -/
def withPort (port : UInt16) : SocketAddress → SocketAddress
  | .v4 ip _ => .v4 ip port
  | .v6 ip _ scope => .v6 ip port scope

/-- The text of the address alone, without scope and port. -/
def host : SocketAddress → String
  | .v4 ip _ => ip.text
  | .v6 ip _ _ => ip.text

/-- The canonical text. -/
def text : SocketAddress → String
  | .v4 ip port => s!"{ip.text}:{port}"
  | .v6 ip port scope =>
    if scope = 0 then s!"[{ip.text}]:{port}" else s!"[{ip.text}%{scope}]:{port}"

/-- Takes a colon and a port. -/
def readPort (cs : List Char) : Option (UInt16 × List Char) := do
  let cs ← Reads.given ':' cs
  let ((_, n), rest) ← Reads.digits 10 65535 cs
  return (n.toUInt16, rest)

/-- Takes a scope, which is zero if none is given. -/
def readScope (cs : List Char) : Option (UInt32 × List Char) :=
  match Reads.given '%' cs with
  | none => some (0, cs)
  | some rest => do
    let ((_, n), rest) ← Reads.digits 10 4294967295 rest
    return (n.toUInt32, rest)

/-- Takes an address of four bytes and a port. -/
def readV4 (cs : List Char) : Option (SocketAddress × List Char) := do
  let (ip, cs) ← Ipv4.read cs
  let (port, cs) ← readPort cs
  return (.v4 ip port, cs)

/-- Takes a bracketed address of eight groups and a port. -/
def readV6 (cs : List Char) : Option (SocketAddress × List Char) := do
  let cs ← Reads.given '[' cs
  let (ip, cs) ← Ipv6.read cs
  let (scope, cs) ← readScope cs
  let cs ← Reads.given ']' cs
  let (port, cs) ← readPort cs
  return (.v6 ip port scope, cs)

/-- The address that a whole text writes. -/
def parse? (text : String) : Option SocketAddress :=
  match (readV4 text.toList).orElse fun _ => readV6 text.toList with
  | some (address, []) => some address
  | _ => none

end SocketAddress

end RemoteCall
