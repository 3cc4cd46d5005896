/-
  RemoteCall.Simulation.Echo
  ──────────────────────────
  **A SERVICE THAT ANSWERS WITH WHAT IT IS SENT.**

  A request is a text.  Its first word says what is done with the call, the
  second is a number `n`, and the third is everything behind it:

      hold             the call is kept
      fail n text      the call fails with an application error
      reject n text    the call is rejected with that error
      drop             the call is let go of
      size n           the answer is a byte string of `n` bytes
      byte n           the answer is one byte
      any other        the answer is the text and the number of the session

  Each answer of the last kind raises the number of the session by one.
-/
import RemoteCall.Address.Ip
import RemoteCall.Payload.Codec
import RemoteCall.Server.Service

namespace RemoteCall.Simulation

/-! ## §1. What a text asks for. -/

/-- What is to be done with a call. -/
inductive Wish where
  | hold
  | fail (e : Failure)
  | reject (e : Failure)
  | drop
  | size (n : Nat)
  | byte (n : Nat)
  | echo
  deriving DecidableEq, Repr

namespace Wish

/-- The first word of a text, and what stands behind the blank that ends it. -/
def cutWord (cs : List Char) : List Char × List Char :=
  (cs.takeWhile (· != ' '), (cs.dropWhile (· != ' ')).drop 1)

/-- The number that a word spells, of 64 bits; zero if it spells none. -/
def number (word : List Char) : Nat :=
  let digits := if word.head? = some '+' then word.drop 1 else word
  match Reads.digits 10 (2 ^ 64 - 1) digits with
  | some ((_, n), []) => n
  | _ => 0

/-- What a text asks for. -/
def ofText (text : String) : Wish :=
  let (verb, rest) := cutWord text.toList
  let (amount, detail) := cutWord rest
  let n := number amount
  let e := Failure.application n.toUInt16 (String.ofList detail)
  match String.ofList verb with
  | "hold" => .hold
  | "fail" => .fail e
  | "reject" => .reject e
  | "drop" => .drop
  | "size" => .size n
  | "byte" => .byte n
  | _ => .echo

end Wish

/-! ## §2. The service. -/

/-- How the service is set up. -/
structure Echo where
  /-- The interface versions that are spoken, if not only the default. -/
  versions : Option (List UInt32) := none
  /-- The number of each session at its start. -/
  counter : UInt32 := 73
  deriving Inhabited

namespace Echo

/-- Does what a text asks for, in a session that has come to `counter`. -/
def grant (counter : UInt32) (text : String) : Wish → Reaction UInt32
  | .hold => ⟨counter, .kept, .ok ()⟩
  | .fail e => ⟨counter, .resolved (.error e), .ok ()⟩
  | .reject e => ⟨counter, .dropped, .error e⟩
  | .drop => ⟨counter, .dropped, .ok ()⟩
  | .size n => ⟨counter, .resolved (Payload.encode .bytes (List.replicate n 0x78)), .ok ()⟩
  | .byte n => ⟨counter, .resolved (Payload.encode .u8 n.toUInt8), .ok ()⟩
  | .echo =>
    ⟨counter + 1, .resolved (Payload.encode (.pair .string .u32) (text, counter)), .ok ()⟩

/-- Takes a text off the front of a request and does what it asks for; a request without one is
rejected. -/
def called (counter : UInt32) (incoming : Incoming) : Reaction UInt32 :=
  match Payload.read .string incoming.payload with
  | (.ok text, _) => grant counter text (.ofText text)
  | (.error e, _) => ⟨counter, .dropped, .error e⟩

/-- The service. -/
def service (echo : Echo) : Service UInt32 where
  supports version :=
    match echo.versions with
    | some versions => versions.contains version
    | none => version == defaultVersion
  connected _ := echo.counter
  called := called

end Echo

/-! ## §3. Its log. -/

/-- What the service writes into its log. -/
inductive Note where
  | connected (peer : PeerName)
  /-- A text was taken off a request, behind which so many bytes are left. -/
  | called (sequence : SequenceNumber) (interface : UInt32) (text : String) (unread : Nat)
  /-- The service was told that it is over. -/
  | destroying
  deriving DecidableEq, Repr

/-- The note of a call; there is none if no text can be taken off the request. -/
def Note.ofCall? (incoming : Incoming) : Option Note :=
  match Payload.read .string incoming.payload with
  | (.ok text, rest) =>
    some (.called incoming.call.sequence incoming.call.interface text rest.length)
  | (.error _, _) => none

end RemoteCall.Simulation
