/-
  RemoteCall.Frame.Basic
  ──────────────────────
  **FRAMES.**

  A caller sends request frames, an agent answers with response frames:

      request    size (4)  kind (1)  version (4)  sequence (8)  payload
      response   size (4)  sequence (8)  status (1)  payload

  The size counts the bytes behind it.  The sequence number ties a response to
  its request on one connection.  The payload of an error response is a code of
  two bytes and a message.
-/
import RemoteCall.Bytes
import RemoteCall.Failure.Wire
import RemoteCall.Text.Utf8

namespace RemoteCall

/-! ## §1. Sequence numbers. -/

/-- The number of a request on its connection, of 64 bits. -/
abbrev SequenceNumber := UInt64

/-- The number after this one; the largest is followed by zero. -/
def SequenceNumber.next (n : SequenceNumber) : SequenceNumber :=
  n + 1

/-- The next `count` numbers to be handed out, and the one that follows them. -/
def SequenceNumber.take : (count : Nat) → SequenceNumber → List SequenceNumber × SequenceNumber
  | 0, n => ([], n)
  | count + 1, n =>
    let (given, after) := SequenceNumber.take count n.next
    (n :: given, after)

/-- The interface version that is spoken when no other is chosen. -/
def defaultVersion : UInt32 := 1

/-! ## §2. What a frame asks and what it reports. -/

/-- What a request frame asks for. -/
inductive RequestKind where
  | call
  /-- The answer to a call is no longer wanted. -/
  | cancel
  deriving DecidableEq, Repr, Inhabited

/-- The byte of a request kind. -/
def RequestKind.code : RequestKind → UInt8
  | .call => 1
  | .cancel => 2

/-- The request kind of a byte. -/
def RequestKind.ofCode (b : UInt8) : Outcome RequestKind :=
  if b = 1 then .ok .call
  else if b = 2 then .ok .cancel
  else .error (.invalidMessage s!"Unknown request kind: 0x{Hex.byte b}")

/-- Whether a response reports success. -/
inductive Status where
  | success
  /-- The payload is a code and a message. -/
  | error
  deriving DecidableEq, Repr, Inhabited

/-- The byte of a status. -/
def Status.code : Status → UInt8
  | .success => 0
  | .error => 1

/-- The status of a byte. -/
def Status.ofCode (b : UInt8) : Outcome Status :=
  if b = 0 then .ok .success
  else if b = 1 then .ok .error
  else .error (.invalidMessage s!"Unknown response status: 0x{Hex.byte b}")

/-! ## §3. Request frames. -/

/-- The bytes of a request between its size and its payload. -/
def requestHeaderLength : Nat := 1 + 4 + 8

/-- A request frame. -/
structure RequestFrame where
  /-- The number of bytes behind the size. -/
  size : UInt32
  kind : RequestKind
  version : UInt32
  sequence : SequenceNumber
  payload : Bytes
  deriving DecidableEq, Repr, Inhabited

/-- A frame that asks for a call. -/
def RequestFrame.call (version : UInt32) (sequence : SequenceNumber) (payload : Bytes) :
    RequestFrame :=
  ⟨(requestHeaderLength + payload.length).toUInt32, .call, version, sequence, payload⟩

/-- A frame that cancels a call. -/
def RequestFrame.cancel (version : UInt32) (sequence : SequenceNumber) : RequestFrame :=
  ⟨requestHeaderLength.toUInt32, .cancel, version, sequence, []⟩

/-! ## §4. Response frames. -/

/-- The bytes of a response between its size and its payload. -/
def responseHeaderLength : Nat := 8 + 1

/-- A response frame. -/
structure ResponseFrame where
  /-- The number of bytes behind the size. -/
  size : UInt32
  /-- The number of the request that is answered. -/
  sequence : SequenceNumber
  status : Status
  /-- The answer, or the code and message of a failure. -/
  payload : Bytes
  deriving DecidableEq, Repr, Inhabited

namespace ResponseFrame

/-- A frame that carries an answer. -/
def success (sequence : SequenceNumber) (payload : Bytes) : ResponseFrame :=
  ⟨(responseHeaderLength + payload.length).toUInt32, sequence, .success, payload⟩

/-- The code and message of a failure, as a payload. -/
def failurePayload (e : Failure) : Bytes :=
  BigEndian.encode 2 e.wireCode.toNat ++ Bytes.ofText e.wireMessage

/-- A frame that carries a failure. -/
def failure (sequence : SequenceNumber) (e : Failure) : ResponseFrame :=
  ⟨(responseHeaderLength + (failurePayload e).length).toUInt32, sequence, .error,
    failurePayload e⟩

/-- The answer that a frame carries, or the failure.  A message that is not UTF-8 is mended. -/
def result (frame : ResponseFrame) : Outcome Bytes :=
  match frame.status with
  | .success => .ok frame.payload
  | .error =>
    if frame.payload.length < 2 then
      .error (.invalidMessage "Error response without error code")
    else
      .error (.ofWire (BigEndian.decode (frame.payload.take 2)).toUInt16
        (Utf8.lossy (frame.payload.drop 2)))

/-- The frame that carries an outcome. -/
def ofOutcome (sequence : SequenceNumber) : Outcome Bytes → ResponseFrame
  | .ok payload => success sequence payload
  | .error e => failure sequence e

end ResponseFrame

end RemoteCall
