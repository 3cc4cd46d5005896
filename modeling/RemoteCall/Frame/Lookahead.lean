/-
  RemoteCall.Frame.Lookahead
  ──────────────────────────
  **LOOKING INTO A BUFFER OF REQUESTS WITHOUT TAKING ANYTHING OFF IT.**

  A reader that may not take another call can still let cancels through: it
  asks whether the next frame is a cancel, and which calls are cancelled by the
  whole frames that are buffered.  The second question stops at the first frame
  that is not complete or has an impossible size.
-/
import RemoteCall.Frame.Codec

namespace RemoteCall.RequestFrame

/-- The kind byte of the next frame, if it has arrived. -/
def peekKind (src : Bytes) : Option UInt8 :=
  src[Frame.sizeLength]?

/-- Whether the buffer starts with the header of a cancel. -/
def nextIsCancel (src : Bytes) : Bool :=
  peekKind src == some RequestKind.cancel.code
    && Frame.sizeLength + requestHeaderLength ≤ src.length

/-- The calls that are cancelled by the frames in a buffer, in order. -/
def bufferedCancels (src : Bytes) : List SequenceNumber :=
  if src.length < Frame.sizeLength then []
  else
    let size := BigEndian.decode (src.take Frame.sizeLength)
    if size < requestHeaderLength ∨ src.length < Frame.sizeLength + size then []
    else
      let later := bufferedCancels (src.drop (Frame.sizeLength + size))
      if peekKind src = some RequestKind.cancel.code then
        -- the sequence number stands behind the kind byte and the version
        (BigEndian.decode ((src.drop (Frame.sizeLength + 5)).take 8)).toUInt64 :: later
      else later
termination_by src.length
decreasing_by simp only [List.length_drop, Frame.sizeLength] at *; omega

end RemoteCall.RequestFrame
