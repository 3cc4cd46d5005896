/-
  RemoteCall.Proofs.Frame.Failures
  ────────────────────────────────
  **FAILURES SURVIVE THE WIRE.**

  A failure is written as a code and a message, and whatever is read is the
  report of a remote side (`Failure.arrived`):

      e   →   wireCode e, wireMessage e   →   .remote (wireCode e) (wireMessage e)

  A report is written as it was read, so it may be sent on from link to link and
  stays what it is.  What a caller decides by, whether the version was rejected
  or the endpoint shuts down, can be told from the code, and is the same on both
  sides.

  Main statements:
    • `Failure.wireCode_eq_shuttingDown_iff` — which codes are that of a shutdown,
    • `ResponseFrame.result_of_failure`      — a code and a message cross the link,
    • `failures_survive_the_wire`            — the whole way, there and on.
-/
import RemoteCall.Proofs.Frame.Format

namespace RemoteCall

/-! ## §1. What arrives. -/

namespace Failure

/-- What a failure is on the other side. -/
def arrived (e : Failure) : Failure := .ofWire e.wireCode e.wireMessage

/-- **A version that was rejected was rejected on the other side too**, and only then. -/
theorem isVersionRejection_arrived (e : Failure) :
    e.arrived.isVersionRejection = e.isVersionRejection := by
  cases e <;> rfl

/-- **The code of a shutdown** is that of a shutdown itself and of a report with that code, and of
no other failure. -/
theorem wireCode_eq_shuttingDown_iff (e : Failure) :
    e.wireCode = WireCode.shuttingDown
      ↔ e = .shuttingDown ∨ ∃ message, e = .remote WireCode.shuttingDown message := by
  constructor
  · intro hcode
    cases e with
    | shuttingDown => exact .inl rfl
    | remote code message =>
      obtain rfl : code = WireCode.shuttingDown := hcode
      exact .inr ⟨message, rfl⟩
    | _ =>
      -- every other kind has a code of its own
      simp only [wireCode] at hcode
      exact absurd hcode (by decide)
  · rintro (rfl | ⟨message, rfl⟩) <;> rfl

end Failure

/-! ## §2. The frame of a failure. -/

namespace ResponseFrame

/-- **A code and a message cross the link as they are.** -/
theorem result_of_failure (n : SequenceNumber) (e : Failure) :
    (ResponseFrame.failure n e).result = .error (.remote e.wireCode e.wireMessage) := by
  have hcode : (BigEndian.encode 2 e.wireCode.toNat).length = 2 := BigEndian.length_encode 2 _
  have hlong : ¬ (failurePayload e).length < 2 := by
    unfold failurePayload
    rw [List.length_append, hcode]
    omega
  unfold result failure
  dsimp only
  rw [if_neg hlong]
  unfold failurePayload
  rw [List.take_left' hcode, List.drop_left' hcode, Utf8.lossy_ofText,
    BigEndian.decode_encode (by exact e.wireCode.toNat_lt)]
  show Except.error (Failure.remote _ _) = _
  congr 2
  exact UInt16.ofNat_toNat

/-- A report is written as what it reports. -/
theorem failure_arrived (n : SequenceNumber) (e : Failure) : failure n e.arrived = failure n e :=
  rfl

/-- A failure that is sent under a number arrives as `e'`: it is written under the limit, and read
under the same limit, whatever stands behind it; it has the number, and carries `e'`. -/
def Arrives (max : Nat) (n : SequenceNumber) (e e' : Failure) : Prop :=
  ∃ bytes, (failure n e).encode max = .ok bytes
    ∧ ∀ rest, ∃ frame, decode max (bytes ++ rest) = .frame frame rest
      ∧ frame.sequence = n ∧ frame.result = .error e'

/-- **A failure whose frame fits arrives as its code and its message.** -/
theorem arrives {max : Nat} {n : SequenceNumber} {e : Failure}
    (hfits : format.Fits max (failure n e)) :
    Arrives max n e (.remote e.wireCode e.wireMessage) := by
  refine ⟨_, format.encode_of_fits hfits.1, fun rest => ⟨failure n e, ?_, rfl, ?_⟩⟩
  · exact format.decode_bytes hfits rest
  · exact result_of_failure n e

end ResponseFrame

/-- **Failures survive the wire.**  The frame of a failure fits: it is within the limit, and its size
field can hold its size.  It is written, and read under the same limit; its number is the one under
which it was sent, and it carries the report of a remote side, with the code and the message of the
failure.

The report may be sent on under the same limit, under any number, and arrives as it is.  It tells of
a version that was rejected exactly if the failure does; and its code is that of a shutdown exactly
if the failure is one, or is the report of one. -/
theorem failures_survive_the_wire {max : Nat} {n : SequenceNumber} {e : Failure}
    (hfits : ResponseFrame.format.Fits max (.failure n e)) :
    ResponseFrame.Arrives max n e (.remote e.wireCode e.wireMessage)
      ∧ (∀ m, ResponseFrame.Arrives max m (.remote e.wireCode e.wireMessage)
          (.remote e.wireCode e.wireMessage))
      ∧ (Failure.remote e.wireCode e.wireMessage).isVersionRejection = e.isVersionRejection
      ∧ (e.wireCode = WireCode.shuttingDown
        ↔ e = .shuttingDown ∨ ∃ message, e = .remote WireCode.shuttingDown message) := by
  refine ⟨ResponseFrame.arrives hfits, fun m => ?_, e.isVersionRejection_arrived,
    e.wireCode_eq_shuttingDown_iff⟩
  -- the number does not count for the size of a frame
  have hagain : ResponseFrame.format.Fits max (.failure m e.arrived) := by
    rw [ResponseFrame.failure_arrived]
    exact hfits
  exact ResponseFrame.arrives hagain

/-- A service turns a call away with a message that is not ASCII, where the limit leaves room for
just that. -/
theorem failures_survive_the_wire_when_the_limit_is_met :
    ResponseFrame.format.Fits 18 (.failure 3 (.remote 5 "später"))
      ∧ ResponseFrame.Arrives 18 3 (.remote 5 "später") (.remote 5 "später")
      ∧ (Failure.remote 5 "später").isVersionRejection = false := by
  have hfits : ResponseFrame.format.Fits 18 (.failure 3 (.remote 5 "später")) := by
    refine ⟨?_, ?_⟩ <;> decide +kernel
  obtain ⟨harrives, -, hversion, -⟩ := failures_survive_the_wire hfits
  exact ⟨hfits, harrives, hversion⟩

end RemoteCall
