/-
  RemoteCall.Proofs.Frame.SizeField
  ─────────────────────────────────
  **WHAT A SIZE FIELD SAYS.**

  A writer is held to a limit on the body of a frame, which may be any number
  of 64 bits.  The size field has 32 bits, and whatever it has no room for is
  left out:

      body ≤ limit, body < 2³²    the field says what follows it
      body ≤ limit, 2³² ≤ body    it says that less 2³², or twice that, and so on
      limit < body                nothing is written

  So all size fields are true exactly if the limit is below 2³².  Where a field
  says too little the rest of a payload is taken for frames: a response with a
  payload of 2³² bytes is read as one without a payload.

  Main statements:
    • `Format.appended_iff`             — when a size field is true,
    • `Format.appended_all_iff`         — under which limits all of them are,
    • `ResponseFrame.decode_wrapped`    — what is read where one is not,
    • `sizes_are_true_below_four_gibibytes` — both kinds of frames, and checked requests.
-/
import RemoteCall.Config.Endpoint
import RemoteCall.Pool.Basic
import RemoteCall.Proofs.Frame.Format

namespace RemoteCall

open RemoteCall.Frame

namespace Frame

/-! ## §1. A frame is appended to a buffer. -/

/-- What appending a frame to a buffer should come to. -/
inductive Appended (buffer : Bytes) : List (Outcome Nat) × Bytes → Prop where
  /-- It is refused, and the buffer is as it was. -/
  | refused (e : Failure) : Appended buffer ([.error e], buffer)
  /-- It stands behind what was there, and its size field says how many bytes follow the field. -/
  | written {bytes : Bytes} : bytes.length = sizeLength + sizeAt bytes →
    Appended buffer ([.ok (buffer ++ bytes).length], buffer ++ bytes)

variable {φ : Type} (F : Format φ) (max : Nat) (buffer : Bytes) (f : φ)

theorem Format.length_bytes : (F.bytes f).length = sizeLength + F.bodyLength f := by
  unfold Format.bytes
  rw [List.length_append, BigEndian.length_encode, F.length_body]
  rfl

/-- **The size field holds the low 32 bits of the size.** -/
theorem Format.sizeAt_bytes (rest : Bytes) :
    sizeAt (F.bytes f ++ rest) = F.bodyLength f % 2 ^ 32 := by
  have hfield : (F.bytes f ++ rest).take sizeLength
      = BigEndian.encode sizeLength (F.bodyLength f) := by
    unfold Format.bytes
    rw [List.append_assoc]
    exact List.take_left' (BigEndian.length_encode _ _)
  unfold sizeAt
  rw [hfield, BigEndian.decode_encode_mod]
  rfl

theorem Format.sizeAt_bytes_iff :
    (F.bytes f).length = sizeLength + sizeAt (F.bytes f) ↔ F.bodyLength f < 2 ^ 32 := by
  have hfield := F.sizeAt_bytes f []
  rw [List.append_nil] at hfield
  rw [F.length_bytes, hfield]
  omega

/-- A frame within the limit is appended, and another is refused. -/
theorem Format.appendAll_one :
    appendAll (F.encode max) buffer [f]
      = if max < F.bodyLength f then ([.error (.messageTooLarge (F.bodyLength f) max)], buffer)
        else ([.ok (buffer ++ F.bytes f).length], buffer ++ F.bytes f) := by
  have hencode := F.encode_eq max f
  unfold Format.bodyLength Format.bytes Format.bodyLength
  split
  · next hmax =>
    rw [if_pos hmax] at hencode
    unfold appendAll
    rw [hencode]
    rfl
  · next hmax =>
    rw [if_neg hmax] at hencode
    unfold appendAll
    rw [hencode]
    rfl

variable {F max buffer f}

/-- **When a size field is true**: when the frame is refused, or its size has 32 bits. -/
theorem Format.appended_iff :
    Appended buffer (appendAll (F.encode max) buffer [f])
      ↔ max < F.bodyLength f ∨ F.bodyLength f < 2 ^ 32 := by
  rw [F.appendAll_one]
  by_cases hmax : max < F.bodyLength f
  · rw [if_pos hmax]
    exact iff_of_true (.refused _) (.inl hmax)
  · rw [if_neg hmax, or_iff_right hmax, ← F.sizeAt_bytes_iff]
    refine ⟨fun h => ?_, .written⟩
    generalize hresult : ([Except.ok (buffer ++ F.bytes f).length], buffer ++ F.bytes f) = result
      at h
    cases h with
    | refused e => simp at hresult
    | written htrue =>
      obtain rfl := List.append_cancel_left (congrArg Prod.snd hresult)
      exact htrue

/-- **Under which limits all size fields are true**: those that 32 bits can hold. -/
theorem Format.appended_all_iff (hany : ∀ size, F.header ≤ size → ∃ f, F.bodyLength f = size)
    (hheader : F.header ≤ 2 ^ 32) :
    (∀ buffer f, Appended buffer (appendAll (F.encode max) buffer [f])) ↔ max < 2 ^ 32 := by
  constructor
  · intro hall
    obtain ⟨f, hsize⟩ := hany (2 ^ 32) hheader
    -- the smallest frame whose size has more than 32 bits
    have happended := Format.appended_iff.mp (hall [] f)
    omega
  · intro hmax buffer f
    refine Format.appended_iff.mpr ?_
    omega

/-- **What is read as a frame has a true size field.** -/
theorem Format.length_of_decode {src rest : Bytes} (h : F.decode max src = .frame f rest) :
    src.length = sizeLength + sizeAt src + rest.length := by
  have hdecodes := F.decodes max src
  rw [h] at hdecodes
  cases hdecodes with
  | known _ _ hwhole _ =>
    rw [List.length_drop]
    omega

end Frame

/-! ## §2. Both kinds of frames. -/

theorem RequestFrame.exists_bodyLength {size : Nat} (h : requestHeaderLength ≤ size) :
    ∃ f, RequestFrame.format.bodyLength f = size := by
  refine ⟨.call defaultVersion 0 (List.replicate (size - requestHeaderLength) 0), ?_⟩
  show requestHeaderLength + (List.replicate (size - requestHeaderLength) (0 : UInt8)).length = size
  rw [List.length_replicate]
  omega

theorem ResponseFrame.exists_bodyLength {size : Nat} (h : responseHeaderLength ≤ size) :
    ∃ f, ResponseFrame.format.bodyLength f = size := by
  refine ⟨.success 0 (List.replicate (size - responseHeaderLength) 0), ?_⟩
  show responseHeaderLength + (List.replicate (size - responseHeaderLength) (0 : UInt8)).length
    = size
  rw [List.length_replicate]
  omega

/-- **All size fields are true if the limit is below 2³², and only then.**  A frame that is appended
to a buffer is refused, and the buffer is as it was, or it is written; what is written has a true
size field exactly if its size has 32 bits.  A limit may be any number, so there are limits under
which that fails.  The check of a pool lets a request through if its frame is within the limit, so
it is written then, and its size field is true on the same condition. -/
theorem sizes_are_true_below_four_gibibytes (max : Nat) :
    (∀ buffer (frame : RequestFrame),
        Appended buffer (appendAll (RequestFrame.encode max) buffer [frame])
          ↔ max < frame.bodyLength ∨ frame.bodyLength < 2 ^ 32)
      ∧ (∀ buffer (frame : ResponseFrame),
        Appended buffer (appendAll (ResponseFrame.encode max) buffer [frame])
          ↔ max < frame.bodyLength ∨ frame.bodyLength < 2 ^ 32)
      ∧ ((∀ buffer (frame : RequestFrame),
        Appended buffer (appendAll (RequestFrame.encode max) buffer [frame])) ↔ max < 2 ^ 32)
      ∧ ((∀ buffer (frame : ResponseFrame),
        Appended buffer (appendAll (ResponseFrame.encode max) buffer [frame])) ↔ max < 2 ^ 32)
      ∧ ∀ (p : Pool) (request : Bytes), p.config.maxMessageSize = max →
        p.checkSize request = .ok () → ∀ version n, ∃ bytes,
          (RequestFrame.call version n request).encode max = .ok bytes
            ∧ (bytes.length = sizeLength + sizeAt bytes
              ↔ requestHeaderLength + request.length < 2 ^ 32) := by
  refine ⟨fun buffer frame => RequestFrame.format.appended_iff,
    fun buffer frame => ResponseFrame.format.appended_iff,
    RequestFrame.format.appended_all_iff (fun _ => RequestFrame.exists_bodyLength) (by decide),
    ResponseFrame.format.appended_all_iff (fun _ => ResponseFrame.exists_bodyLength) (by decide),
    ?_⟩
  rintro p request rfl hchecked version n
  have hfits : requestHeaderLength + request.length ≤ p.config.maxMessageSize := by
    unfold Pool.checkSize at hchecked
    dsimp only at hchecked
    split at hchecked
    · cases hchecked
    · next hfits => exact Nat.le_of_not_lt hfits
  exact ⟨_, RequestFrame.format.encode_of_fits (f := .call version n request) hfits,
    RequestFrame.format.sizeAt_bytes_iff _⟩

/-! ## §3. A size field that is not true. -/

/-- **A response with a payload of 2³² bytes, or a multiple of that, is read as one without a
payload.**  Whatever the payload holds is decoded next. -/
theorem ResponseFrame.decode_wrapped {payload : Bytes} {k : Nat}
    (hlength : payload.length = k * 2 ^ 32) {max : Nat} (hmax : responseHeaderLength ≤ max)
    (n : SequenceNumber) (rest : Bytes) :
    decode max ((success n payload).bytes ++ rest) = .frame (success n []) (payload ++ rest) := by
  have hfield : BigEndian.encode sizeLength (success n payload).bodyLength
      = BigEndian.encode sizeLength (success n []).bodyLength := by
    have hsize : (success n payload).bodyLength
        = k * 256 ^ sizeLength + (success n []).bodyLength := by
      show responseHeaderLength + payload.length = k * 2 ^ 32 + responseHeaderLength
      rw [hlength, Nat.add_comm]
    rw [hsize, BigEndian.encode_add_mul]
  have hbytes : (success n payload).bytes = (success n []).bytes ++ payload := by
    unfold bytes
    rw [hfield]
    unfold body
    simp only [List.append_assoc]
    rfl
  rw [hbytes, List.append_assoc]
  have hsized : (success n []).Sized :=
    ⟨rfl, show responseHeaderLength + 0 < 2 ^ 32 by decide⟩
  exact decode_bytes_of_le hsized hmax _

/-- **A size field wraps** under a limit that the settings of an endpoint allow: a response with a
payload of 2³² bytes is written, its size field says 9, and what is read is an answer without a
payload, and then 2³² bytes that were not sent as a frame. -/
theorem a_size_field_wraps :
    ∃ (limits : EndpointConfig) (frame : ResponseFrame) (bytes : Bytes),
      limits.validate = .ok () ∧ limits.maxMessageSize < 2 ^ 64
      ∧ appendAll (ResponseFrame.encode limits.maxMessageSize) [] [frame]
        = ([.ok bytes.length], bytes)
      ∧ ¬ Appended [] (appendAll (ResponseFrame.encode limits.maxMessageSize) [] [frame])
      ∧ sizeAt bytes = 9 ∧ bytes.length = sizeLength + (9 + 2 ^ 32)
      ∧ ResponseFrame.decode limits.maxMessageSize bytes
        = .frame (.success frame.sequence []) frame.payload := by
  obtain ⟨payload, hlength⟩ : ∃ payload : Bytes, payload.length = 1 * 2 ^ 32 :=
    ⟨List.replicate (1 * 2 ^ 32) 0, List.length_replicate⟩
  have hbody : ResponseFrame.format.bodyLength (.success 0 payload)
      = responseHeaderLength + 1 * 2 ^ 32 :=
    congrArg (responseHeaderLength + ·) hlength
  have hfield := ResponseFrame.format.sizeAt_bytes (.success 0 payload) []
  rw [List.append_nil, hbody] at hfield
  have hread : ResponseFrame.decode (2 ^ 33) ((ResponseFrame.success 0 payload).bytes ++ []) = _ :=
    ResponseFrame.decode_wrapped hlength (by decide) 0 []
  rw [List.append_nil, List.append_nil] at hread
  refine ⟨{ maxMessageSize := 2 ^ 33 }, .success 0 payload,
    ResponseFrame.format.bytes (.success 0 payload), rfl, by decide, ?_, ?_, ?_, ?_, hread⟩
  · refine (ResponseFrame.format.appendAll_one _ _ _).trans ?_
    rw [hbody]
    exact if_neg (by decide)
  · rw [show ResponseFrame.encode = ResponseFrame.format.encode from rfl,
      ResponseFrame.format.appended_iff, hbody]
    decide
  · exact hfield.trans (by decide)
  · rw [Format.length_bytes, hbody]
    rfl

end RemoteCall
