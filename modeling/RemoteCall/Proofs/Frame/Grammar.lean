/-
  RemoteCall.Proofs.Frame.Grammar
  ───────────────────────────────
  **THE BYTES THAT ARE FRAMES.**

  A reader may be sent any bytes.  What is read at the front of a buffer depends
  on the size field, on how many bytes have arrived, and on the tag:

      size field        body       tag
      not whole         -          -          wait
      below header      -          -          fault, the buffer stays
      above limit       -          -          fault, the buffer stays
      within limits     cut        -          wait
      within limits     whole      known      a frame
      within limits     whole      unknown    fault, the body goes

  Main statements:
    • `Format.readsFront`                    — the table,
    • `decoders_accept_exactly_the_frames`   — the table and the stream, for
                                               requests and for responses.
-/
import RemoteCall.Proofs.Frame.Chunks

namespace RemoteCall.Frame

variable {φ : Type}

/-! ## §1. The front of a buffer. -/

/-- What a reader under this limit makes of the front of a buffer. -/
structure Format.ReadsFront (F : Format φ) (max : Nat) (src : Bytes) : Prop where
  /-- More bytes are needed until the size field and as many bytes as it announces have arrived. -/
  incomplete : F.decode max src = .incomplete ↔ src.length < sizeLength
    ∨ F.header ≤ sizeAt src ∧ sizeAt src ≤ max ∧ src.length < sizeLength + sizeAt src
  /-- As long as more bytes are needed nothing is taken. -/
  untouched : F.decode max src = .incomplete → F.drain max src = ([], none, src)
  undersized : sizeLength ≤ src.length → sizeAt src < F.header →
    F.decode max src = .fault (.invalidMessage
      s!"Frame size {sizeAt src} shorter than header ({F.header} bytes)") src
  oversized : sizeLength ≤ src.length → F.header ≤ sizeAt src → max < sizeAt src →
    F.decode max src = .fault (.messageTooLarge (sizeAt src) max) src
  known : F.header ≤ sizeAt src → sizeAt src ≤ max → sizeLength + sizeAt src ≤ src.length →
    ∀ b, src[sizeLength + F.tag]? = some b → F.known b →
      ∃ f, F.decode max src = .frame f (src.drop (sizeLength + sizeAt src))
  unknown : F.header ≤ sizeAt src → sizeAt src ≤ max → sizeLength + sizeAt src ≤ src.length →
    ∀ b, src[sizeLength + F.tag]? = some b → ¬ F.known b →
      F.decode max src = .fault (F.unknown b) (src.drop (sizeLength + sizeAt src))
  /-- A frame that is read is written as the bytes that are taken. -/
  rewritten : ∀ f rest, F.decode max src = .frame f rest →
    ∃ bytes, F.encode max f = .ok bytes ∧ src = bytes ++ rest

theorem Format.readsFront (F : Format φ) (max : Nat) (src : Bytes) : F.ReadsFront max src where
  incomplete := F.decode_eq_incomplete
  untouched h := by
    rw [F.decode_eq] at h
    rw [F.drain_eq]
    exact drainWith_incomplete h
  undersized hlong hunder := by
    rw [F.decode_eq]
    exact decodeWith_undersized hlong hunder
  oversized hlong hleast hover := by
    rw [F.decode_eq]
    exact decodeWith_oversized hlong hleast hover
  known hleast hmax hwhole _ htag hknown := by
    obtain ⟨f, hdecode, -⟩ := F.decode_known hleast hmax hwhole htag hknown
    exact ⟨f, hdecode⟩
  unknown hleast hmax hwhole _ htag hunknown := F.decode_unknown hleast hmax hwhole htag hunknown
  rewritten f rest h := by
    obtain ⟨hmax, hsrc⟩ := F.eq_bytes_of_decode h
    exact ⟨F.bytes f, F.encode_of_fits hmax, hsrc⟩

/-- An unknown kind, in a whole frame: the frame goes, and what follows it stays. -/
example : RequestFrame.decode 20 [0, 0, 0, 13, 9, 0, 0, 0, 1, 0, 0, 0, 0, 0, 0, 0, 7, 255]
    = .fault (.invalidMessage "Unknown request kind: 0x09") [255] := by cbv

/-! ## §2. A stream. -/

/-- What a reader under this limit makes of bytes, whichever they are and however they come. -/
structure Format.Accepts (F : Format φ) (max : Nat) : Prop where
  /-- Two ways to cut the same bytes bring the same frames before the first fault, and the same
  first fault. -/
  cuts : ∀ chunks chunks' : List Bytes, chunks.flatten = chunks'.flatten →
    untilFault (feed (F.drain max) [] chunks) = untilFault (feed (F.drain max) [] chunks')
  front : ∀ src, F.ReadsFront max src

theorem Format.accepts (F : Format φ) (max : Nat) : F.Accepts max where
  cuts chunks chunks' h := by
    have hnil : decodeWith F.header F.parse max [] = .incomplete := decodeWith_short (by decide)
    -- either way it is what the bytes bring when they come at once
    rw [F.drain_eq, untilFault_feed hnil, untilFault_feed hnil, h]
  front := F.readsFront max

end RemoteCall.Frame

namespace RemoteCall

/-- **The decoders accept exactly the frames**, and it does not matter where a stream is cut: for
every limit, of requests and of responses, and of any bytes at all. -/
theorem decoders_accept_exactly_the_frames (max : Nat) :
    RequestFrame.format.Accepts max ∧ ResponseFrame.format.Accepts max :=
  ⟨RequestFrame.format.accepts max, ResponseFrame.format.accepts max⟩

end RemoteCall
