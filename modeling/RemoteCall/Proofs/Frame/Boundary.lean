/-
  RemoteCall.Proofs.Frame.Boundary
  ────────────────────────────────
  **WHERE FRAMES START.**

  A frame starts at the front of a stream, and behind each whole frame that
  starts somewhere (`Boundary`).  That depends on size fields alone: neither on
  the limit of a reader nor on what a body holds.

      boundary   boundary        boundary
         ↓          ↓               ↓
         │ size body │ size     body │ size bo…

  A cancel that stands at such a place (`Cancels`) is what looking ahead finds,
  no more and no less; and a cancel that is decoded stands there as well.

  Main statements:
    • `Boundary.append`, `Boundary.trans` — more bytes, and more frames,
    • `decode_stands`                     — a frame that is decoded,
    • `mem_bufferedCancels`               — what looking ahead finds,
    • `cancels_of_mem_drain`              — the cancels that a reader decodes.
-/
import RemoteCall.Frame.Lookahead
import RemoteCall.Proofs.Frame.Format

namespace RemoteCall

open RemoteCall.Frame

/-! ## §1. Boundaries. -/

/-- A whole frame starts a buffer: its size is that of a header at least, and all of it is there. -/
structure WholeFrame (src : Bytes) : Prop where
  least : requestHeaderLength ≤ sizeAt src
  whole : sizeLength + sizeAt src ≤ src.length

/-- What stands behind the frame that starts a buffer. -/
def behind (src : Bytes) : Bytes :=
  src.drop (sizeLength + sizeAt src)

/-- A frame may start here: the bytes before this part of a stream are whole frames. -/
inductive Boundary : Bytes → Bytes → Prop where
  /-- At the front of the stream. -/
  | here (src : Bytes) : Boundary src src
  /-- Behind a whole frame. -/
  | next {src ahead : Bytes} : WholeFrame src → Boundary (behind src) ahead → Boundary src ahead

/-- A cancel of the call under a number starts a buffer. -/
structure CancelStands (src : Bytes) (n : SequenceNumber) : Prop extends WholeFrame src where
  kind : src[sizeLength]? = some RequestKind.cancel.code
  /-- The number stands behind the kind and the version. -/
  number : (BigEndian.decode ((src.drop (sizeLength + 5)).take 8)).toUInt64 = n

/-- A cancel of the call under a number stands at a boundary of a stream. -/
def Cancels (stream : Bytes) (n : SequenceNumber) : Prop :=
  ∃ ahead, Boundary stream ahead ∧ CancelStands ahead n

/-- The size field of a whole frame is there already. -/
theorem WholeFrame.sizeAt_append {src : Bytes} (h : WholeFrame src) (tail : Bytes) :
    sizeAt (src ++ tail) = sizeAt src := by
  unfold sizeAt
  have hwhole := h.whole
  rw [List.take_append_of_le_length (by omega)]

theorem WholeFrame.append {src : Bytes} (h : WholeFrame src) (tail : Bytes) :
    WholeFrame (src ++ tail) := by
  have hleast := h.least
  have hwhole := h.whole
  refine ⟨?_, ?_⟩
  · rw [h.sizeAt_append]
    exact hleast
  · rw [h.sizeAt_append, List.length_append]
    omega

theorem WholeFrame.behind_append {src : Bytes} (h : WholeFrame src) (tail : Bytes) :
    behind (src ++ tail) = behind src ++ tail := by
  unfold behind
  rw [h.sizeAt_append, List.drop_append_of_le_length h.whole]

theorem WholeFrame.length_behind_lt {src : Bytes} (h : WholeFrame src) :
    (behind src).length < src.length := by
  have hleast := h.least
  have hwhole := h.whole
  unfold behind requestHeaderLength at *
  rw [List.length_drop]
  omega

/-- **More bytes move no boundary.** -/
theorem Boundary.append {stream ahead : Bytes} (h : Boundary stream ahead) (tail : Bytes) :
    Boundary (stream ++ tail) (ahead ++ tail) := by
  induction h with
  | here src => exact .here _
  | next hwhole _ ih =>
    refine .next (hwhole.append tail) ?_
    rw [hwhole.behind_append]
    exact ih

/-- A boundary of what is behind a boundary is one of the stream. -/
theorem Boundary.trans {stream ahead later : Bytes} (h : Boundary stream ahead)
    (h' : Boundary ahead later) : Boundary stream later := by
  induction h with
  | here src => exact h'
  | next hwhole _ ih => exact .next hwhole (ih h')

theorem CancelStands.append {src : Bytes} {n : SequenceNumber} (h : CancelStands src n)
    (tail : Bytes) : CancelStands (src ++ tail) n := by
  have hleast := h.least
  have hwhole := h.whole
  unfold requestHeaderLength at hleast
  refine ⟨h.toWholeFrame.append tail, ?_, ?_⟩
  · rw [List.getElem?_append_left (by omega)]
    exact h.kind
  · -- all eight bytes of the number are there already
    have hlong : 8 ≤ (src.drop (sizeLength + 5)).length := by
      rw [List.length_drop]
      omega
    rw [List.drop_append_of_le_length (by omega), List.take_append_of_le_length hlong]
    exact h.number

/-- **More bytes take no cancel back.** -/
theorem Cancels.append {stream : Bytes} {n : SequenceNumber} (h : Cancels stream n)
    (tail : Bytes) : Cancels (stream ++ tail) n := by
  obtain ⟨ahead, hboundary, hstands⟩ := h
  exact ⟨ahead ++ tail, hboundary.append tail, hstands.append tail⟩

theorem Boundary.cancels {stream ahead : Bytes} (h : Boundary stream ahead) {n : SequenceNumber}
    (hcancels : Cancels ahead n) : Cancels stream n := by
  obtain ⟨later, hboundary, hstands⟩ := hcancels
  exact ⟨later, h.trans hboundary, hstands⟩

/-! ## §2. Decoding. -/

/-- The kind and the number of a request stand where they are looked for. -/
theorem RequestFrame.body_fields (frame : RequestFrame) :
    frame.body[0]? = some frame.kind.code
      ∧ (BigEndian.decode ((frame.body.drop 5).take 8)).toUInt64 = frame.sequence := by
  have hfront : ([frame.kind.code] ++ BigEndian.encode 4 frame.version.toNat).length = 5 := by
    rw [List.length_append, BigEndian.length_encode]
    rfl
  have height : (BigEndian.encode 8 frame.sequence.toNat).length = 8 := BigEndian.length_encode _ _
  refine ⟨rfl, ?_⟩
  unfold body
  rw [List.append_assoc, List.drop_left' hfront, List.take_left' height,
    BigEndian.decode_encode frame.sequence.toNat_lt]
  exact UInt64.ofNat_toNat

/-- **A frame that is decoded starts the buffer**, as what it is. -/
theorem RequestFrame.decode_stands {max : Nat} {src rest : Bytes} {frame : RequestFrame}
    (h : decode max src = .frame frame rest) :
    WholeFrame src ∧ rest = behind src ∧ src[sizeLength]? = some frame.kind.code
      ∧ (BigEndian.decode ((src.drop (sizeLength + 5)).take 8)).toUInt64 = frame.sequence := by
  have hdecodes := format.decodes max src
  rw [show format.decode max src = .frame frame rest from h] at hdecodes
  cases hdecodes with
  | known hleast hmax hwhole hbody =>
    replace hbody : frame.body = (src.drop sizeLength).take (sizeAt src) := hbody
    replace hleast : requestHeaderLength ≤ sizeAt src := hleast
    obtain ⟨hkind, hnumber⟩ := frame.body_fields
    refine ⟨⟨hleast, hwhole⟩, rfl, ?_, ?_⟩
    · unfold requestHeaderLength at hleast
      rw [hbody, List.getElem?_take_of_lt (by omega), List.getElem?_drop, Nat.add_zero] at hkind
      exact hkind
    · -- the header is in the body, so the number is read from the same bytes
      unfold requestHeaderLength at hleast
      rw [hbody, List.drop_take, List.drop_drop, List.take_take,
        Nat.min_eq_left (by omega)] at hnumber
      exact hnumber

theorem RequestFrame.cancelStands_of_decode {max : Nat} {src rest : Bytes} {frame : RequestFrame}
    (h : decode max src = .frame frame rest) (hkind : frame.kind = .cancel) :
    CancelStands src frame.sequence := by
  obtain ⟨hwhole, -, hbyte, hnumber⟩ := decode_stands h
  rw [hkind] at hbyte
  exact ⟨hwhole, hbyte, hnumber⟩

/-- **The cancels that a reader decodes** stand at boundaries. -/
theorem RequestFrame.cancels_of_mem_drain {max : Nat} {src : Bytes} {frame : RequestFrame}
    (h : frame ∈ (drain max src).1) (hkind : frame.kind = .cancel) :
    Cancels src frame.sequence := by
  induction hlength : src.length using Nat.strongRecOn generalizing src with
  | ind n ih =>
    unfold drain at h
    cases hdecode : decode max src with
    | incomplete =>
      rw [drainWith_incomplete hdecode] at h
      cases h
    | fault e rest =>
      rw [drainWith_fault hdecode] at h
      cases h
    | frame first rest =>
      rw [drainWith_frame hdecode] at h
      rcases List.mem_cons.mp h with rfl | hlater
      · exact ⟨src, .here src, cancelStands_of_decode hdecode hkind⟩
      · -- behind the first frame
        obtain ⟨hwhole, hrest, -, -⟩ := decode_stands hdecode
        have hshorter : rest.length < n := hlength ▸ length_of_decodeWith hdecode
        have hcancels := ih rest.length hshorter hlater rfl
        rw [hrest] at hcancels
        exact (Boundary.next hwhole (.here _)).cancels hcancels

/-! ## §3. Looking ahead. -/

theorem RequestFrame.nextIsCancel_iff {src : Bytes} :
    nextIsCancel src = true ↔ src[sizeLength]? = some RequestKind.cancel.code
      ∧ sizeLength + requestHeaderLength ≤ src.length := by
  unfold nextIsCancel peekKind
  rw [Bool.and_eq_true, beq_iff_eq, decide_eq_true_eq]

/-- Whether a cancel starts a buffer can be told from its header. -/
theorem RequestFrame.nextIsCancel_of_stands {src : Bytes} {n : SequenceNumber}
    (h : CancelStands src n) : nextIsCancel src = true :=
  nextIsCancel_iff.mpr
    ⟨h.kind, Nat.le_trans (Nat.add_le_add_left h.least sizeLength) h.whole⟩

/-- **A frame whose kind byte is that of a cancel is decoded as a cancel.** -/
theorem RequestFrame.kind_of_nextIsCancel {max : Nat} {src rest : Bytes} {frame : RequestFrame}
    (hcancel : nextIsCancel src = true) (hframe : decode max src = .frame frame rest) :
    frame.kind = .cancel := by
  obtain ⟨hbyte, -⟩ := nextIsCancel_iff.mp hcancel
  obtain ⟨-, -, hkind, -⟩ := decode_stands hframe
  have hcode : RequestKind.cancel.code = frame.kind.code := Option.some.inj (hbyte.symm.trans hkind)
  cases hcase : frame.kind with
  | call =>
    rw [hcase] at hcode
    cases hcode
  | cancel => rfl

/-- Looking ahead goes through the frame that starts the buffer, and then on behind it. -/
theorem RequestFrame.bufferedCancels_of_whole {src : Bytes} (h : WholeFrame src) :
    bufferedCancels src
      = if src[sizeLength]? = some RequestKind.cancel.code then
          (BigEndian.decode ((src.drop (sizeLength + 5)).take 8)).toUInt64
            :: bufferedCancels (behind src)
        else bufferedCancels (behind src) := by
  have hleast := h.least
  have hwhole := h.whole
  rw [bufferedCancels, if_neg (by omega)]
  exact if_neg (by unfold sizeAt at hleast hwhole; omega)

/-- Looking ahead stops where no whole frame starts. -/
theorem RequestFrame.bufferedCancels_of_not_whole {src : Bytes} (h : ¬ WholeFrame src) :
    bufferedCancels src = [] := by
  rw [bufferedCancels]
  by_cases hshort : src.length < sizeLength
  · rw [if_pos hshort]
  · rw [if_neg hshort]
    refine if_pos (Decidable.byContradiction fun hgoes => ?_)
    rw [not_or, Nat.not_lt, Nat.not_lt] at hgoes
    exact h ⟨hgoes.1, hgoes.2⟩

/-- **Looking ahead finds the cancels that stand at boundaries**, and no others. -/
theorem RequestFrame.mem_bufferedCancels {src : Bytes} {n : SequenceNumber} :
    n ∈ bufferedCancels src ↔ Cancels src n := by
  constructor
  · intro h
    induction hlength : src.length using Nat.strongRecOn generalizing src with
    | ind length ih =>
      by_cases hwhole : WholeFrame src
      · have hlater : n ∈ bufferedCancels (behind src) → Cancels src n := fun hmem =>
          (Boundary.next hwhole (.here _)).cancels
            (ih _ (hlength ▸ hwhole.length_behind_lt) hmem rfl)
        rw [bufferedCancels_of_whole hwhole] at h
        split at h
        · next hkind =>
          rcases List.mem_cons.mp h with hfirst | hmem
          · exact ⟨src, .here src, hwhole, hkind, hfirst.symm⟩
          · exact hlater hmem
        · exact hlater h
      · rw [bufferedCancels_of_not_whole hwhole] at h
        cases h
  · rintro ⟨ahead, hboundary, hstands⟩
    induction hboundary with
    | here src =>
      rw [bufferedCancels_of_whole hstands.toWholeFrame, if_pos hstands.kind, hstands.number]
      exact List.mem_cons_self
    | next hwhole _ ih =>
      rw [bufferedCancels_of_whole hwhole]
      split
      · exact List.mem_cons_of_mem _ (ih hstands)
      · exact ih hstands

end RemoteCall
