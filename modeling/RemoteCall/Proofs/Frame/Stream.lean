/-
  RemoteCall.Proofs.Frame.Stream
  ──────────────────────────────
  **FRAMES IN A STREAM.**

  A frame at the front of a buffer is the same frame when more bytes have
  arrived, so it does not matter in which chunks a stream comes.  `Taken` says
  where a reader stands: the frames of a stream are those that have been taken,
  and then those of what is ahead.

      drain stream  =  taken ++ drain ahead

  Main statements:
    • `decodeWith_append`      — more bytes do not change a whole frame,
    • `drainWith_isPrefix`     — more bytes bring more frames,
    • `drainWith_sound`        — more bytes do not mend a fault,
    • `Taken.frame`            — the reader takes one frame,
    • `taken_of_drainWith`     — the reader takes all frames of a buffer,
    • `Taken.eq_of_incomplete` — all whole frames have been taken.
-/
import RemoteCall.Frame.Codec

namespace RemoteCall.Frame

variable {φ : Type} {least max : Nat} {parse : Nat → Bytes → Outcome φ} {src rest : Bytes}

/-! ## §1. The front of a buffer. -/

/-- The same with more bytes behind it. -/
def Decoded.extend (tail : Bytes) : Decoded φ → Decoded φ
  | .incomplete => .incomplete
  | .frame f rest => .frame f (rest ++ tail)
  | .fault e rest => .fault e (rest ++ tail)

/-- **More bytes do not change what has been decoded**, be it a frame or a fault. -/
theorem decodeWith_extend (h : decodeWith least parse max src ≠ .incomplete) (tail : Bytes) :
    decodeWith least parse max (src ++ tail) = (decodeWith least parse max src).extend tail := by
  unfold decodeWith at h ⊢
  -- the size field is there already, so it is the same after more bytes
  split at h
  · exact absurd rfl h
  · next hlength =>
    have hlong : ¬ (src ++ tail).length < sizeLength := by
      rw [List.length_append]
      omega
    have htake : (src ++ tail).take sizeLength = src.take sizeLength :=
      List.take_append_of_le_length (Nat.le_of_not_lt hlength)
    rw [if_neg hlong, if_neg hlength, htake]
    generalize BigEndian.decode (src.take sizeLength) = size at h ⊢
    dsimp only at h ⊢
    split at h
    · next hleast =>
      rw [if_pos hleast, if_pos hleast]
      rfl
    · next hleast =>
      rw [if_neg hleast, if_neg hleast]
      split at h
      · next hmax =>
        rw [if_pos hmax, if_pos hmax]
        rfl
      · next hmax =>
        rw [if_neg hmax, if_neg hmax]
        split at h
        · exact absurd rfl h
        · next hwhole =>
          have hwhole' : ¬ (src ++ tail).length < sizeLength + size := by
            rw [List.length_append]
            omega
          have hbody : ((src ++ tail).drop sizeLength).take size
              = (src.drop sizeLength).take size := by
            rw [List.drop_append_of_le_length (Nat.le_of_not_lt hlength)]
            refine List.take_append_of_le_length ?_
            rw [List.length_drop]
            omega
          -- the body is there too
          rw [if_neg hwhole', if_neg hwhole, hbody,
            List.drop_append_of_le_length (Nat.le_of_not_lt hwhole)]
          cases parse size ((src.drop sizeLength).take size) <;> rfl

/-- **More bytes do not change a whole frame.** -/
theorem decodeWith_append {f : φ} (h : decodeWith least parse max src = .frame f rest)
    (tail : Bytes) : decodeWith least parse max (src ++ tail) = .frame f (rest ++ tail) := by
  rw [decodeWith_extend (by rw [h]; exact nofun), h]
  rfl

/-- More bytes do not mend a fault. -/
theorem decodeWith_append_fault {e : Failure} (h : decodeWith least parse max src = .fault e rest)
    (tail : Bytes) : decodeWith least parse max (src ++ tail) = .fault e (rest ++ tail) := by
  rw [decodeWith_extend (by rw [h]; exact nofun), h]
  rfl

/-! ## §2. Draining. -/

theorem drainWith_frame {f : φ} (h : decodeWith least parse max src = .frame f rest) :
    drainWith least parse max src
      = (f :: (drainWith least parse max rest).1, (drainWith least parse max rest).2) := by
  rw [drainWith]
  split
  · next h' => rw [h] at h'; cases h'
  · next h' => rw [h] at h'; cases h'
  · next h' =>
    rw [h] at h'
    cases h'
    rfl

theorem drainWith_incomplete (h : decodeWith least parse max src = .incomplete) :
    drainWith least parse max src = ([], none, src) := by
  rw [drainWith]
  split
  · rfl
  · next h' => rw [h] at h'; cases h'
  · next h' => rw [h] at h'; cases h'

theorem drainWith_fault {e : Failure} (h : decodeWith least parse max src = .fault e rest) :
    drainWith least parse max src = ([], some e, rest) := by
  rw [drainWith]
  split
  · next h' => rw [h] at h'; cases h'
  · next h' =>
    rw [h] at h'
    cases h'
    rfl
  · next h' => rw [h] at h'; cases h'

/-- **More bytes bring more frames.** -/
theorem drainWith_isPrefix (src tail : Bytes) :
    (drainWith least parse max src).1 <+: (drainWith least parse max (src ++ tail)).1 := by
  -- on the number of bytes: each frame is taken off the front
  induction hlength : src.length using Nat.strongRecOn generalizing src with
  | ind n ih =>
    cases hdecode : decodeWith least parse max src with
    | incomplete =>
      rw [drainWith_incomplete hdecode]
      exact List.nil_prefix
    | fault e rest =>
      rw [drainWith_fault hdecode]
      exact List.nil_prefix
    | frame f rest =>
      have hshorter : rest.length < n := hlength ▸ length_of_decodeWith hdecode
      rw [drainWith_frame hdecode, drainWith_frame (decodeWith_append hdecode tail)]
      exact List.cons_prefix_cons.mpr ⟨rfl, ih rest.length hshorter rest rfl⟩

/-- A stream that is not at fault was not at fault when fewer bytes had arrived. -/
theorem drainWith_sound {src tail : Bytes}
    (h : (drainWith least parse max (src ++ tail)).2.1 = none) :
    (drainWith least parse max src).2.1 = none := by
  induction hlength : src.length using Nat.strongRecOn generalizing src with
  | ind n ih =>
    cases hdecode : decodeWith least parse max src with
    | incomplete => rw [drainWith_incomplete hdecode]
    | fault e rest =>
      rw [drainWith_fault (decodeWith_append_fault hdecode tail)] at h
      cases h
    | frame f rest =>
      have hshorter : rest.length < n := hlength ▸ length_of_decodeWith hdecode
      rw [drainWith_frame (decodeWith_append hdecode tail)] at h
      rw [drainWith_frame hdecode]
      exact ih rest.length hshorter h rfl

/-! ## §3. Where a reader stands. -/

/-- These frames have been taken off a stream, and this is ahead. -/
def Taken (least : Nat) (parse : Nat → Bytes → Outcome φ) (max : Nat) (stream : Bytes)
    (taken : List φ) (ahead : Bytes) : Prop :=
  drainWith least parse max stream
    = (taken ++ (drainWith least parse max ahead).1, (drainWith least parse max ahead).2)

variable {stream ahead : Bytes} {taken : List φ}

theorem taken_nil (stream : Bytes) : Taken least parse max stream [] stream := rfl

/-- **A frame is taken off the stream.** -/
theorem Taken.frame (h : Taken least parse max stream taken ahead) {f : φ}
    (hframe : decodeWith least parse max ahead = .frame f rest) :
    Taken least parse max stream (taken ++ [f]) rest := by
  unfold Taken at h ⊢
  rw [h, drainWith_frame hframe, List.append_assoc]
  rfl

/-- A frame that is next is one of the frames of the stream. -/
theorem Taken.frame_isPrefix (h : Taken least parse max stream taken ahead) {f : φ}
    (hframe : decodeWith least parse max ahead = .frame f rest) :
    (taken ++ [f]) <+: (drainWith least parse max stream).1 := by
  rw [h.frame hframe]
  exact List.prefix_append _ _

theorem Taken.isPrefix (h : Taken least parse max stream taken ahead) :
    taken <+: (drainWith least parse max stream).1 := by
  rw [h]
  exact List.prefix_append _ _

/-- **Where more bytes are needed all whole frames have been taken.** -/
theorem Taken.eq_of_incomplete (h : Taken least parse max stream taken ahead)
    (hmore : decodeWith least parse max ahead = .incomplete) :
    drainWith least parse max stream = (taken, none, ahead) := by
  rw [h, drainWith_incomplete hmore, List.append_nil]

/-- Some frames are taken, and then others. -/
theorem Taken.trans (h : Taken least parse max stream taken ahead) {later : List φ} {left : Bytes}
    (h' : Taken least parse max ahead later left) :
    Taken least parse max stream (taken ++ later) left := by
  unfold Taken at *
  rw [h, h', List.append_assoc]

/-- **Draining a buffer takes its frames off the stream.** -/
theorem taken_of_drainWith {left : Bytes} (h : drainWith least parse max src = (taken, none, left))
    (tail : Bytes) : Taken least parse max (src ++ tail) taken (left ++ tail) := by
  induction hlength : src.length using Nat.strongRecOn generalizing src taken with
  | ind n ih =>
    cases hdecode : decodeWith least parse max src with
    | incomplete =>
      rw [drainWith_incomplete hdecode] at h
      -- a buffer that ends in a fault is not drained
      cases h
      exact taken_nil _
    | fault e rest =>
      rw [drainWith_fault hdecode] at h
      cases h
    | frame f rest =>
      rw [drainWith_frame hdecode] at h
      have hshorter : rest.length < n := hlength ▸ length_of_decodeWith hdecode
      obtain ⟨hframes, hleft⟩ := Prod.mk.inj h
      have hdrain : drainWith least parse max rest
          = ((drainWith least parse max rest).1, none, left) := Prod.ext rfl hleft
      rw [← hframes]
      exact ((taken_nil _).frame (decodeWith_append hdecode tail)).trans
        (ih rest.length hshorter hdrain rfl)

/-- A fault of what is ahead is a fault of the stream. -/
theorem Taken.fault (h : Taken least parse max stream taken ahead) {e : Failure}
    (hfault : decodeWith least parse max ahead = .fault e rest) :
    (drainWith least parse max stream).2.1 = some e := by
  rw [h, drainWith_fault hfault]

end RemoteCall.Frame

namespace RemoteCall

/-- These requests have been taken off a stream, and this is ahead. -/
abbrev RequestFrame.Taken (max : Nat) (stream : Bytes) (taken : List RequestFrame)
    (ahead : Bytes) : Prop :=
  Frame.Taken requestHeaderLength RequestFrame.ofBody max stream taken ahead

/-- These responses have been taken off a stream, and this is ahead. -/
abbrev ResponseFrame.Taken (max : Nat) (stream : Bytes) (taken : List ResponseFrame)
    (ahead : Bytes) : Prop :=
  Frame.Taken responseHeaderLength ResponseFrame.ofBody max stream taken ahead

end RemoteCall
