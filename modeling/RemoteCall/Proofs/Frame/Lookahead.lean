/-
  RemoteCall.Proofs.Frame.Lookahead
  ─────────────────────────────────
  **LOOKING AHEAD, AND DECODING.**

  Looking ahead goes from frame to frame by the size fields, as decoding one
  frame after the other does.  The kinds are looked at only to find the cancels,
  and it is there that the two part:

                            decoding             looking ahead
      too few bytes         waits                stops
      a size too small      stops                stops
      a call or a cancel    goes on behind it    goes on behind it
      any other kind        stops behind it      goes on behind it

  So the cancels that are decoded are found first, and in order.  They are all
  that is found, unless decoding stops at an unknown kind: then what stands
  behind that frame is searched as well.

  Whether the next frame is a cancel is told from its kind byte as soon as its
  header has arrived.  Decoding looks at the size as well:

      the header of a cancel, and      decoding
      all that its size announces      yields a cancel
      a size too small for a header    stops at a fault
      less than its size announces     waits

  In the last two cases the size misleads (`Misleads`).  Then nothing is
  decoded; but whatever is decoded later from there is a cancel.

  Main statements:
    • `decode_of_whole`, `decode_of_not_whole`   — the front of a buffer,
    • `bufferedCancels_drain`                    — a whole buffer,
    • `looking_ahead_agrees_up_to_unknown_kinds` — when the two agree,
    • `a_cancel_is_found_behind_an_unknown_kind` — a buffer on which they do not,
    • `takesCancel_iff`, `decode_of_misleads`    — the next frame,
    • `a_cancel_is_told_unless_its_size_misleads`
                                                 — when it is told rightly,
    • `a_cancel_is_told_before_it_has_arrived`   — a buffer on which it is not.
-/
import RemoteCall.Proofs.Frame.Boundary

namespace RemoteCall.RequestFrame

open RemoteCall.Frame

/-- The calls that are cancelled by some frames, in order. -/
def cancelledBy (frames : List RequestFrame) : List SequenceNumber :=
  (frames.filter fun frame => frame.kind = .cancel).map (·.sequence)

theorem cancelledBy_append (frames more : List RequestFrame) :
    cancelledBy (frames ++ more) = cancelledBy frames ++ cancelledBy more := by
  unfold cancelledBy
  rw [List.filter_append, List.map_append]

variable {max : Nat} {src : Bytes}

/-! ## §1. The front of a buffer. -/

/-- No size field says more than 32 bits can hold. -/
theorem sizeAt_le (hmax : 2 ^ 32 - 1 ≤ max) (src : Bytes) : sizeAt src ≤ max := by
  have hlt : sizeAt src < 256 ^ sizeLength := BigEndian.decode_take_lt src sizeLength
  have hword : 256 ^ sizeLength = 2 ^ 32 := rfl
  omega

/-- A whole frame of an unknown kind is refused. -/
theorem decode_unknown_kind {b : UInt8} (hmax : 2 ^ 32 - 1 ≤ max) (h : WholeFrame src)
    (htag : src[sizeLength]? = some b) (hunknown : ¬ ∃ kind : RequestKind, kind.code = b) :
    decode max src = .fault (format.unknown b) (behind src) :=
  format.decode_unknown h.least (sizeAt_le hmax src) h.whole htag hunknown

/-- **A whole frame is decoded, or its kind is unknown.**  Either way decoding takes it off the
buffer, and looking ahead goes on behind it. -/
theorem decode_of_whole (hmax : 2 ^ 32 - 1 ≤ max) (h : WholeFrame src) :
    (∃ frame, decode max src = .frame frame (behind src)
        ∧ bufferedCancels src = cancelledBy [frame] ++ bufferedCancels (behind src))
      ∨ ∃ b, decode max src = .fault (format.unknown b) (behind src)
        ∧ bufferedCancels src = bufferedCancels (behind src) := by
  have hleast := h.least
  have hwhole := h.whole
  have hlt : sizeLength < src.length := by
    unfold requestHeaderLength at hleast
    omega
  have htag : src[sizeLength]? = some src[sizeLength] := List.getElem?_eq_getElem hlt
  by_cases hknown : ∃ kind : RequestKind, kind.code = src[sizeLength]
  · obtain ⟨frame, hdecode, -⟩ :=
      format.decode_known hleast (sizeAt_le hmax src) hwhole htag hknown
    refine .inl ⟨frame, hdecode, ?_⟩
    obtain ⟨-, -, hkind, hnumber⟩ := decode_stands hdecode
    rw [bufferedCancels_of_whole h, hkind, hnumber]
    unfold cancelledBy
    cases hframe : frame.kind with
    | call => simp [hframe, RequestKind.code]
    | cancel => simp [hframe]
  · have hdecode := decode_unknown_kind hmax h htag hknown
    refine .inr ⟨_, hdecode, ?_⟩
    rw [bufferedCancels_of_whole h, htag, if_neg]
    exact fun hcancel => hknown ⟨.cancel, (Option.some.inj hcancel).symm⟩

/-- Where no whole frame starts, decoding takes nothing off the buffer. -/
theorem decode_of_not_whole (hmax : 2 ^ 32 - 1 ≤ max) (h : ¬ WholeFrame src) :
    decode max src = .incomplete ∨ ∃ e, decode max src = .fault e src := by
  rcases Nat.lt_or_ge src.length sizeLength with hshort | hlong
  · exact .inl (decodeWith_short hshort)
  rcases Nat.lt_or_ge (sizeAt src) requestHeaderLength with hunder | hleast
  · exact .inr ⟨_, decodeWith_undersized hlong hunder⟩
  · -- the size is legal, so it is the body that is not there
    have hcut : src.length < sizeLength + sizeAt src :=
      Nat.lt_of_not_le fun hwhole => h ⟨hleast, hwhole⟩
    exact .inl ((decodeWith_legal hlong hleast (sizeAt_le hmax src)).trans (if_pos hcut))

/-! ## §2. A whole buffer. -/

/-- **Looking ahead finds what is decoded**, and then what stands where decoding stops: nothing, as
no whole frame starts there, or whatever follows a frame of an unknown kind. -/
theorem bufferedCancels_drain (hmax : 2 ^ 32 - 1 ≤ max) (src : Bytes) :
    bufferedCancels src
        = cancelledBy (drain max src).1 ++ bufferedCancels (drain max src).2.2
      ∧ (¬ WholeFrame (drain max src).2.2
        ∨ ∃ b, (drain max src).2.1 = some (format.unknown b)) := by
  -- on the number of bytes: each frame is taken off the front
  induction hlength : src.length using Nat.strongRecOn generalizing src with
  | ind n ih =>
    unfold drain at *
    by_cases hwhole : WholeFrame src
    · rcases decode_of_whole hmax hwhole with ⟨frame, hdecode, hfound⟩ | ⟨b, hdecode, hfound⟩
      · obtain ⟨hrest, hstops⟩ := ih _ (hlength ▸ hwhole.length_behind_lt) (behind src) rfl
        rw [drainWith_frame hdecode]
        refine ⟨?_, hstops⟩
        rw [hfound, hrest, ← List.append_assoc, ← cancelledBy_append]
        rfl
      · rw [drainWith_fault hdecode]
        exact ⟨hfound, .inr ⟨b, rfl⟩⟩
    · rcases decode_of_not_whole hmax hwhole with hdecode | ⟨e, hdecode⟩
      · rw [drainWith_incomplete hdecode]
        exact ⟨rfl, .inl hwhole⟩
      · rw [drainWith_fault hdecode]
        exact ⟨rfl, .inl hwhole⟩

/-- **Looking ahead agrees with decoding up to unknown kinds.**  Under a limit that every size field
is within, whatever a buffer holds: the calls whose cancels are decoded, one frame after the other
until more bytes are needed or a frame is malformed, are found first and in order.  Nothing else is
found, unless the malformed frame is a whole one of an unknown kind; then the calls that are found
behind it follow. -/
theorem looking_ahead_agrees_up_to_unknown_kinds (hmax : 2 ^ 32 - 1 ≤ max) (src : Bytes) :
    bufferedCancels src
        = cancelledBy (drain max src).1 ++ bufferedCancels (drain max src).2.2
      ∧ ((∀ b, (drain max src).2.1 ≠ some (format.unknown b)) →
        bufferedCancels src = cancelledBy (drain max src).1) := by
  obtain ⟨hfound, hstops⟩ := bufferedCancels_drain hmax src
  refine ⟨hfound, fun hknown => ?_⟩
  have hnone : ¬ WholeFrame (drain max src).2.2 :=
    hstops.resolve_right fun ⟨b, hunknown⟩ => hknown b hunknown
  rw [hfound, bufferedCancels_of_not_whole hnone, List.append_nil]

section TwoFrames

/-- A call is passed over, its payload is not looked at, and the cancel behind it is found; the
frame that has not arrived is left to the next time. -/
theorem looking_ahead_agrees_up_to_unknown_kinds_behind_a_call :
    ∃ src : Bytes, (drain (2 ^ 32 - 1) src).1 = [⟨14, .call, 1, 0, [5]⟩, .cancel 1 7]
      ∧ (drain (2 ^ 32 - 1) src).2 = (none, [0, 0]) ∧ bufferedCancels src = [7] := by
  have hdrain : drain (2 ^ 32 - 1) [0, 0, 0, 14, 1, 0, 0, 0, 1, 0, 0, 0, 0, 0, 0, 0, 0, 5,
      0, 0, 0, 13, 2, 0, 0, 0, 1, 0, 0, 0, 0, 0, 0, 0, 7, 0, 0]
      = ([⟨14, .call, 1, 0, [5]⟩, .cancel 1 7], none, [0, 0]) := by cbv
  refine ⟨_, congrArg Prod.fst hdrain, congrArg Prod.snd hdrain, ?_⟩
  rw [(looking_ahead_agrees_up_to_unknown_kinds (Nat.le_refl _) _).2 (by rw [hdrain]; nofun),
    hdrain]
  rfl

/-- **A cancel is found behind a frame of an unknown kind.**  Decoding refuses the first frame, so
no cancel is decoded; looking ahead finds one all the same. -/
theorem a_cancel_is_found_behind_an_unknown_kind :
    ∃ src : Bytes, decode (2 ^ 32 - 1) src
        = .fault (.invalidMessage "Unknown request kind: 0x09") (src.drop 17)
      ∧ cancelledBy (drain (2 ^ 32 - 1) src).1 = [] ∧ bufferedCancels src = [7]
      ∧ bufferedCancels src ≠ cancelledBy (drain (2 ^ 32 - 1) src).1 := by
  let src : Bytes := [0, 0, 0, 13, 9, 0, 0, 0, 1, 0, 0, 0, 0, 0, 0, 0, 0,
    0, 0, 0, 13, 2, 0, 0, 0, 1, 0, 0, 0, 0, 0, 0, 0, 7]
  have hunknown : format.unknown 9 = .invalidMessage "Unknown request kind: 0x09" := by decide
  have hwhole : WholeFrame src := ⟨by decide, by decide⟩
  have hkind : ¬ ∃ kind : RequestKind, kind.code = 9 := by
    rintro ⟨kind, hcode⟩
    cases kind <;> cases hcode
  have hdecode := decode_unknown_kind (Nat.le_refl _) hwhole rfl hkind
  have hdecoded : cancelledBy (drain (2 ^ 32 - 1) src).1 = [] := by
    unfold drain
    rw [drainWith_fault hdecode]
    rfl
  have hfound : bufferedCancels src = [7] := by cbv
  have hbehind : behind src = src.drop 17 := by decide
  rw [hunknown, hbehind] at hdecode
  refine ⟨src, hdecode, hdecoded, hfound, ?_⟩
  rw [hfound, hdecoded]
  exact List.cons_ne_nil _ _

end TwoFrames

/-! ## §3. The next frame. -/

/-- Decoding takes a cancel off a buffer. -/
def TakesCancel (max : Nat) (src : Bytes) : Prop :=
  ∃ frame rest, decode max src = .frame frame rest ∧ frame.kind = .cancel

/-- The header of a cancel starts a buffer, but its size is too small for a header, or announces
more than has arrived. -/
structure Misleads (src : Bytes) : Prop where
  kind : src[sizeLength]? = some RequestKind.cancel.code
  header : sizeLength + requestHeaderLength ≤ src.length
  size : sizeAt src < requestHeaderLength ∨ src.length < sizeLength + sizeAt src

/-- The size misleads if no whole frame starts the buffer. -/
theorem misleads_iff : Misleads src ↔ nextIsCancel src = true ∧ ¬ WholeFrame src := by
  constructor
  · intro h
    refine ⟨nextIsCancel_iff.mpr ⟨h.kind, h.header⟩, fun hwhole => ?_⟩
    rcases h.size with hunder | hcut
    · exact Nat.not_lt.mpr hwhole.least hunder
    · exact Nat.not_lt.mpr hwhole.whole hcut
  · rintro ⟨hnext, hpart⟩
    obtain ⟨hkind, hheader⟩ := nextIsCancel_iff.mp hnext
    refine ⟨hkind, hheader, ?_⟩
    rcases Nat.lt_or_ge (sizeAt src) requestHeaderLength with hunder | hleast
    · exact .inl hunder
    · exact .inr (Nat.lt_of_not_le fun hwhole => hpart ⟨hleast, hwhole⟩)

/-- **A cancel is decoded if its kind byte says so and all of it is there.** -/
theorem takesCancel_iff :
    TakesCancel max src ↔ nextIsCancel src = true ∧ WholeFrame src ∧ sizeAt src ≤ max := by
  constructor
  · rintro ⟨frame, rest, hdecode, hkind⟩
    have hstands := cancelStands_of_decode hdecode hkind
    refine ⟨nextIsCancel_of_stands hstands, hstands.toWholeFrame, ?_⟩
    have hdecodes := format.decodes max src
    rw [show format.decode max src = .frame frame rest from hdecode] at hdecodes
    cases hdecodes with
    | known _ hmax _ _ => exact hmax
  · rintro ⟨hnext, hwhole, hmax⟩
    obtain ⟨hkind, -⟩ := nextIsCancel_iff.mp hnext
    obtain ⟨frame, hdecode, -⟩ :=
      format.decode_known hwhole.least hmax hwhole.whole hkind ⟨.cancel, rfl⟩
    exact ⟨frame, _, hdecode, kind_of_nextIsCancel hnext hdecode⟩

/-- **Where the size misleads nothing is decoded**, whatever the limit, and nothing is taken off the
buffer. -/
theorem decode_of_misleads (h : Misleads src) (max : Nat) :
    decode max src
      = if sizeAt src < requestHeaderLength then
          .fault (.invalidMessage
            s!"Frame size {sizeAt src} shorter than header ({requestHeaderLength} bytes)") src
        else if max < sizeAt src then .fault (.messageTooLarge (sizeAt src) max) src
        else .incomplete := by
  have hlong : sizeLength ≤ src.length := Nat.le_trans (Nat.le_add_right _ _) h.header
  split
  · next hunder => exact decodeWith_undersized hlong hunder
  · next hleast =>
    have hcut := h.size.resolve_left hleast
    rw [Nat.not_lt] at hleast
    split
    · next hover => exact decodeWith_oversized hlong hleast hover
    · next hmax => exact format.decode_eq_incomplete.mpr (.inr ⟨hleast, Nat.not_lt.mp hmax, hcut⟩)

/-- The header is not taken back by what arrives behind it. -/
theorem nextIsCancel_append (h : nextIsCancel src = true) (tail : Bytes) :
    nextIsCancel (src ++ tail) = true := by
  obtain ⟨hkind, hheader⟩ := nextIsCancel_iff.mp h
  refine nextIsCancel_iff.mpr ⟨?_, ?_⟩
  · unfold requestHeaderLength at hheader
    rw [List.getElem?_append_left (by omega)]
    exact hkind
  · rw [List.length_append]
    exact Nat.le_trans hheader (Nat.le_add_right _ _)

/-- **The next cancel is told unless its size misleads.**  Under a limit that every size field is
within, whatever a buffer holds: that the next frame is a cancel is said if and only if decoding
yields one, except where the header of a cancel has arrived with a size that is too small, or that
announces more than has arrived.  There it is said although decoding finds a fault, or waits; and
once all that is announced has arrived, it is a cancel that decoding yields. -/
theorem a_cancel_is_told_unless_its_size_misleads (hmax : 2 ^ 32 - 1 ≤ max) (src : Bytes) :
    ((nextIsCancel src = true ↔ TakesCancel max src) ↔ ¬ Misleads src)
      ∧ (Misleads src → nextIsCancel src = true ∧ decode max src
        = if sizeAt src < requestHeaderLength then
            .fault (.invalidMessage
              s!"Frame size {sizeAt src} shorter than header ({requestHeaderLength} bytes)") src
          else .incomplete)
      ∧ (nextIsCancel src = true → ∀ tail, WholeFrame (src ++ tail) →
        TakesCancel max (src ++ tail)) := by
  refine ⟨?_, ?_, ?_⟩
  · rw [takesCancel_iff, misleads_iff]
    constructor
    · rintro hagree ⟨hnext, hpart⟩
      exact hpart (hagree.mp hnext).2.1
    · intro hwhole
      refine ⟨fun hnext => ⟨hnext, ?_, sizeAt_le hmax src⟩, And.left⟩
      exact Classical.byContradiction fun hpart => hwhole ⟨hnext, hpart⟩
  · intro hmisleads
    have hdecode := decode_of_misleads hmisleads max
    rw [if_neg (Nat.not_lt.mpr (sizeAt_le hmax src))] at hdecode
    exact ⟨(misleads_iff.mp hmisleads).1, hdecode⟩
  · intro hnext tail hwhole
    exact takesCancel_iff.mpr ⟨nextIsCancel_append hnext tail, hwhole, sizeAt_le hmax _⟩

section OneFrame

/-- A cancel with a payload arrives, all but its last byte: decoding waits.  With that byte, and the
first one of another frame, the cancel is told rightly. -/
theorem a_cancel_is_told_unless_its_size_misleads_when_it_is_cut :
    ∃ early : Bytes, decode (2 ^ 32 - 1) early = .incomplete
      ∧ TakesCancel (2 ^ 32 - 1) (early ++ [5, 0]) ∧ nextIsCancel (early ++ [5, 0]) = true := by
  let early : Bytes := [0, 0, 0, 14, 2, 0, 0, 0, 1, 0, 0, 0, 0, 0, 0, 0, 7]
  have hmisleads : Misleads early := ⟨by decide, by decide, .inr (by decide)⟩
  have hwhole : WholeFrame (early ++ [5, 0]) := ⟨by decide, by decide⟩
  have hright : ¬ Misleads (early ++ [5, 0]) := fun h => (misleads_iff.mp h).2 hwhole
  obtain ⟨-, hwaits, harrives⟩ := a_cancel_is_told_unless_its_size_misleads (Nat.le_refl _) early
  obtain ⟨hnext, hdecode⟩ := hwaits hmisleads
  have htaken := harrives hnext [5, 0] hwhole
  refine ⟨early, hdecode.trans (if_neg (by decide)), htaken, ?_⟩
  exact ((a_cancel_is_told_unless_its_size_misleads (Nat.le_refl _) _).1.mpr hright).mpr htaken

/-- **A cancel is told before it has arrived.**  A payload of one byte is announced, and has not
come: decoding waits for it, and yet the next frame is said to be a cancel. -/
theorem a_cancel_is_told_before_it_has_arrived :
    ∃ src : Bytes, nextIsCancel src = true ∧ decode (2 ^ 32 - 1) src = .incomplete
      ∧ ¬ (nextIsCancel src = true ↔ TakesCancel (2 ^ 32 - 1) src) := by
  let src : Bytes := [0, 0, 0, 14, 2, 0, 0, 0, 1, 0, 0, 0, 0, 0, 0, 0, 7]
  have hnext : nextIsCancel src = true := by decide
  have hmisleads : Misleads src := ⟨by decide, by decide, .inr (by decide)⟩
  have hdecode := decode_of_misleads hmisleads (2 ^ 32 - 1)
  rw [if_neg (by decide), if_neg (Nat.not_lt.mpr (sizeAt_le (Nat.le_refl _) src))] at hdecode
  refine ⟨src, hnext, hdecode, fun hagree => ?_⟩
  obtain ⟨frame, rest, hframe, -⟩ := hagree.mp hnext
  rw [hdecode] at hframe
  cases hframe

end OneFrame

end RemoteCall.RequestFrame
