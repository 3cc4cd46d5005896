/-
  RemoteCall.Proofs.Json.Strings
  ──────────────────────────────
  **A TEXT IS READ BACK FROM A JSON STRING.**

  A text is written byte by byte, and each byte is read back as one piece of the
  string, in one of three ways:

      a      →  a         a byte that stands for itself
      "      →  \"        an escape of one letter
      U+001F →  \u001f    an escape of four digits, for control characters

  A byte above 127 stands for itself, so the bytes of one character stay
  together and the pieces spell the bytes of the text again.  A document that
  holds nothing but a string is one token, and the whole of it is read.

  Main statements:
    • `takePieces_escapeByte`      — one byte,
    • `takePieces_printed`         — a whole string,
    • `Document.parse?_printText`  — a document that is a string.
-/
import RemoteCall.Json.Value

namespace RemoteCall.Json

variable {b : UInt8} {rest : Bytes}

/-! ## §1. One byte. -/

/-- A piece that spells one byte, whatever pieces follow. -/
def Piece.Spells (piece : Piece) (b : UInt8) : Prop :=
  ∀ pieces, joinPieces (piece :: pieces) = (joinPieces pieces).map (b :: ·)

theorem Piece.spells_byte (b : UInt8) : (Piece.byte b).Spells b := by
  intro pieces
  rfl

/-- The unit of a control character spells its one byte. -/
theorem Piece.spells_unit (hcontrol : b < 0x20) : (Piece.unit b.toNat).Spells b := by
  have hnat : b.toNat < 0x20 := hcontrol
  have hone : ∀ n < 0x20, Bytes.ofText (String.singleton (Char.ofNat n)) = [UInt8.ofNat n] := by
    decide
  have hhigh : ¬ isHighSurrogate b.toNat = true := by
    simp only [isHighSurrogate, Bool.and_eq_true, decide_eq_true_eq]
    omega
  have hlow : ¬ isLowSurrogate b.toNat = true := by
    simp only [isLowSurrogate, Bool.and_eq_true, decide_eq_true_eq]
    omega
  intro pieces
  conv => lhs; unfold joinPieces
  rw [if_neg hhigh, if_neg hlow, hone b.toNat hnat, UInt8.ofNat_toNat]
  rfl

/-- The byte of a digit. -/
def digitByte (n : Nat) : UInt8 :=
  UInt8.ofNat (Hex.digit n).toNat

theorem hexDigit?_digitByte {n : Nat} (h : n < 16) : hexDigit? (digitByte n) = some n := by
  have hall : ∀ n < 16, hexDigit? (digitByte n) = some n := by decide
  exact hall n h

/-- The escape of a control character has two zeros and two more digits. -/
theorem ofText_control (hcontrol : b < 0x20) :
    Bytes.ofText "\\u00" ++ Bytes.ofText (Hex.byte b)
      = [0x5C, 0x75, 0x30, 0x30, digitByte (b.toNat / 16), digitByte (b.toNat % 16)] := by
  have hall : ∀ n < 0x20, Bytes.ofText "\\u00" ++ Bytes.ofText (Hex.byte (UInt8.ofNat n))
      = [0x5C, 0x75, 0x30, 0x30, digitByte (n / 16), digitByte (n % 16)] := by decide
  have hescape := hall b.toNat hcontrol
  rw [UInt8.ofNat_toNat] at hescape
  exact hescape

/-! ## §2. Reading the pieces. -/

theorem takePieces_self (hquote : b ≠ 0x22) (hcontrol : ¬ b < 0x20) (hslash : b ≠ 0x5C)
    (rest : Bytes) :
    takePieces (b :: rest)
      = (takePieces rest).map fun (pieces, left) => (.byte b :: pieces, left) := by
  conv => lhs; unfold takePieces
  rw [if_neg hquote, if_neg hcontrol, if_neg hslash]
  cases takePieces rest <;> rfl

theorem takePieces_letter {e : UInt8} (hunit : e ≠ 0x75) (hletter : escaped? e = some b)
    (rest : Bytes) :
    takePieces (0x5C :: e :: rest)
      = (takePieces rest).map fun (pieces, left) => (.byte b :: pieces, left) := by
  conv => lhs; unfold takePieces
  rw [if_neg (by decide), if_neg (by decide), if_pos rfl]
  dsimp only
  rw [if_neg hunit, hletter]
  cases takePieces rest <;> rfl

theorem takePieces_digits {high low : UInt8} {m n : Nat} (hhigh : hexDigit? high = some m)
    (hlow : hexDigit? low = some n) (rest : Bytes) :
    takePieces (0x5C :: 0x75 :: 0x30 :: 0x30 :: high :: low :: rest)
      = (takePieces rest).map fun (pieces, left) => (.unit (m * 16 + n) :: pieces, left) := by
  have hzero : hexDigit? 0x30 = some 0 := by decide
  conv => lhs; unfold takePieces
  rw [if_neg (by decide), if_neg (by decide), if_pos rfl]
  dsimp only
  rw [if_pos rfl, hzero, hhigh, hlow]
  cases takePieces rest <;> simp

/-- The three ways in which a byte is written. -/
theorem escapeByte_cases (b : UInt8) :
    (∃ e, e ≠ 0x75 ∧ escaped? e = some b ∧ escapeByte b = [0x5C, e])
      ∨ (b < 0x20 ∧ escapeByte b = Bytes.ofText "\\u00" ++ Bytes.ofText (Hex.byte b))
      ∨ (b ≠ 0x22 ∧ b ≠ 0x5C ∧ ¬ b < 0x20 ∧ escapeByte b = [b]) := by
  unfold escapeByte
  split
  · next hself =>
    rcases hself with rfl | rfl
    · exact .inl ⟨0x22, by decide, by decide, rfl⟩
    · exact .inl ⟨0x5C, by decide, by decide, rfl⟩
  split
  · next h => exact .inl ⟨0x62, by decide, by rw [h]; decide, rfl⟩
  split
  · next h => exact .inl ⟨0x74, by decide, by rw [h]; decide, rfl⟩
  split
  · next h => exact .inl ⟨0x6E, by decide, by rw [h]; decide, rfl⟩
  split
  · next h => exact .inl ⟨0x66, by decide, by rw [h]; decide, rfl⟩
  split
  · next h => exact .inl ⟨0x72, by decide, by rw [h]; decide, rfl⟩
  split
  · next hcontrol => exact .inr (.inl ⟨hcontrol, rfl⟩)
  · next hself _ _ _ _ _ hcontrol =>
    exact .inr (.inr ⟨fun h => hself (.inl h), fun h => hself (.inr h), hcontrol, rfl⟩)

/-- **A byte is read back as one piece.** -/
theorem takePieces_escapeByte (b : UInt8) (rest : Bytes) :
    ∃ piece : Piece, piece.Spells b ∧ takePieces (escapeByte b ++ rest)
      = (takePieces rest).map fun (pieces, left) => (piece :: pieces, left) := by
  rcases escapeByte_cases b with ⟨e, hunit, hletter, hescape⟩ | ⟨hcontrol, hescape⟩
    | ⟨hquote, hslash, hcontrol, hescape⟩
  · rw [hescape]
    exact ⟨.byte b, Piece.spells_byte b, takePieces_letter hunit hletter rest⟩
  · have hnat : b.toNat < 0x20 := hcontrol
    have htaken := takePieces_digits (hexDigit?_digitByte (show b.toNat / 16 < 16 by omega))
      (hexDigit?_digitByte (show b.toNat % 16 < 16 by omega)) rest
    rw [Nat.div_add_mod'] at htaken
    rw [hescape, ofText_control hcontrol]
    exact ⟨.unit b.toNat, Piece.spells_unit hcontrol, htaken⟩
  · rw [hescape]
    exact ⟨.byte b, Piece.spells_byte b, takePieces_self hquote hcontrol hslash rest⟩

/-- **The bytes of a string are read back, up to its closing mark.** -/
theorem takePieces_printed (bytes rest : Bytes) :
    ∃ pieces, takePieces (bytes.flatMap escapeByte ++ 0x22 :: rest) = some (pieces, rest)
      ∧ joinPieces pieces = some bytes := by
  induction bytes with
  | nil => exact ⟨[], by unfold takePieces; rfl, rfl⟩
  | cons b bytes ih =>
    obtain ⟨pieces, htaken, hjoined⟩ := ih
    obtain ⟨piece, hspells, hpiece⟩ :=
      takePieces_escapeByte b (bytes.flatMap escapeByte ++ 0x22 :: rest)
    refine ⟨piece :: pieces, ?_, ?_⟩
    · rw [List.flatMap_cons, List.append_assoc, hpiece, htaken]
      rfl
    · rw [hspells, hjoined]
      rfl

/-! ## §3. A document. -/

/-- The token of a string. -/
theorem takeToken_printed (text : String) (rest : Bytes) :
    takeToken 0x22 ((Bytes.ofText text).flatMap escapeByte ++ 0x22 :: rest)
      = some (.string (some text), rest) := by
  obtain ⟨pieces, htaken, hjoined⟩ := takePieces_printed (Bytes.ofText text) rest
  have htext : textOf? pieces = some text := by
    unfold textOf?
    rw [hjoined]
    exact Utf8.decode_ofText text
  show (takePieces _).map _ = _
  rw [htaken]
  show some (Token.string (textOf? pieces), rest) = _
  rw [htext]

theorem tokensFrom_nil (fuel : Nat) : tokensFrom fuel [] = some [] := by
  unfold tokensFrom
  rfl

/-- A string is one token. -/
theorem tokens?_printText (text : String) :
    tokens? (printText text) = some [.string (some text)] := by
  have htoken := takeToken_printed text []
  unfold tokens? printText
  rw [List.cons_append, List.length_cons]
  unfold tokensFrom
  rw [List.dropWhile_cons_of_neg (by decide)]
  dsimp only
  rw [htoken]
  simp only [Option.bind_eq_bind, Option.bind_some, tokensFrom_nil]
  rfl

/-- **A document that is a string is read back.** -/
theorem Document.parse?_printText (text : String) :
    Document.parse? (printText text) = some (.string (some text)) := by
  unfold Document.parse?
  rw [tokens?_printText]
  rfl

end RemoteCall.Json
