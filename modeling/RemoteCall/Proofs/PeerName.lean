/-
  RemoteCall.Proofs.PeerName
  ──────────────────────────
  **PEERS ARE READ BACK FROM THEIR TEXT.**

  Three rules for texts are tried in order, and a text may fall under several of
  them.  The text of a peer falls under the right one first:

    • a path is written with `unix:` in front.  That is the first rule, and it
      takes the mark off once, so a path that itself starts with `unix:`, that
      ends in `.sock` or that is empty comes back as it was;
    • an address starts with a digit or a bracket, so neither with `unix:` nor
      with a slash, and ends with a digit, so not in `.sock`.

  Main statements:
    • `parse_text`                 — the text,
    • `written_forms_read_back`    — the text and the JSON document.
-/
import RemoteCall.Json.Name
import RemoteCall.Proofs.Address.Socket
import RemoteCall.Proofs.Json.Strings

namespace RemoteCall.PeerName

open Reads

/-! ## §1. The three rules. -/

/-- The mark of a path is taken off once. -/
theorem unmarked?_pathMark (path : String) : unmarked? (pathMark ++ path) = some path := by
  have hlist : (pathMark ++ path).toList = pathMark.toList ++ path.toList := String.toList_append
  have hmarked : pathMark.toList.isPrefixOf (pathMark.toList ++ path.toList) = true :=
    List.isPrefixOf_iff_prefix.mpr (List.prefix_append _ _)
  unfold unmarked?
  rw [hlist, if_pos hmarked, List.drop_left, String.ofList_toList]

/-- A digit or a bracket starts no mark and no path. -/
theorem ne_of_starts {c : Char} (h : isDigit 10 c = true ∨ c = '[') : c ≠ 'u' ∧ c ≠ '/' := by
  rcases h with hdigit | rfl
  · constructor
    · rintro rfl
      exact absurd hdigit (by decide)
    · rintro rfl
      exact absurd hdigit (by decide)
  · decide

/-- The text of an address has no mark. -/
theorem unmarked?_address (address : SocketAddress) : unmarked? address.text = none := by
  obtain ⟨c, hhead, hstarts⟩ := address.head?_text
  have hunmarked : ¬ pathMark.toList.isPrefixOf address.text.toList = true := by
    intro hmarked
    obtain ⟨rest, hrest⟩ := List.isPrefixOf_iff_prefix.mp hmarked
    rw [← hrest] at hhead
    exact (ne_of_starts hstarts).1 (Option.some.inj hhead).symm
  unfold unmarked?
  rw [if_neg hunmarked]

/-- Nor does it look like a path. -/
theorem looksLikePath_address (address : SocketAddress) : looksLikePath address.text = false := by
  obtain ⟨c, hhead, hstarts⟩ := address.head?_text
  obtain ⟨d, hlast, hdigit⟩ := address.getLast?_text
  have hslash : (address.text.toList.head? == some '/') = false := by
    rw [hhead]
    simpa using (ne_of_starts hstarts).2
  have hsock : ".sock".toList.isSuffixOf address.text.toList = false := by
    apply Bool.eq_false_iff.mpr
    intro hsuffix
    obtain ⟨front, hfront⟩ := List.isSuffixOf_iff_suffix.mp hsuffix
    rw [← hfront, List.getLast?_append] at hlast
    rw [← Option.some.inj hlast] at hdigit
    exact absurd hdigit (by decide)
  unfold looksLikePath
  rw [hslash, hsock]
  rfl

/-- **Every peer is read back from its text.** -/
theorem parse_text (peer : PeerName) : parse peer.text = .ok peer := by
  unfold parse
  cases peer with
  | tcp address =>
    have htext : (tcp address).text = address.text := rfl
    rw [htext, unmarked?_address]
    dsimp only
    rw [looksLikePath_address, if_neg Bool.false_ne_true, address.parse?_text]
  | unix path =>
    have htext : (unix path).text = pathMark ++ path.text := rfl
    rw [htext, unmarked?_pathMark]

/-! ## §2. Documents. -/

/-- **Every peer is read back from its text and from its JSON document**: as the same peer, so of
the same kind and with the same text. -/
theorem written_forms_read_back (peer : PeerName) :
    parse peer.text = .ok peer ∧ parseJson? peer.toJson.print = some peer := by
  refine ⟨peer.parse_text, ?_⟩
  have hdocument := Json.Document.parse?_printText peer.text
  unfold parseJson? toJson Json.Value.print
  rw [hdocument]
  show (parse peer.text).toOption = some peer
  rw [peer.parse_text]
  rfl

/-- What was written otherwise is written canonically from then on. -/
example : (SocketAddress.parse? "[0:0:1::00a0%7]:0080").map SocketAddress.text
    = some "[0:0:1::a0%7]:80" := by
  decide

end RemoteCall.PeerName
