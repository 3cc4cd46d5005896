/-
  RemoteCall.Proofs.Address.Socket
  ────────────────────────────────
  **SOCKET ADDRESSES ARE READ BACK FROM THEIR TEXT.**

  Behind the groups of an address stands a bracket or a percent sign, and no
  group follows there (`Ipv6.Ends`); behind a scope stands the bracket, and
  behind the port the end of the text.  A text that starts with a bracket is no
  address of four bytes, so the reader that is tried first does not take it.

      10.0.0.1:471     [::1]:80     [fe80::2%3]:80

  Main statements:
    • `SocketAddress.parse?_text` — every socket address is read back,
    • `SocketAddress.head?_text`, `SocketAddress.getLast?_text` — with what its
      text starts and ends.
-/
import RemoteCall.Address.Socket
import RemoteCall.Proofs.Address.Ip

namespace RemoteCall.SocketAddress

open Reads

variable {rest : List Char}

/-! ## §1. The text, character by character. -/

theorem toList_text_v4 (ip : Ipv4) (port : UInt16) :
    (v4 ip port).text.toList = ip.text.toList ++ ':' :: Nat.toDigits 10 port.toNat := by
  have htext : (v4 ip port).text = ip.text ++ ":" ++ port.toNat.repr := rfl
  rw [htext]
  simp [String.toList_append, Nat.toList_repr]

/-- A scope as it stands behind the groups of an address. -/
def scopeText (scope : UInt32) : List Char :=
  if scope = 0 then [] else '%' :: Nat.toDigits 10 scope.toNat

theorem toList_text_v6 (ip : Ipv6) (port : UInt16) (scope : UInt32) :
    (v6 ip port scope).text.toList
      = '[' :: (ip.text.toList
        ++ (scopeText scope ++ ']' :: ':' :: Nat.toDigits 10 port.toNat)) := by
  unfold scopeText
  by_cases hscope : scope = 0
  · have htext : (v6 ip port scope).text = "[" ++ ip.text ++ "]:" ++ port.toNat.repr := by
      rw [text, if_pos hscope]
      rfl
    rw [htext, if_pos hscope]
    simp [String.toList_append, Nat.toList_repr]
  · have htext : (v6 ip port scope).text
        = "[" ++ ip.text ++ "%" ++ scope.toNat.repr ++ "]:" ++ port.toNat.repr := by
      rw [text, if_neg hscope]
      rfl
    rw [htext, if_neg hscope]
    simp [String.toList_append, Nat.toList_repr]

/-! ## §2. Reading. -/

/-- A port is read back. -/
theorem readPort_toDigits (port : UInt16) :
    readPort (':' :: Nat.toDigits 10 port.toNat) = some (port, []) := by
  have hport : port.toNat < 65536 := port.toNat_lt
  have hdigits : digits 10 65535 (Nat.toDigits 10 port.toNat ++ [])
      = some ((Nat.toDigits 10 port.toNat, port.toNat), []) :=
    digits_toDigits (by decide) (by decide) (Nat.le_of_lt_succ hport) (stops_nil 10)
  rw [List.append_nil] at hdigits
  unfold readPort
  rw [given_self]
  simp only [Option.bind_eq_bind, Option.bind_some, hdigits]
  simp

/-- A scope is read back; none is written for zero, and zero is what is read then. -/
theorem readScope_scopeText (scope : UInt32) (rest : List Char) :
    readScope (scopeText scope ++ ']' :: rest) = some (scope, ']' :: rest) := by
  have hbound : scope.toNat < 4294967296 := scope.toNat_lt
  unfold readScope scopeText
  by_cases hscope : scope = 0
  · rw [if_pos hscope, hscope]
    rfl
  · rw [if_neg hscope, List.cons_append, given_self]
    dsimp only
    rw [digits_toDigits (by decide) (by decide) (by omega) (stops_cons (by decide) rest)]
    simp

/-- No group follows behind those of an address. -/
theorem ends_scopeText (scope : UInt32) (rest : List Char) :
    Ipv6.Ends (scopeText scope ++ ']' :: rest) := by
  unfold scopeText
  split
  · exact .of_ne (by decide) (by decide) (by decide) rest
  · exact .of_ne (by decide) (by decide) (by decide) _

theorem readV4_text (ip : Ipv4) (port : UInt16) :
    readV4 (v4 ip port).text.toList = some (v4 ip port, []) := by
  rw [toList_text_v4]
  unfold readV4
  rw [Ipv4.read_text ip (stops_cons (by decide) _)]
  simp only [Option.bind_eq_bind, Option.bind_some, readPort_toDigits]
  rfl

theorem readV6_text (ip : Ipv6) (port : UInt16) (scope : UInt32) :
    readV6 (v6 ip port scope).text.toList = some (v6 ip port scope, []) := by
  rw [toList_text_v6]
  unfold readV6
  rw [given_self]
  simp only [Option.bind_eq_bind, Option.bind_some, Ipv6.read_text ip (ends_scopeText scope _),
    readScope_scopeText, given_self, readPort_toDigits]
  rfl

/-- A text that starts with a bracket is no address of four bytes. -/
theorem readV4_bracket (rest : List Char) : readV4 ('[' :: rest) = none := by
  have hread : Ipv4.read ('[' :: rest) = none := Ipv4.read_of_stops (stops_cons (by decide) rest)
  unfold readV4
  rw [hread]
  rfl

/-- **Every socket address is read back from its text.** -/
theorem parse?_text (address : SocketAddress) : parse? address.text = some address := by
  unfold parse?
  cases address with
  | v4 ip port =>
    rw [readV4_text]
    rfl
  | v6 ip port scope =>
    have hfour : readV4 (v6 ip port scope).text.toList = none := by
      rw [toList_text_v6]
      exact readV4_bracket _
    rw [hfour, Option.orElse_none, readV6_text]

/-! ## §3. With what a text starts and ends. -/

/-- The text of an address starts with a digit or a bracket. -/
theorem head?_text (address : SocketAddress) :
    ∃ c, address.text.toList.head? = some c ∧ (isDigit 10 c = true ∨ c = '[') := by
  cases address with
  | v4 ip port =>
    obtain ⟨c, cs, hdigits⟩ := List.exists_cons_of_ne_nil
      (Nat.toDigits_ne_nil (b := 10) (n := ip.a.toNat))
    have hc : c ∈ Nat.toDigits 10 ip.a.toNat := by
      rw [hdigits]
      exact List.mem_cons_self
    refine ⟨c, ?_, .inl (isDigit_of_mem (by decide) (by decide) hc)⟩
    rw [toList_text_v4, Ipv4.toList_text, hdigits]
    rfl
  | v6 ip port scope =>
    refine ⟨'[', ?_, .inr rfl⟩
    rw [toList_text_v6]
    rfl

/-- It ends with the digits of its port. -/
theorem toList_text_port (address : SocketAddress) :
    ∃ front, address.text.toList = front ++ Nat.toDigits 10 address.port.toNat := by
  cases address with
  | v4 ip port =>
    refine ⟨ip.text.toList ++ [':'], ?_⟩
    rw [toList_text_v4, List.append_assoc]
    rfl
  | v6 ip port scope =>
    refine ⟨'[' :: (ip.text.toList ++ (scopeText scope ++ [']', ':'])), ?_⟩
    rw [toList_text_v6]
    simp only [List.cons_append, List.append_assoc, List.nil_append]
    rfl

/-- It ends with a digit. -/
theorem getLast?_text (address : SocketAddress) :
    ∃ c, address.text.toList.getLast? = some c ∧ isDigit 10 c = true := by
  obtain ⟨front, htext⟩ := address.toList_text_port
  have hlast := List.getLast?_eq_some_getLast
    (Nat.toDigits_ne_nil (b := 10) (n := address.port.toNat))
  generalize (Nat.toDigits 10 address.port.toNat).getLast _ = c at hlast
  refine ⟨c, ?_, isDigit_of_mem (by decide) (by decide) (List.mem_of_getLast? hlast)⟩
  rw [htext, List.getLast?_append, hlast]
  rfl

end RemoteCall.SocketAddress
