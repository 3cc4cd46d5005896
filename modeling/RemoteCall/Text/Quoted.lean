/-
  RemoteCall.Text.Quoted
  ──────────────────────
  **CHARACTERS AND TEXTS AS A MESSAGE QUOTES THEM.**

  A character stands between apostrophes, a text between quotation marks.
  Inside, a backslash and the mark of the enclosing kind are escaped, five
  control characters have escapes of one letter, and whatever would not be
  seen, or would join what stands before it, is given by its code.
-/
import RemoteCall.Bytes
import RemoteCall.Text.Printable
import RemoteCall.Text.Combining

namespace RemoteCall

/-- A character inside a quotation that is closed by `mark`. -/
def Quoted.escape (mark c : Char) : String :=
  if c = '\x00' then "\\0"
  else if c = '\t' then "\\t"
  else if c = '\r' then "\\r"
  else if c = '\n' then "\\n"
  else if c = '\\' || c = mark then String.ofList ['\\', c]
  else if isCombining c || !isPrintable c then
    "\\u\x7b" ++ Hex.natural c.toNat ++ "\x7d"
  else String.singleton c

/-- A character between apostrophes. -/
def Quoted.char (c : Char) : String :=
  "'" ++ Quoted.escape '\'' c ++ "'"

/-- A text between quotation marks. -/
def Quoted.text (s : String) : String :=
  "\"" ++ String.join (s.toList.map (Quoted.escape '"')) ++ "\""

end RemoteCall
