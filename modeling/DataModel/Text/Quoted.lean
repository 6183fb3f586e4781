import DataModel.Text.Combining
import DataModel.Text.Invisible

/-!
# Quoted text

Text inside a message stands between quotation marks, and what would be lost or misread there is
escaped: the quotation mark and the backslash, the usual blanks under their letters, and every other
character that cannot be seen, or not on its own, by its code in hexadecimal. All other characters
stand for themselves.
-/

namespace DataModel.Text

/-- The quoted form of one character. -/
def escape (c : Char) : List Char :=
  match c with
  | '"' => ['\\', '"']
  | '\\' => ['\\', '\\']
  | '\n' => ['\\', 'n']
  | '\r' => ['\\', 'r']
  | '\t' => ['\\', 't']
  | '\x00' => ['\\', '0']
  | c =>
    if isInvisible c || isCombining c then
      ['\\', 'u', '\x7b'] ++ Nat.toDigits 16 c.toNat ++ ['\x7d']
    else [c]

/-- The text between quotation marks. -/
def quote (s : String) : String :=
  "\"" ++ String.ofList (s.toList.flatMap escape) ++ "\""

end DataModel.Text
