import Switchboard.Text.Unseen

/-!
# Quoted Text

Texts as they stand in diagnostics: between double quotes, with everything
escaped that would end the text early, break the line or not be seen. Common
controls have a letter of their own; other characters that leave no mark of
their own are shown by number. Single quotes need no escape here.

## Main definitions

* `quote`: A text in quotes.
* `hexText`: Lower-case hexadecimal digits.
-/

namespace Switchboard

/-- The hexadecimal digits of a number. -/
def hexText (n : Nat) : String := String.ofList (Nat.toDigits 16 n)

/-- A character as it stands between quotes. -/
def quotedChar (c : Char) : String :=
  if c = '"' then "\\\""
  else if c = '\\' then "\\\\"
  else if c = '\n' then "\\n"
  else if c = '\t' then "\\t"
  else if c = '\r' then "\\r"
  else if c.toNat = 0 then "\\0"
  else if isUnseen c then "\\u\x7b" ++ hexText c.toNat ++ "\x7d"
  else String.singleton c

/-- A text in quotes. -/
def quote (s : String) : String := "\"" ++ String.join (s.toList.map quotedChar) ++ "\""

end Switchboard
