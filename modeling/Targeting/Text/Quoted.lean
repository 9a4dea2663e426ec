import Targeting.Text.Shown

/-!
# Quoted text in messages

A message quotes a text between double quotes. Quotes and backslashes inside get a backslash, the
usual controls their short form, and every other character that is not shown its number.

* `quoteChar`: the form of one character;
* `quoted`: the form of a text.
-/

namespace Targeting.Text

/-- A character inside a quoted text. -/
def quoteChar (c : Char) : List Char :=
  if c = '\x00' then ['\\', '0']
  else if c = '\t' then ['\\', 't']
  else if c = '\r' then ['\\', 'r']
  else if c = '\n' then ['\\', 'n']
  else if c = '"' || c = '\\' then ['\\', c]
  else if isShown c then [c]
  else '\\' :: 'u' :: '\x7b' :: Nat.toDigits 16 c.toNat ++ ['\x7d']

/-- A text between double quotes, as messages show it. -/
def quoted (s : String) : String := String.ofList ('"' :: s.toList.flatMap quoteChar ++ ['"'])

end Targeting.Text
