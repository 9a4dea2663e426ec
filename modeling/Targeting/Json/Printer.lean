import Targeting.Json.Basic
import Targeting.Decimal.Style

/-!
# JSON texts

A JSON value is written compactly, or over several lines with two spaces for each level. Only quotes,
backslashes and control characters are escaped.

* `Json.chars`, `Json.compact`: the compact text;
* `Json.pretty`: the text over several lines.
-/

namespace Targeting

namespace Json

/-- A control character by its number, with four hexadecimal digits. -/
def escapeByNumber (c : Char) : List Char :=
  let ds := Nat.toDigits 16 c.toNat
  '\\' :: 'u' :: (List.replicate (4 - ds.length) '0' ++ ds)

/-- A character inside a JSON string. -/
def escapeChar (c : Char) : List Char :=
  if c = '"' then ['\\', '"']
  else if c = '\\' then ['\\', '\\']
  else if c = '\x08' then ['\\', 'b']
  else if c = '\t' then ['\\', 't']
  else if c = '\n' then ['\\', 'n']
  else if c = '\x0c' then ['\\', 'f']
  else if c = '\r' then ['\\', 'r']
  else if c.toNat < 0x20 then escapeByNumber c
  else [c]

/-- A JSON string. -/
def stringChars (s : String) : List Char := '"' :: (s.toList.flatMap escapeChar ++ ['"'])

/-- A JSON number. -/
def Number.chars : Number → List Char
  | .integer n => (toString n.val).toList
  | .float x => (Style.json.writeFinite x).toList

mutual

/-- The compact text of a value. -/
def chars : Json → List Char
  | .null => "null".toList
  | .bool b => if b then "true".toList else "false".toList
  | .number n => n.chars
  | .string s => stringChars s
  | .array items => '[' :: (itemChars items ++ [']'])
  | .object members => '\x7b' :: (memberChars members ++ ['\x7d'])

/-- Items with commas between them. -/
def itemChars : List Json → List Char
  | [] => []
  | [v] => v.chars
  | v :: w :: rest => v.chars ++ ',' :: itemChars (w :: rest)

/-- Members with commas between them. -/
def memberChars : List (String × Json) → List Char
  | [] => []
  | [(k, v)] => stringChars k ++ ':' :: v.chars
  | (k, v) :: m :: rest => stringChars k ++ ':' :: (v.chars ++ ',' :: memberChars (m :: rest))

end

/-- The compact text of a value. -/
def compact (v : Json) : String := String.ofList v.chars

/-- A new line at a level. -/
def newLine (level : Nat) : List Char := '\n' :: List.replicate (2 * level) ' '

mutual

/-- The text of a value over several lines, from a level on. -/
def prettyChars (level : Nat) : Json → List Char
  | .array (v :: rest) => '[' :: (prettyItems (level + 1) (v :: rest) ++ newLine level ++ [']'])
  | .object (m :: rest) =>
    '\x7b' :: (prettyMembers (level + 1) (m :: rest) ++ newLine level ++ ['\x7d'])
  | v => v.chars

/-- Items on lines of their own. -/
def prettyItems (level : Nat) : List Json → List Char
  | [] => []
  | [v] => newLine level ++ prettyChars level v
  | v :: w :: rest => newLine level ++ prettyChars level v ++ ',' :: prettyItems level (w :: rest)

/-- Members on lines of their own. -/
def prettyMembers (level : Nat) : List (String × Json) → List Char
  | [] => []
  | [(k, v)] => newLine level ++ stringChars k ++ ':' :: ' ' :: prettyChars level v
  | (k, v) :: m :: rest =>
    newLine level ++ stringChars k ++ ':' :: ' ' :: (prettyChars level v ++
      ',' :: prettyMembers level (m :: rest))

end

/-- The text of a value over several lines. -/
def pretty (v : Json) : String := String.ofList (prettyChars 0 v)

end Json

end Targeting
