import Targeting.Value.Basic

/-!
# SQL literals

A value written into a query. Texts stand between single quotes with each quote inside written
twice, and so do dates and JSON; numbers and truth values stand as they are; a number that no
literal can hold is `NULL`; a list is its literals with commas in between.

* `quote`, `unquote?`: a text literal, and the text that a literal holds;
* `Value.literal`: the literal of a value.
-/

namespace Targeting

/-- A text with each single quote written twice. -/
def doubleQuotes : List Char → List Char
  | [] => []
  | c :: cs => if c = '\'' then '\'' :: '\'' :: doubleQuotes cs else c :: doubleQuotes cs

/-- A text literal. -/
def quote (s : String) : String := String.ofList ('\'' :: (doubleQuotes s.toList ++ ['\'']))

/-- A text in which single quotes come in pairs, with one for each pair. -/
def halveQuotes? : List Char → Option (List Char)
  | [] => some []
  | '\'' :: '\'' :: cs => (halveQuotes? cs).map ('\'' :: ·)
  | c :: cs => if c = '\'' then none else (halveQuotes? cs).map (c :: ·)

/-- What stands between the first and the last character if both are single quotes. -/
def betweenQuotes? : List Char → Option (List Char)
  | '\'' :: cs =>
    match cs.getLast? with
    | some '\'' => some cs.dropLast
    | _ => none
  | _ => none

/-- The text that a text literal holds. -/
def unquote? (s : String) : Option String :=
  ((betweenQuotes? s.toList).bind halveQuotes?).map String.ofList

namespace Value

mutual

/-- The literal of a value. -/
def literal : Value → String
  | null => "NULL"
  | bool b => if b then "TRUE" else "FALSE"
  | int n => toString n.toInt
  | float (.finite x) => Style.plain.writeFinite x
  | float _ => "NULL"
  | string s => quote s
  | date d => quote d.text
  | dateTime t => quote (dateTimeText t)
  | json v => quote v.compact
  | list items => String.intercalate ", " (literals items)

/-- The literals of values. -/
def literals : List Value → List String
  | [] => []
  | v :: rest => v.literal :: literals rest

end

/-- The literals of values with commas in between. -/
def listLiteral (items : List Value) : String := String.intercalate ", " (literals items)

end Value

end Targeting
