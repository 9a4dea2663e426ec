import Targeting.Text.Numeral

/-!
# Blanks and strings of TOML

White space is blanks and tabs; a line ends with a line feed, which a carriage return may precede;
a comment runs from `#` to the end of its line. Strings stand between quotes, in which escapes count,
or between apostrophes, in which they do not; three of either mark begin a string over several
lines, which may hold up to two of its own marks in a row, also at its end.

* `skipBlank`, `takeLineEnd`, `skipLines`: what lies between values and lines;
* `takeString`: the string at the front of a text.
-/

namespace Targeting.Toml

/-- A blank or a tab. -/
def isBlank (c : Char) : Bool := c = ' ' || c = '\t'

/-- A character that may stand in a comment or a string: a tab, or no control character. -/
def isPlain (c : Char) : Bool := c = '\t' || (0x20 ≤ c.toNat && c.toNat ≠ 0x7F)

/-- A text without white space in front. -/
def skipBlank (cs : List Char) : List Char := cs.dropWhile isBlank

/-- A text without a comment in front. -/
def skipComment : List Char → List Char
  | '#' :: cs => cs.dropWhile isPlain
  | cs => cs

/-- What follows the end of a line, before which there may be white space and a comment. -/
def takeLineEnd (cs : List Char) : Option (List Char) :=
  match skipComment (skipBlank cs) with
  | [] => some []
  | '\n' :: rest => some rest
  | '\r' :: '\n' :: rest => some rest
  | _ => none

/-- A text without white space, line ends and comments in front. -/
def skipLines (comment : Bool) : List Char → List Char
  | [] => []
  | '\n' :: cs => skipLines false cs
  | '\r' :: '\n' :: cs => skipLines false cs
  | c :: cs =>
    if comment then if isPlain c then skipLines true cs else c :: cs
    else if isBlank c then skipLines false cs
    else if c = '#' then skipLines true cs
    else c :: cs

/-! ## Escapes -/

/-- The value of a hexadecimal digit. -/
def hexDigit? (c : Char) : Option Nat :=
  if c.isDigit then some (c.toNat - 48)
  else if 'a' ≤ c ∧ c ≤ 'f' then some (c.toNat - 87)
  else if 'A' ≤ c ∧ c ≤ 'F' then some (c.toNat - 55)
  else none

/-- The character with the number that hexadecimal digits give, if there is one. -/
def hexChar? (ds : List Char) : Option Char := do
  let n ← ds.foldlM (fun n d => (hexDigit? d).map (16 * n + ·)) 0
  if n.isValidChar then some (Char.ofNat n) else none

/-- The character that a short escape stands for. -/
def shortEscape? (c : Char) : Option Char :=
  match c with
  | '"' => some '"'
  | '\\' => some '\\'
  | 'b' => some '\x08'
  | 'f' => some '\x0c'
  | 'n' => some '\n'
  | 'r' => some '\r'
  | 't' => some '\t'
  | _ => none

/-! ## Strings -/

/-- A character in front of further ones. -/
def prepend (c? : Option Char) (r : Option (List Char × List Char)) : Option (List Char × List Char) := do
  let c ← c?
  let (cs, rest) ← r
  return (c :: cs, rest)

/-- The characters up to a closing quote. -/
def takeQuoted : List Char → Option (List Char × List Char)
  | [] => none
  | '"' :: cs => some ([], cs)
  | '\\' :: 'u' :: a :: b :: c :: d :: cs => prepend (hexChar? [a, b, c, d]) (takeQuoted cs)
  | '\\' :: 'U' :: a :: b :: c :: d :: e :: f :: g :: h :: cs =>
    prepend (hexChar? [a, b, c, d, e, f, g, h]) (takeQuoted cs)
  | '\\' :: e :: cs => prepend (shortEscape? e) (takeQuoted cs)
  | c :: cs => if isPlain c && c ≠ '\\' then prepend (some c) (takeQuoted cs) else none

/-- The characters up to a closing apostrophe. -/
def takeLiteral : List Char → Option (List Char × List Char)
  | [] => none
  | '\'' :: cs => some ([], cs)
  | c :: cs => if isPlain c then prepend (some c) (takeLiteral cs) else none

/-- The marks that belong to a string although they follow its three closing ones. -/
def takeMarks (mark : Char) : List Char → List Char × List Char
  | a :: b :: cs =>
    if a = mark && b = mark then ([a, b], cs) else if a = mark then ([a], b :: cs) else ([], a :: b :: cs)
  | [a] => if a = mark then ([a], []) else ([], [a])
  | [] => ([], [])

/-- A line end follows white space. -/
def endsLine (cs : List Char) : Bool :=
  match skipBlank cs with
  | '\n' :: _ => true
  | '\r' :: '\n' :: _ => true
  | _ => false

/-- The characters up to three closing quotes. After a backslash at the end of a line all white space
and line ends are trimmed. -/
def takeQuotedLines (trimming : Bool) : List Char → Option (List Char × List Char)
  | [] => none
  | '\n' :: cs =>
    if trimming then takeQuotedLines true cs else prepend (some '\n') (takeQuotedLines false cs)
  | '\r' :: '\n' :: cs =>
    if trimming then takeQuotedLines true cs else prepend (some '\n') (takeQuotedLines false cs)
  | '"' :: '"' :: '"' :: cs => some (takeMarks '"' cs)
  | '\\' :: 'u' :: a :: b :: c :: d :: cs =>
    prepend (hexChar? [a, b, c, d]) (takeQuotedLines false cs)
  | '\\' :: 'U' :: a :: b :: c :: d :: e :: f :: g :: h :: cs =>
    prepend (hexChar? [a, b, c, d, e, f, g, h]) (takeQuotedLines false cs)
  | '\\' :: e :: cs =>
    if endsLine (e :: cs) then takeQuotedLines true (e :: cs)
    else prepend (shortEscape? e) (takeQuotedLines false cs)
  | c :: cs =>
    if trimming && isBlank c then takeQuotedLines true cs
    else if isPlain c && c ≠ '\\' then prepend (some c) (takeQuotedLines false cs)
    else none

/-- The characters up to three closing apostrophes. -/
def takeLiteralLines : List Char → Option (List Char × List Char)
  | [] => none
  | '\n' :: cs => prepend (some '\n') (takeLiteralLines cs)
  | '\r' :: '\n' :: cs => prepend (some '\n') (takeLiteralLines cs)
  | '\'' :: '\'' :: '\'' :: cs => some (takeMarks '\'' cs)
  | c :: cs => if isPlain c then prepend (some c) (takeLiteralLines cs) else none

/-- A text without a line end in front. -/
def skipNewline : List Char → List Char
  | '\n' :: cs => cs
  | '\r' :: '\n' :: cs => cs
  | cs => cs

/-- The characters of the string at the front of a text. -/
def takeStringChars : List Char → Option (List Char × List Char)
  | '"' :: '"' :: '"' :: cs => takeQuotedLines false (skipNewline cs)
  | '"' :: cs => takeQuoted cs
  | '\'' :: '\'' :: '\'' :: cs => takeLiteralLines (skipNewline cs)
  | '\'' :: cs => takeLiteral cs
  | _ => none

/-- The string at the front of a text. -/
def takeString (cs : List Char) : Option (String × List Char) :=
  (takeStringChars cs).map fun (s, rest) => (String.ofList s, rest)

end Targeting.Toml
