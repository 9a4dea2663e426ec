import Targeting.Toml.Scalar
import Targeting.Toml.Table

/-!
# TOML documents

A document is a table written line by line: headers, and pairs of a key and a value. Arrays may run
over several lines, with comments in between; tables within a line may not. Arrays and tables within
each other are read to a certain depth.

* `takeValue`: the value at the front of a text;
* `Line`, `takeLine`: a line of a document;
* `parse?`: a document as JSON.
-/

namespace Targeting.Toml

/-- The deepest nesting of arrays and inline tables, and the largest number of parts of a key. -/
def deepest : Nat := 79

/-! ## Keys -/

/-- A character of a key without quotes. -/
def isKeyChar (c : Char) : Bool := c.isAlphanum || c = '_' || c = '-'

/-- One part of a key. -/
def takePart (cs : List Char) : Option (String × List Char) :=
  match cs with
  | '"' :: rest => (takeQuoted rest).map fun (s, rest) => (String.ofList s, rest)
  | '\'' :: rest => (takeLiteral rest).map fun (s, rest) => (String.ofList s, rest)
  | _ =>
    let name := cs.takeWhile isKeyChar
    if name = [] then none else some (String.ofList name, cs.dropWhile isKeyChar)

/-- The parts of a key, of which there are at most `fuel`. -/
def takeParts : Nat → List Char → Option (List String × List Char)
  | 0, _ => none
  | fuel + 1, cs => do
    let (part, rest) ← takePart (skipBlank cs)
    match skipBlank rest with
    | '.' :: rest =>
      let (parts, rest) ← takeParts fuel rest
      return (part :: parts, rest)
    | rest => return ([part], rest)

/-- The path of a key and its last part. -/
def takeKey (cs : List Char) : Option ((List String × String) × List Char) := do
  let (parts, rest) ← takeParts deepest cs
  return ((parts.dropLast, ← parts.getLast?), rest)

/-! ## Values -/

/-- A reader of values. -/
abbrev Take : Type := List Char → Option (Json × List Char)

/-- A pair of a key and a value. -/
structure Pair where
  path : List String
  key : String
  value : Json

/-- A pair. -/
def takePair (take : Take) (cs : List Char) : Option (Pair × List Char) := do
  let ((path, key), rest) ← takeKey cs
  let (value, rest) ← take (skipBlank (← takeMark '=' rest))
  return ({ path, key, value }, rest)

/-- The items of an array, of which there are at most `fuel`. -/
def takeItems (take : Take) : Nat → List Char → Option (List Json × List Char)
  | 0, _ => none
  | fuel + 1, cs =>
    match skipLines false cs with
    | ']' :: rest => some ([], rest)
    | cs => do
      let (value, rest) ← take cs
      match skipLines false rest with
      | ',' :: rest =>
        let (values, rest) ← takeItems take fuel rest
        return (value :: values, rest)
      | ']' :: rest => return ([value], rest)
      | _ => none

/-- The pairs of an inline table, of which there are at most `fuel`. -/
def takePairs (take : Take) : Nat → List Char → Option (List Pair × List Char)
  | 0, _ => none
  | fuel + 1, cs => do
    let (pair, rest) ← takePair take cs
    match skipBlank rest with
    | ',' :: rest =>
      let (pairs, rest) ← takePairs take fuel rest
      return (pair :: pairs, rest)
    | '\x7d' :: rest => return ([pair], rest)
    | _ => none

/-- The table of some pairs. -/
def tableOf? (pairs : List Pair) : Option Json :=
  (pairs.foldlM (fun es p => Entries.addPair p.path p.key p.value .declared es) []).map
    Entries.toJson

/-- An array after its opening bracket. -/
def takeArray (take : Take) (cs : List Char) : Option (Json × List Char) :=
  (takeItems take (cs.length + 1) cs).map fun (values, rest) => (.array values, rest)

/-- An inline table after its opening brace. -/
def takeInline (take : Take) (cs : List Char) : Option (Json × List Char) :=
  match skipBlank cs with
  | '\x7d' :: rest => some (.object [], rest)
  | _ => do
    let (pairs, rest) ← takePairs take (cs.length + 1) cs
    return (← tableOf? pairs, rest)

/-- The value at the front of a text, nested at most `room` deep. -/
def takeValue : Nat → Take
  | room + 1, '[' :: cs => takeArray (takeValue room) cs
  | room + 1, '\x7b' :: cs => takeInline (takeValue room) cs
  | _, cs => takeScalar cs

/-! ## Lines -/

/-- A line of a document. -/
inductive Line
  | empty
  | pair (p : Pair)
  | header (path : List String) (key : String)
  | element (path : List String) (key : String)

/-- What a line holds before its end. -/
def takeContent (cs : List Char) : Option (Line × List Char) :=
  match cs with
  | [] => some (.empty, [])
  | '#' :: _ => some (.empty, cs)
  | '\n' :: _ => some (.empty, cs)
  | '\r' :: _ => some (.empty, cs)
  | '[' :: '[' :: rest => do
    let ((path, key), rest) ← takeKey rest
    let rest ← takeMark ']' (← takeMark ']' rest)
    return (.element path key, rest)
  | '[' :: rest => do
    let ((path, key), rest) ← takeKey rest
    return (.header path key, ← takeMark ']' rest)
  | _ => (takePair (takeValue deepest) cs).map fun (p, rest) => (.pair p, rest)

/-- The line at the front of a text. -/
def takeLine (cs : List Char) : Option (Line × List Char) := do
  let (line, rest) ← takeContent (skipBlank cs)
  return (line, ← takeLineEnd rest)

/-- The lines of a text, of which there are at most `fuel`. -/
def linesOf? : Nat → List Char → Option (List Line)
  | _, [] => some []
  | 0, _ => none
  | fuel + 1, cs => do
    let (line, rest) ← takeLine cs
    return line :: (← linesOf? fuel rest)

/-! ## Documents -/

/-- The table read so far and the path of the table that pairs go into. -/
structure State where
  root : Entries := []
  path : List String := []

/-- Reads one line. -/
def State.next (s : State) : Line → Option State
  | .empty => some s
  | .pair p => do
    let root ← Entries.within false (Entries.addPair p.path p.key p.value) s.path .declared s.root
    return { s with root }
  | .header path key => do
    return { root := ← s.root.declare path key, path := path ++ [key] }
  | .element path key => do
    return { root := ← s.root.declareElement path key, path := path ++ [key] }

/-- A text without a byte order mark in front. -/
def skipMark : List Char → List Char
  | '\ufeff' :: cs => cs
  | cs => cs

/-- The document of a text as JSON. -/
def parse? (s : String) : Option Json := do
  let cs := skipMark s.toList
  let lines ← linesOf? (cs.length + 1) cs
  let final ← lines.foldlM State.next {}
  return final.root.toJson

end Targeting.Toml
