import Targeting.Json.Basic

/-!
# Tables of TOML

A table grows while a document is read: by pairs whose keys may lead through further tables, and by
headers that declare a table or one more table of an array. Nothing may be defined twice: a pair may
only go into the table under the last header and into tables that exist only through dotted keys,
and a table is declared once.

* `Item`, `Entries`, `Standing`: what a table holds, and how a table came about;
* `Entries.addPair`, `Entries.declare`, `Entries.declareElement`: the three steps;
* `Entries.toJson`: the finished table.
-/

namespace Targeting.Toml

/-- How a table came about: through a longer header, through a dotted key, or by its own header. -/
inductive Standing
  | implied
  | dotted
  | declared
  deriving DecidableEq

/-- What stands under a key: a value, a table, or an array of tables of which the last is open. -/
inductive Item
  | value (v : Json)
  | table (standing : Standing) (entries : List (String × Item))
  | tables (earlier : List (List (String × Item))) (last : List (String × Item))

/-- What a table holds. -/
abbrev Entries : Type := List (String × Item)

namespace Entries

/-- Puts an item under a key, in place of the one that is there. -/
def put (key : String) (item : Item) (es : Entries) : Entries :=
  (es.filter fun e => e.1 ≠ key) ++ [(key, item)]

/-- Changes the table that a path leads to, made anew where it is missing; through an array of tables the
path leads to the last of them. Dotted keys do not lead into tables that were declared. -/
def within (dotted : Bool) (change : Standing → Entries → Option Entries) :
    List String → Standing → Entries → Option Entries
  | [], standing, es => change standing es
  | key :: path, _, es =>
    match es.lookup key with
    | none =>
      let standing := if dotted then Standing.dotted else .implied
      (within dotted change path standing []).map fun inner => es.put key (.table standing inner)
    | some (.value _) => none
    | some (.tables earlier last) =>
      (within dotted change path .declared last).map fun last => es.put key (.tables earlier last)
    | some (.table standing inner) =>
      if dotted && standing = .declared then none
      else (within dotted change path standing inner).map fun inner =>
        es.put key (.table standing inner)

/-- Adds a pair to a table; a dotted key leads from it into tables made by dotted keys. -/
def addPair (path : List String) (key : String) (v : Json) (standing : Standing) (es : Entries) :
    Option Entries :=
  within true (fun standing es =>
    if (standing = .dotted) = path.isEmpty ∨ (es.lookup key).isSome then none
    else some (es.put key (.value v))) path standing es

/-- Declares a table. -/
def declare (path : List String) (key : String) (es : Entries) : Option Entries :=
  within false (fun _ es =>
    match es.lookup key with
    | none => some (es.put key (.table .declared []))
    | some (.table .implied inner) => some (es.put key (.table .declared inner))
    | _ => none) path .declared es

/-- Declares one more table of an array. -/
def declareElement (path : List String) (key : String) (es : Entries) : Option Entries :=
  within false (fun _ es =>
    match es.lookup key with
    | none => some (es.put key (.tables [] []))
    | some (.tables earlier last) => some (es.put key (.tables (earlier ++ [last]) []))
    | _ => none) path .declared es

end Entries

mutual

/-- An item as JSON. -/
def Item.toJson : Item → Json
  | .value v => v
  | .table _ es => .sorted (Entries.toMembers es)
  | .tables earlier last => .array (Entries.toItems earlier ++ [.sorted (Entries.toMembers last)])

/-- Entries as the members of an object. -/
def Entries.toMembers : List (String × Item) → List (String × Json)
  | [] => []
  | (key, item) :: rest => (key, item.toJson) :: Entries.toMembers rest

/-- Tables as the items of an array. -/
def Entries.toItems : List (List (String × Item)) → List Json
  | [] => []
  | es :: rest => .sorted (Entries.toMembers es) :: Entries.toItems rest

end

/-- A table as JSON. -/
def Entries.toJson (es : Entries) : Json := .sorted (Entries.toMembers es)

end Targeting.Toml
