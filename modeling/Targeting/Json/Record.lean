import Targeting.Json.Fault

/-!
# Reading records

A record is read from an object by the names of its members, or from an array by their positions. The
members of an object are read in its order and the first problem counts; unknown members are skipped;
a member may not occur twice; members that may be absent keep the value they have in the blank
record. An array may end early only where the remaining members may be absent.

A document comes from a text as it stands or from a value already read. The two differ where a form
fits no record or choice at all: in a text that is malformed, in a value it has a reason of its own.

* `Read`, `Read.string`, `Read.list`, …: readers of the plain kinds;
* `Read.choice`: one of several names;
* `Member`, `Record`, `Record.read`.
-/

namespace Targeting

/-- Where a document comes from. -/
inductive Origin
  | text
  | value
  deriving DecidableEq

/-- A reader of data from a document. -/
abbrev Read (α : Type) : Type := Document → Except Fault α

namespace Read

/-- A text. -/
def string : Read String
  | .string s => .ok s
  | d => .error (d.mismatch "a string")

/-- A truth value. -/
def bool : Read Bool
  | .bool b => .ok b
  | d => .error (d.mismatch "a boolean")

/-- A natural number of 64 bits, called by the given name. -/
def uint64 (kind : String) : Read UInt64
  | .number (.integer n) =>
    if n.val < 0 then .error (.outOfRange n.val kind) else .ok (UInt64.ofNat n.val.toNat)
  | d => .error (d.mismatch kind)

/-- A signed integer of 64 bits. -/
def int64 : Read Int64
  | .number (.integer n) =>
    if FitsInt64 n.val then .ok (Int64.ofInt n.val) else .error (.outOfRange n.val "i64")
  | d => .error (d.mismatch "i64")

/-- A value that `null` leaves out. -/
def optional {α : Type} (read : Read α) : Read (Option α)
  | .null => .ok none
  | d => (read d).map some

/-- A list of values, of which the first problem counts. -/
def list {α : Type} (read : Read α) : Read (List α)
  | .array items => items.mapM read
  | d => .error (d.mismatch "a sequence")

/-- The value of a name among several. -/
def variant {α : Type} (variants : List (String × α)) (name : String) : Except Fault α :=
  match variants.lookup name with
  | some a => .ok a
  | none => .error (.unknownVariant name (variants.map Prod.fst))

/-- One of several names, as a string or as the only key of an object whose value is `null`. -/
def choice {α : Type} (origin : Origin) (variants : List (String × α)) : Read α
  | .string s => variant variants s
  | .object [(some key, d)] => do
    let a ← variant variants key
    match d with
    | .null => return a
    | d => throw (d.mismatch "unit")
  | .object ((some key, d) :: _ :: _) =>
    match origin with
    | .value => .error .notOneKey
    | .text => do
      discard (variant variants key)
      match d with
      | .null => throw .malformed
      | d => throw (d.mismatch "unit")
  | d =>
    match origin, d with
    | .value, .object _ => .error .notOneKey
    | .value, d => .error (d.mismatch "string or map")
    | .text, _ => .error .malformed

end Read

/-- A member of a record: its names, whether it may be absent, and how its value is stored. -/
structure Member (σ : Type) where
  name : String
  otherNames : List String
  optional : Bool
  store : Document → σ → Except Fault σ

namespace Member

variable {σ α : Type}

/-- A member that must be present. -/
def required (name : String) (read : Read α) (set : α → σ → σ) : Member σ :=
  { name, otherNames := [], optional := false, store := fun d s => (read d).map (set · s) }

/-- A member that may be absent. -/
def defaulted (name : String) (read : Read α) (set : α → σ → σ) : Member σ :=
  { required name read set with optional := true }

/-- The same member under one more name. -/
def orNamed (other : String) (m : Member σ) : Member σ :=
  { m with otherNames := other :: m.otherNames }

end Member

/-- How a record is read: what it is called, its value before any member is read, its members. -/
structure Record (σ : Type) where
  title : String
  blank : σ
  members : List (Member σ)

namespace Record

variable {σ : Type} (r : Record σ)

/-- What messages call the record as a whole. -/
def kind : String := "struct " ++ r.title

/-- What messages call the record when it is written as an array. -/
def kindOfLength : String :=
  let n := r.members.length
  r.kind ++ " with " ++ toString n ++ (if n = 1 then " element" else " elements")

/-- The member with a name. -/
def member? (key : String) : Option (Member σ) :=
  r.members.find? fun m => m.name = key || m.otherNames.contains key

/-- Reads one member of an object; `seen` are the names of those read before. -/
def readMember (state : σ × List String) : Option String × Document → Except Fault (σ × List String)
  | (none, _) => .error .malformed
  | (some key, d) =>
    match r.member? key with
    | none => if d.intact then .ok state else .error .malformed
    | some m =>
      if state.2.contains m.name then .error (.duplicateField m.name)
      else (m.store d state.1).map fun s => (s, m.name :: state.2)

/-- Reads the members of an object. -/
def readObject (members : List (Option String × Document)) : Except Fault σ := do
  let (s, seen) ← members.foldlM r.readMember (r.blank, [])
  match r.members.find? fun m => !m.optional && !seen.contains m.name with
  | some m => throw (.missingField m.name)
  | none => return s

/-- Reads the items of an array for the members from position `i` on. -/
def readItems (origin : Origin) (i : Nat) : List (Member σ) → List Document → σ → Except Fault σ
  | [], [], s => .ok s
  | [], items, _ =>
    match origin with
    | .text => .error .malformed
    | .value => .error (.invalidLength (i + items.length) "fewer elements in array")
  | m :: ms, [], s =>
    if m.optional then readItems origin (i + 1) ms [] s
    else .error (.invalidLength i r.kindOfLength)
  | m :: ms, d :: ds, s => do
    let s ← m.store d s
    readItems origin (i + 1) ms ds s

/-- Reads a record. -/
def read (origin : Origin) : Read σ
  | .object members => r.readObject members
  | .array items => r.readItems origin 0 r.members items r.blank
  | d => .error (d.mismatch r.kind)

end Record

/-- Reads data from a text of which nothing but white space may follow. -/
def Read.ofText {α : Type} (read : Read α) (s : String) : Except Fault α := do
  let text := Document.ofText s
  let a ← read text.root
  if text.ends then return a else throw .malformed

/-- Reads data from a value. -/
def Read.ofJson {α : Type} (read : Read α) (v : Json) : Except Fault α := read (Document.ofJson v)

end Targeting
