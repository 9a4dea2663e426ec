import Targeting.Audience.Format
import Targeting.Proofs.Codecs

/-!
# Stored audiences

An audience is read back from its text, whatever its names and texts contain and whichever of its optional
members are there.

* `Field.codec`, `CatalogObject.codec`, `Placement.codec`, `Relationship.codec`, `Audience.codec`: the
  records of an audience, each with its entries;
* **`Audience.stored`**: an audience read back from its text.
-/

namespace Targeting

namespace Field

/-- The entries of a field. -/
def entries : List (Entry (Field.record .text).blank) :=
  [.ofCodec "name" .string name (fun x f => { f with name := x }) fun _ _ => rfl,
    .ifAny "column" .string nofun column (fun x f => { f with column := x }) (fun _ _ => rfl) rfl,
    (Entry.ofCodec "dataType" (.choice DataType.byName DataType.name fun t => by cases t <;> rfl) dataType
      (fun x f => { f with dataType := x }) fun _ _ => rfl).orAbsent,
    .ifAny "category" .string nofun category (fun x f => { f with category := x }) (fun _ _ => rfl) rfl,
    (Entry.ofCodec "isFilterable" .bool filterable (fun x f => { f with filterable := x })
      fun _ _ => rfl).orAbsent,
    (Entry.ofCodec "isDisplayable" .bool displayable (fun x f => { f with displayable := x })
      fun _ _ => rfl).orAbsent,
    (Entry.ofCodec "allowedOperators" (.list .string) allowedOperators
      (fun x f => { f with allowedOperators := x }) fun _ _ => rfl).orAbsent,
    (Entry.ofCodec "hasDistinctValues" .bool listsDistinct (fun x f => { f with listsDistinct := x })
      fun _ _ => rfl).orAbsent]

theorem made : (Field.record .text).plain.Made (entries.map Entry.part) :=
  Record.made_of_values rfl (by decide)
    (fun (name, column, dataType, category, filterable, displayable, allowed, lists, _) =>
      ⟨name, column, dataType, category, filterable, displayable, allowed, lists⟩)
    (fun _ => rfl) fun _ _ => rfl

theorem toJson_eq (f : Field) : f.toJson = .object (Entry.members entries f) := by
  obtain ⟨name, column, dataType, category, _, _, _, _⟩ := f
  cases column <;> cases category <;> rfl

/-- Fields are read back. -/
def codec : Codec Field := .ofEntries made (by decide) toJson toJson_eq

end Field

namespace CatalogObject

/-- The entries of an object. -/
def entries : List (Entry (CatalogObject.record .text).blank) :=
  [.ifAny "name" .string nofun name? (fun x o => { o with name? := x }) (fun _ _ => rfl) rfl,
    .ifAny "displayName" .string nofun displayName? (fun x o => { o with displayName? := x })
      (fun _ _ => rfl) rfl,
    .ofCodec "table" .string table (fun x o => { o with table := x }) fun _ _ => rfl,
    (Entry.ofCodec "primaryKey" .string primaryKey (fun x o => { o with primaryKey := x })
      fun _ _ => rfl).orAbsent,
    (Entry.ofCodec "fields" (.list Field.codec) fields (fun x o => { o with fields := x })
      fun _ _ => rfl).orAbsent]

theorem made : (CatalogObject.record .text).plain.Made (entries.map Entry.part) :=
  Record.made_of_values rfl (by decide)
    (fun (name?, displayName?, table, primaryKey, fields, _) =>
      ⟨name?, displayName?, table, primaryKey, fields⟩)
    (fun _ => rfl) fun _ _ => rfl

theorem toJson_eq (o : CatalogObject) : o.toJson = .object (Entry.members entries o) := by
  obtain ⟨name, displayName, _, _, _⟩ := o
  cases name <;> cases displayName <;> rfl

/-- Objects are read back; they are written under main names only. -/
def codec : Codec CatalogObject := .ofEntries made (by decide) toJson toJson_eq

end CatalogObject

namespace Placement

/-- The entries of a placed object. -/
def entries : List (Entry (Placement.record .text).blank) :=
  [.ofCodec "object" CatalogObject.codec object (fun x p => { p with object := x }) fun _ _ => rfl,
    .ofCodec "alias" .string label (fun x p => { p with label := x }) fun _ _ => rfl,
    .ifAny "role" (.choice Role.byName Role.name fun r => by cases r <;> rfl) nofun role
      (fun x p => { p with role := x }) (fun _ _ => rfl) rfl]

theorem made : (Placement.record .text).plain.Made (entries.map Entry.part) :=
  Record.made_of_values rfl (by decide) (fun (object, label, role, _) => ⟨object, label, role⟩)
    (fun _ => rfl) fun _ _ => rfl

theorem toJson_eq (p : Placement) : p.toJson = .object (Entry.members entries p) := by
  obtain ⟨_, _, role⟩ := p
  cases role <;> rfl

/-- Placed objects are read back. -/
def codec : Codec Placement := .ofEntries made (by decide) toJson toJson_eq

end Placement

namespace Relationship

/-- The entries of a relationship. -/
def entries : List (Entry (Relationship.record .text).blank) :=
  [.ifAny "fromObjectAlias" .string nofun first (fun x r => { r with first := x }) (fun _ _ => rfl) rfl,
    .ifAny "toObjectAlias" .string nofun second (fun x r => { r with second := x }) (fun _ _ => rfl) rfl,
    .ofCodec "joinCondition" .string condition (fun x r => { r with condition := x }) fun _ _ => rfl,
    (Entry.ofCodec "joinType" (.choice JoinKind.byName JoinKind.name fun k => by cases k <;> rfl) kind
      (fun x r => { r with kind := x }) fun _ _ => rfl).orAbsent]

theorem made : (Relationship.record .text).plain.Made (entries.map Entry.part) :=
  Record.made_of_values rfl (by decide)
    (fun (first, second, condition, kind, _) => ⟨first, second, condition, kind⟩)
    (fun _ => rfl) fun _ _ => rfl

theorem toJson_eq (r : Relationship) : r.toJson = .object (Entry.members entries r) := by
  obtain ⟨first, second, _, _⟩ := r
  cases first <;> cases second <;> rfl

/-- Relationships are read back. -/
def codec : Codec Relationship := .ofEntries made (by decide) toJson toJson_eq

end Relationship

namespace Audience

/-- The entries of an audience. -/
def entries : List (Entry (Audience.record .text).blank) :=
  [.ofCodec "objects" (.list Placement.codec) objects (fun x a => { a with objects := x }) fun _ _ => rfl,
    (Entry.ofCodec "relationships" (.list Relationship.codec) relationships
      (fun x a => { a with relationships := x }) fun _ _ => rfl).orAbsent,
    .ifAny "joinKey" .string nofun joinKey (fun x a => { a with joinKey := x }) (fun _ _ => rfl) rfl]

theorem made : (Audience.record .text).plain.Made (entries.map Entry.part) :=
  Record.made_of_values rfl (by decide)
    (fun (objects, relationships, joinKey, _) => ⟨objects, relationships, joinKey⟩)
    (fun _ => rfl) fun _ _ => rfl

theorem toJson_eq (a : Audience) : a.toJson = .object (Entry.members entries a) := by
  obtain ⟨_, _, joinKey⟩ := a
  cases joinKey <;> rfl

/-- Audiences are read back. -/
def codec : Codec Audience := .ofEntries made (by decide) toJson toJson_eq

/-! ## Texts read back -/

/-- An audience comes back from a text: it is read from it just as it is, and from there on passes the check
or fails it just as it does by itself. -/
structure Back (a : Audience) (text : String) : Prop where
  read : ofText text = .ok a
  checked : ofValidText text = a.validate.map fun _ => a
  passes : (∃ b, ofValidText text = .ok b) ↔ a.validate = .ok ()

theorem back_of_ofText {a : Audience} {text : String} (h : ofText text = .ok a) : a.Back text := by
  have hchecked : ofValidText text = a.validate.map fun _ => a := by
    have hsteps : ofValidText text = a.validate >>= fun _ => pure a := by
      rw [ofValidText, h]
      rfl
    rw [hsteps]
    cases a.validate <;> rfl
  refine ⟨h, hchecked, ?_⟩
  rw [hchecked]
  cases a.validate with
  | error e => exact ⟨nofun, nofun⟩
  | ok u => exact ⟨fun _ => rfl, fun _ => ⟨a, rfl⟩⟩

theorem back_of_document {a : Audience} {text : String}
    (h : Document.ofText text = { root := Document.ofJson a.toJson, ends := true }) : a.Back text := by
  have hread : ((Audience.record .text).read .text).ofText text = .ok a := by
    rw [Read.ofText, h]
    exact bind_eq_ok_iff.mpr ⟨a, codec.read_write a, rfl⟩
  refine back_of_ofText ?_
  rw [ofText, hread]
  rfl

/-- **A stored audience comes back** from its compact text and from its text over several lines. -/
theorem stored (a : Audience) : a.Back a.toJson.compact ∧ a.Back a.toJson.pretty :=
  ⟨back_of_document (Document.ofText_compact (codec.whole a)),
    back_of_document (Document.ofText_pretty (codec.whole a))⟩

end Audience

end Targeting
