import Targeting.Audience.Validation
import Targeting.Keyed

/-!
# Stores of audiences

Audiences by their identifiers. An audience is checked when it is loaded, not when it is put in.

* `Store`, `Store.insert`, `Store.remove`, `Store.load`, `Store.size`.
-/

namespace Targeting

/-- Audiences by their identifiers, in the order of these. -/
structure Store where
  audiences : List (String × Audience) := []

namespace Store

/-- The audience with an identifier, valid or not. -/
def find? (s : Store) (id : String) : Option Audience := s.audiences.lookup id

/-- Puts an audience in, in place of the one with the same identifier. -/
def insert (s : Store) (id : String) (a : Audience) : Store := ⟨Keyed.insert id a s.audiences⟩

/-- Takes an audience out. -/
def remove (s : Store) (id : String) : Store := ⟨s.audiences.filter fun e => e.1 ≠ id⟩

/-- The number of audiences. -/
def size (s : Store) : Nat := s.audiences.length

/-- The valid audience with an identifier. -/
def load (s : Store) (id : String) : Except Error Audience :=
  match s.find? id with
  | none => .error (.notFound s!"Audience '{id}'")
  | some a => a.validate.map fun _ => a

end Store

end Targeting
