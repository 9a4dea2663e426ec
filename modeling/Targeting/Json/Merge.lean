import Targeting.Json.Basic

/-!
# Merging JSON values

One value is laid over another: the members of an object over those of an object, key by key; every
other value replaces what was there.

* `Json.laidOver`.
-/

namespace Targeting.Json

mutual

/-- A value laid over another one. -/
def laidOver : Json → Json → Json
  | .object members, .object below => .object (membersOver members below)
  | v, _ => v

/-- Members laid over the members of an object. -/
def membersOver : List (String × Json) → List (String × Json) → List (String × Json)
  | [], below => below
  | (key, v) :: rest, below =>
    let merged := match below.lookup key with
      | some w => laidOver v w
      | none => v
    membersOver rest (Keyed.insert key merged below)

end

end Targeting.Json
