import RailFreight.Json.Basic
import RailFreight.Record

/-!
# Records in JSON

A record is an object, or the list of its fields in order, of which the last may be left
out. A missing value is `null`.
-/

namespace RailFreight.Json

/-- The fields of a record. -/
def fields? (names : List String) : Json → Option (Fields Json)
  | .list items => if items.length ≤ names.length then some (Fields.ofItems names items) else none
  | j => j.members?.bind (Fields.ofMembers? names)

/-- A value that may be `null`. -/
def optional? : Json → Option (Option Json)
  | .null => some none
  | j => some (some j)

/-- How values are found in JSON. -/
def dialect : Dialect Json where
  fields _ := fields?
  natural := natural?
  string := string?
  list := list?
  optional := optional?

/-- One of several names: a string, or an object whose only member has the name and the
    value `null`. -/
def oneOf? {α : Type} (ofName? : String → Option α) : Json → Option α
  | .object [(name, .null)] => (unescape? name).bind fun cs => ofName? (String.ofList cs)
  | j => j.string?.bind ofName?

end RailFreight.Json
