/-!
# Records in documents

A record is read in the same way from every kind of document: its fields are looked up by
name, and what is missing takes its default or makes the record unreadable. What differs
from one kind of document to another, how a value is written, is gathered in a *dialect*.
-/

namespace RailFreight

/-- The fields of a record, by name. -/
abbrev Fields (ν : Type) := String → Option ν

/-- How values are found in documents of type `ν`. -/
structure Dialect (ν : Type) where
  /-- The fields of a record, of which the name and the names of the fields are given. -/
  fields : String → List String → ν → Option (Fields ν)
  /-- A natural number. -/
  natural : ν → Option Nat
  /-- A string. -/
  string : ν → Option String
  /-- A list. -/
  list : ν → Option (List ν)
  /-- A value that may be missing, though its place is there. -/
  optional : ν → Option (Option ν)

namespace Fields

variable {ν α : Type}

/-- The fields of members with names. A name that is asked for may occur once only; the
    members that nobody asks for are passed over. -/
def ofMembers? (names : List String) (members : List (String × ν)) : Option (Fields ν) :=
  if names.all fun name => (members.filter (·.1 = name)).length ≤ 1 then
    some fun name => (members.find? (·.1 = name)).map (·.2)
  else none

/-- The fields of items that stand in the order of the names. -/
def ofItems (names : List String) (items : List ν) : Fields ν := fun name =>
  (names.idxOf? name).bind (items[·]?)

/-- A field that must be there. -/
def required (f : Fields ν) (name : String) (read : ν → Option α) : Option α :=
  (f name).bind read

/-- A field that has a default. -/
def withDefault (f : Fields ν) (name : String) (default : α) (read : ν → Option α) : Option α :=
  match f name with
  | none => some default
  | some v => read v

end Fields

namespace Dialect

variable {ν α : Type}

/-- A natural number below a limit. -/
def below (d : Dialect ν) (limit : Nat) (v : ν) : Option Nat :=
  (d.natural v).filter (· < limit)

/-- A list of values. -/
def listOf (d : Dialect ν) (read : ν → Option α) (v : ν) : Option (List α) :=
  (d.list v).bind (·.mapM read)

/-- A value that may be missing. -/
def optionalOf (d : Dialect ν) (read : ν → Option α) (v : ν) : Option (Option α) :=
  match d.optional v with
  | none => none
  | some none => some none
  | some (some w) => (read w).map some

end Dialect

end RailFreight
