import RailFreight.Text.Scan

/-!
# TOML documents

A *document* is a table. Tables come about in several ways, and which later lines may add
to a table depends on how it came about (`Standing`):

* a table is *declared* by a header of its own;
* it is *implied* by the header of a table inside it, and may still be declared;
* it is *dotted* into being by a dotted key, and only dotted keys may add to it;
* it is *sealed* when it is written out between braces, and nothing may be added.

Booleans, floating point numbers, dates and times are read, but not kept: no record here
has such a field. A date or a time counts as a record, but none of the fields that are
looked for is in it.
-/

namespace RailFreight

/-- How a table came about. -/
inductive Toml.Standing
  | declared | implied | dotted | sealed
  deriving DecidableEq, Repr

/-- A TOML value. -/
inductive Toml
  | text (s : String)
  | integer (n : Int)
  /-- A boolean or a floating point number. -/
  | other
  /-- A date, a time of day, or both. -/
  | moment
  /-- A list written out between brackets. -/
  | array (items : List Toml)
  | table (standing : Toml.Standing) (entries : List (String × Toml))
  /-- Tables declared one after the other under one header. -/
  | tables (items : List Toml)
  deriving Inhabited

/-- The entries of a table, oldest first. -/
abbrev Toml.Entries := List (String × Toml)

/-- A line of a document. -/
inductive Toml.Line
  /-- A value under a key, behind the keys of the tables that it is in. -/
  | entry (path : List String) (key : String) (value : Toml)
  /-- The header of a table, behind the keys of the tables that it is in. -/
  | header (path : List String) (key : String)
  /-- The header of the next of several tables. -/
  | arrayHeader (path : List String) (key : String)
  deriving Inhabited

end RailFreight
