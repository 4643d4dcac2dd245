import RailFreight.Toml.Reader
import RailFreight.Record

/-!
# From lines to a TOML document

The lines of a document build one table. A header opens a table, to which the following
lines add their values; on the way to it, of several tables declared under one header the
last is entered. No key of a table is set twice, and no table is declared twice.
-/

namespace RailFreight.Toml

/-- Replaces the value of a key. -/
def replace (entries : Entries) (k : String) (v : Toml) : Entries :=
  entries.map fun e => if e.1 = k then (k, v) else e

/-- Changes the table that a path of headers leads to. New tables on the way are implied. -/
def within (f : Entries → Option Entries) : List String → Entries → Option Entries
  | [], entries => f entries
  | k :: path, entries =>
    match entries.lookup k with
    | none => do return entries ++ [(k, .table .implied (← within f path []))]
    | some (.table standing inner) =>
      if standing = .sealed then none
      else do return replace entries k (.table standing (← within f path inner))
    | some (.tables items) =>
      match items.getLast? with
      | some (.table standing inner) => do
        let inner ← within f path inner
        return replace entries k (.tables (items.dropLast ++ [.table standing inner]))
      | _ => none
    | some _ => none

/-- Declares a table, which may have been implied before. -/
def declare (key : String) (entries : Entries) : Option Entries :=
  match entries.lookup key with
  | none => some (entries ++ [(key, .table .declared [])])
  | some (.table .implied inner) => some (replace entries key (.table .declared inner))
  | some _ => none

/-- Declares the next of several tables. -/
def declareNext (key : String) (entries : Entries) : Option Entries :=
  match entries.lookup key with
  | none => some (entries ++ [(key, .tables [.table .declared []])])
  | some (.tables items) =>
    some (replace entries key (.tables (items ++ [.table .declared []])))
  | some _ => none

/-- Adds lines to the document `root`, values to the table that the headers `open_` lead
    to. -/
def build (root : Entries) (open_ : List String) : List Line → Option Entries
  | [] => some root
  | .entry path key v :: lines => do
    build (← within (put key v path) open_ root) open_ lines
  | .header path key :: lines => do
    build (← within (declare key) path root) (path ++ [key]) lines
  | .arrayHeader path key :: lines => do
    build (← within (declareNext key) path root) (path ++ [key]) lines

/-- The document of a text. -/
def ofText? (text : String) : Option Toml := do
  let lines ← linesOf? text
  return .table .declared (← build [] [] lines)

/-- The fields of a record: a table, or the list of the fields in order, of which the last
    may be left out, and behind which more may stand. A date or a time has none of them. -/
def fields? (names : List String) : Toml → Option (Fields Toml)
  | .table _ entries => Fields.ofMembers? names entries
  | .array items => some (Fields.ofItems names items)
  | .tables items => some (Fields.ofItems names items)
  | .moment => some fun _ => none
  | _ => none

/-- A natural number. -/
def natural? : Toml → Option Nat
  | .integer n => n.toNat?
  | _ => none

/-- A string. -/
def string? : Toml → Option String
  | .text s => some s
  | _ => none

/-- The items of a list. -/
def list? : Toml → Option (List Toml)
  | .array items => some items
  | .tables items => some items
  | _ => none

/-- How values are found in TOML, where a missing value has no place. -/
def dialect : Dialect Toml where
  fields _ := fields?
  natural := natural?
  string := string?
  list := list?
  optional v := some (some v)

end RailFreight.Toml
