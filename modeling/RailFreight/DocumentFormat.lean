import RailFreight.Json.Reader
import RailFreight.Ron.Reader
import RailFreight.Toml.Document
import RailFreight.Wire.Settings

/-!
# Formats of documents

Configurations and scenarios are kept in documents of three formats. What a record says
does not hang on the format that it is written in: one reader, which is given a dialect,
serves them all.

* `DocumentFormat.ofName?_name`: every name reads back as its format.
-/

namespace RailFreight

/-- The format of a document. -/
inductive DocumentFormat
  | ron | toml | json
  deriving DecidableEq, Repr, Inhabited

namespace DocumentFormat

/-- The formats in the order in which files are looked for. -/
def all : List DocumentFormat := [ron, toml, json]

/-- The name of a format, with which the names of its files end. -/
def name : DocumentFormat → String
  | ron => "ron"
  | toml => "toml"
  | json => "json"

/-- The format of a name. -/
def ofName? (text : String) : Option DocumentFormat := all.find? fun f => f.name = text

theorem mem_all (f : DocumentFormat) : f ∈ all := by cases f <;> decide

/-- Every name reads back as its format. -/
theorem ofName?_name (f : DocumentFormat) : ofName? f.name = some f := by
  cases f <;> decide

/-- Reads a value from the text of a document. -/
def read? {α : Type} (f : DocumentFormat) (reader : {ν : Type} → Dialect ν → ν → Option α)
    (text : String) : Option α :=
  match f with
  | ron => (Ron.ofText? text).bind fun d => reader (Ron.dialect d.implicitSome) d.value
  | toml => (Toml.ofText? text).bind (reader Toml.dialect)
  | json => (Json.ofText? text).bind (reader Json.dialect)

/-- The configuration of a document. -/
def config? (f : DocumentFormat) (text : String) : Option Config := f.read? Config.read? text

/-- The scenario of a document. -/
def scenario? (f : DocumentFormat) (text : String) : Option Scenario :=
  f.read? Scenario.read? text

end DocumentFormat

end RailFreight
