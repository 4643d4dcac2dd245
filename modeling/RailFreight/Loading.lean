import RailFreight.DocumentFormat
import RailFreight.Files

/-!
# Loading configurations and scenarios

A file is read by the format that its extension names. A configuration that nobody named
is looked for in a folder, where it may be kept in any one format, and is the standard one
if there is none.

* `Config.ensureUsable_eq_ok_iff`: a configuration is let through unchanged, if every size
  is positive.
-/

namespace RailFreight

/-- Why something was not loaded. -/
inductive LoadError
  | missing (file : String)
  | unknownFormat (file : String)
  /-- Two files say the same in different formats. -/
  | conflict (first second : String)
  | malformed (file : String)
  /-- The file can be read, but what it says cannot be used. -/
  | unusable (file reason : String)
  | isFolder (file : String)
  | notText (file : String)
  deriving DecidableEq, Repr

namespace LoadError

/-- What is said of an error. -/
def message : LoadError → String
  | missing file => "file not found: " ++ file
  | unknownFormat file => "unsupported format for file: " ++ file
  | conflict first second => "conflicting formats: " ++ first ++ " and " ++ second
  | malformed file => "parse error in " ++ file
  | unusable file reason => "invalid value in " ++ file ++ ": " ++ reason
  | isFolder _ => "Is a directory (os error 21)"
  | notText _ => "stream did not contain valid UTF-8"

end LoadError

/-- The format that the extension of a path names. -/
def DocumentFormat.ofPath (path : String) : Except LoadError DocumentFormat :=
  match (FilePath.extension? path).bind ofName? with
  | some f => .ok f
  | none => .error (.unknownFormat path)

namespace Files

/-- The text of a file. -/
def content (files : Files) (path : String) : Except LoadError String :=
  match files path with
  | none => .error (.missing path)
  | some .folder => .error (.isFolder path)
  | some .binary => .error (.notText path)
  | some (.text content) => .ok content

/-- Loads what a reader finds in a file. -/
def load {α : Type} (files : Files) (reader : DocumentFormat → String → Option α)
    (path : String) : Except LoadError α := do
  let format ← DocumentFormat.ofPath path
  match reader format (← files.content path) with
  | some a => return a
  | none => throw (.malformed path)

/-- The paths in a folder that differ in the format only. -/
def candidates (folder base : String) : List String :=
  DocumentFormat.all.map fun f => FilePath.join folder (base ++ "." ++ f.name)

/-- The one file of a folder that has a given name and any format. -/
def find (files : Files) (folder base : String) : Except LoadError (Option String) :=
  match (candidates folder base).filter files.present with
  | [] => .ok none
  | [path] => .ok (some path)
  | first :: second :: _ => .error (.conflict first second)

end Files

namespace Config

/-- The name of the configuration file that is looked for. -/
def fileName : String := "freightyard"

/-- Refuses a configuration that cannot be used. -/
def ensureUsable (path : String) (c : Config) : Except LoadError Config :=
  match c.unusable? with
  | some reason => .error (.unusable path reason.message)
  | none => .ok c

/-- A configuration is let through unchanged, if every size is positive. -/
theorem ensureUsable_eq_ok_iff {path : String} {c d : Config} :
    ensureUsable path c = .ok d ↔
      d = c ∧ 0 < c.maxCars ∧ 0 < c.notifier.inboxCapacity ∧ 0 < c.notifier.outboxCapacity := by
  rw [← unusable?_eq_none_iff, ensureUsable]
  cases c.unusable? <;> simp [eq_comm]

/-- Loads a configuration. -/
def load (files : Files) (path : String) : Except LoadError Config := do
  ensureUsable path (← files.load DocumentFormat.config? path)

/-- Loads the configuration of a path if one is given, or else the one that a folder
    holds, or else the standard one. -/
def loadOrStandard (files : Files) (path : Option String) (folder : String) :
    Except LoadError Config :=
  match path with
  | some path => load files path
  | none => do
    match ← files.find folder fileName with
    | some found => load files found
    | none => return {}

end Config

namespace Scenario

/-- What is said of a scenario that has no steps. -/
def emptyMessage : String := "scenario has no steps"

/-- Loads a scenario. -/
def load (files : Files) (path : String) : Except LoadError Scenario := do
  let scenario ← files.load DocumentFormat.scenario? path
  if scenario.steps = [] then throw (.unusable path emptyMessage)
  return scenario

end Scenario

end RailFreight
