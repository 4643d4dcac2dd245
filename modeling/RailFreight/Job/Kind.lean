import RailFreight.Track.Basic

/-!
# Kinds of jobs

Cars are loaded and unloaded between the tracks of one station, and hauled between
stations. The kind of a job fixes the role of the track it starts from and of the track
it ends on.
-/

namespace RailFreight

/-- A kind of job. -/
inductive JobKind
  | logistics | shuntingLoad | shuntingUnload | freight
  deriving DecidableEq, Repr, Inhabited

namespace JobKind

/-- The kinds in the order of their declaration. -/
def all : List JobKind := [logistics, shuntingLoad, shuntingUnload, freight]

/-- The kinds in the order in which tracks are assigned to their jobs. -/
def assignmentOrder : List JobKind := [shuntingUnload, freight, shuntingLoad, logistics]

/-- The name of a kind. -/
def name : JobKind → String
  | logistics => "logistics"
  | shuntingLoad => "shunting_load"
  | shuntingUnload => "shunting_unload"
  | freight => "freight"

/-- The code of a kind in the ids of its jobs. -/
def code : JobKind → String
  | logistics => "SLH"
  | shuntingLoad => "SSL"
  | shuntingUnload => "SSU"
  | freight => "SFH"

/-- The role of the track that a job of the kind starts from. -/
def originRole : JobKind → TrackRole
  | logistics => .storage
  | shuntingLoad => .storage
  | shuntingUnload => .input
  | freight => .output

/-- The role of the track that a job of the kind ends on. -/
def destinationRole : JobKind → TrackRole
  | logistics => .storage
  | shuntingLoad => .output
  | shuntingUnload => .storage
  | freight => .input

/-- The kind of that name. -/
def ofName? (text : String) : Option JobKind := all.find? fun k => k.name = text

theorem ofName?_name (k : JobKind) : ofName? k.name = some k := by cases k <;> decide

theorem mem_assignmentOrder (k : JobKind) : k ∈ assignmentOrder := by cases k <;> decide

end JobKind

end RailFreight
