import RailFreight.Job.Kind

/-!
# Job ids

A job is known by its id: the code of the station it starts from, the code of its kind,
and a number that the station counts up. Any text may be asked for as an id; only ids
made by `JobId.of` are ever given to jobs.
-/

namespace RailFreight

/-- The id of a job. -/
structure JobId where
  text : String
  deriving DecidableEq, Repr, Inhabited

/-- The id of the `number`-th job of a station. -/
def JobId.of (station : StationCode) (kind : JobKind) (number : Nat) : JobId :=
  ⟨station.name ++ "-" ++ kind.code ++ "-" ++ toString number⟩

end RailFreight
