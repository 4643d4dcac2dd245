import RailFreight.Job.Basic

/-!
# Views of jobs

What users are shown of a job: names in place of tracks, and an empty name where the job
has no track.
-/

namespace RailFreight

/-- What is shown of a job. -/
structure JobView where
  id : JobId
  kind : JobKind
  startingTrack : String
  targetStation : StationCode
  targetTrack : String
  cars : Nat
  cargo : Cargo
  wage : Nat
  deriving DecidableEq

/-- What is shown of the job. -/
def Job.view (j : Job) : JobView where
  id := j.id
  kind := j.kind
  startingTrack := (j.originTrack.map Track.name).getD ""
  targetStation := j.destination
  targetTrack := (j.targetTrack.map Track.name).getD ""
  cars := j.cars
  cargo := j.cargo
  wage := j.wage

end RailFreight
