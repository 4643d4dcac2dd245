import RailFreight.Network.Occupancy

/-!
# Re-validation

Jobs come and go, and with them the tracks that are free. *Re-validation* brings the
tracks of all jobs up to date, in rounds. A round visits the jobs kind by kind
(`JobKind.assignmentOrder`), and within a kind station by station and queue by queue.
What becomes of a visited job depends on the tracks that are free at that moment
(`Network.decision`):

* an active job stays as it is;
* a queued job spawns if both ends have a free track;
* a spawned job whose proposal is taken gets the first free track of its destination as
  its new proposal; if there is none, it falls back into the queue, unless reserved.

Rounds are repeated until one changes nothing, or until their number reaches the number
of jobs plus two.
-/

namespace RailFreight

/-- What becomes of a visited job. -/
inductive Decision
  | keep
  | spawn (origin proposed : Track)
  | retarget (proposed : Track)
  | despawn
  deriving DecidableEq, Repr

/-- The job after a decision about it. -/
def Job.after (j : Job) : Decision → Job
  | .keep => j
  | .spawn origin proposed => j.spawn origin proposed
  | .retarget proposed => j.retarget proposed
  | .despawn => j.despawn

/-- The net effect of a re-validation. -/
structure Revalidation where
  /-- The jobs that left the queue. -/
  spawned : List JobId
  /-- The jobs that fell back into the queue. -/
  despawned : List JobId
  /-- The jobs that are spawned as before, on other tracks. -/
  retargeted : List JobId
  /-- The stations that these jobs start from, in order. -/
  stations : List StationCode
  /-- How many rounds were run. -/
  rounds : Nat
  deriving DecidableEq, Repr

/-- Whether no job changed. -/
def Revalidation.isEmpty (r : Revalidation) : Bool :=
  r.spawned.isEmpty && r.despawned.isEmpty && r.retargeted.isEmpty

/-- How the tracks of a job moved. -/
inductive Movement
  | spawned | despawned | retargeted
  deriving DecidableEq, Repr

/-- How the tracks of a job moved from `before` to `after`. -/
def Movement.between? (before after : Job) : Option Movement :=
  match before.isSpawned, after.isSpawned with
  | false, true => some spawned
  | true, false => some despawned
  | false, false => none
  | true, true =>
    if before.originTrack = after.originTrack ∧ before.proposedTrack = after.proposedTrack then
      none
    else some retargeted

namespace Network

/-- What becomes of a job, given the tracks that are free. -/
def decision (net : Network) (j : Job) : Decision :=
  if j.isActive then .keep
  else if j.isSpawned then
    if j.proposedTrack.any net.isFree then .keep
    else match net.firstFree? j.destination j.kind.destinationRole with
      | some proposed => .retarget proposed
      | none => if j.isReserved then .keep else .despawn
  else match net.firstFree? j.origin j.kind.originRole with
    | none => .keep
    | some origin =>
      match net.firstFreeExcept? j.destination j.kind.destinationRole (some origin) with
      | some proposed => .spawn origin proposed
      | none => .keep

/-- A place in the queue of a station. -/
abbrev Place := StationCode × Nat

/-- The job at a place. -/
def jobAt? (net : Network) (place : Place) : Option Job :=
  (net.station? place.1).bind fun s => s.queue[place.2]?

/-- Changes the job at a place. -/
def modifyJobAt (net : Network) (place : Place) (f : Job → Job) : Network :=
  net.modifyStation place.1 fun s => { s with queue := s.queue.modify place.2 f }

/-- The places of all jobs, station by station. -/
def places (net : Network) : List Place :=
  net.stations.entries.flatMap fun (code, s) => (List.range s.queue.length).map fun i => (code, i)

/-- The visits of a round: every place once for each kind of job. -/
def visits (net : Network) : List (JobKind × Place) :=
  JobKind.assignmentOrder.flatMap fun kind => net.places.map fun place => (kind, place)

/-- Visits the job at a place, if it is of the kind whose turn it is, and answers with
    whether it changed. -/
def visit (net : Network) (v : JobKind × Place) : Bool × Network :=
  match net.jobAt? v.2 with
  | none => (false, net)
  | some j =>
    if j.kind ≠ v.1 then (false, net) else
      match net.decision j with
      | .keep => (false, net)
      | d => (true, net.modifyJobAt v.2 (·.after d))

/-- Makes visits one after the other, and answers with whether a job changed. -/
def visitAll (net : Network) : List (JobKind × Place) → Bool × Network
  | [] => (false, net)
  | v :: vs =>
    let (changed, net) := net.visit v
    let (changedLater, net) := net.visitAll vs
    (changed || changedLater, net)

/-- One round, and whether it changed a job. -/
def round (net : Network) : Bool × Network := net.visitAll net.visits

/-- Rounds until one changes nothing, but at most `limit`; answers with their number. -/
def rounds (net : Network) : Nat → Nat × Network
  | 0 => (0, net)
  | limit + 1 =>
    let (changed, net) := net.round
    if changed then
      let (n, net) := net.rounds limit
      (n + 1, net)
    else (1, net)

/-- How the tracks of `after` moved since `before`, a list of jobs with the same ids. -/
def movement? (before : List Job) (after : Job) : Option Movement :=
  (before.find? (·.id = after.id)).bind fun j => Movement.between? j after

/-- The ids of the jobs whose tracks moved in a given way. -/
def moved (before after : List Job) (m : Movement) : List JobId :=
  (after.filter fun j => movement? before j = some m).map Job.id

/-- Brings the tracks of all jobs up to date. -/
def revalidate (net : Network) : Revalidation × Network :=
  let (rounds, after) := net.rounds (net.jobCount + 2)
  ({ spawned := moved net.jobs after.jobs .spawned
     despawned := moved net.jobs after.jobs .despawned
     retargeted := moved net.jobs after.jobs .retargeted
     stations := sortedUnique <|
       (after.jobs.filter fun j => (movement? net.jobs j).isSome).map Job.origin
     rounds }, after)

/-- The stations to notify of a change that a job from `origin` to `destination` brought
    about: both, and of the `changed` stations those that have a job bound for
    `destination`. -/
def affectedStations (net : Network) (origin destination : StationCode)
    (changed : List StationCode) : List StationCode :=
  let feeding := changed.filter fun code =>
    (net.station? code).any fun s => s.queue.any (·.destination = destination)
  sortedUnique (origin :: destination :: feeding)

end Network

end RailFreight
