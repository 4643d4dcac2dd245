import RailFreight.Cargo
import RailFreight.Fault
import RailFreight.User

/-!
# Jobs

A *job* moves cars of one cargo from a track of its origin to a track of its
destination. Its tracks tell how far it has come:

* a *queued* job has none;
* a *spawned* job holds an origin track, and proposes a track of its destination, which
  it does not hold yet. A user may reserve it;
* an *active* job, taken by the user who reserved it, holds both its origin track and
  its destination track.

A finished job is removed. A job that is neither reserved nor active may fall back into
the queue.
-/

namespace RailFreight

/-- A job. -/
structure Job where
  id : JobId
  kind : JobKind
  origin : StationCode
  destination : StationCode
  cars : Nat
  cargo : Cargo
  wage : Nat
  /-- The track that the cars stand on. -/
  originTrack : Option Track
  /-- The track shown as the target while none is held. -/
  proposedTrack : Option Track
  /-- The track held at the destination. -/
  destinationTrack : Option Track
  /-- Who reserved the job. -/
  holder : Option User
  deriving DecidableEq

namespace Job

/-- A new job, which is queued. -/
def queued (id : JobId) (kind : JobKind) (origin destination : StationCode) (cars : Nat)
    (cargo : Cargo) (wage : Nat) : Job :=
  { id, kind, origin, destination, cars, cargo, wage
    originTrack := none, proposedTrack := none, destinationTrack := none, holder := none }

/-- A job with an origin track is spawned. -/
def isSpawned (j : Job) : Bool := j.originTrack.isSome

/-- A job with a destination track is active. -/
def isActive (j : Job) : Bool := j.destinationTrack.isSome

/-- A job with a holder is reserved. -/
def isReserved (j : Job) : Bool := j.holder.isSome

/-- Whether `user` has reserved the job. -/
def isHeldBy (j : Job) (user : User) : Bool := j.holder = some user

/-- The track that the cars are to end on: the one held, or else the one proposed. -/
def targetTrack (j : Job) : Option Track := j.destinationTrack.or j.proposedTrack

/-- The tracks that the job holds. -/
def occupiedTracks (j : Job) : List Track := j.originTrack.toList ++ j.destinationTrack.toList

/-- Whether the job holds `track`. -/
def occupies (j : Job) (track : Track) : Bool :=
  j.originTrack = some track || j.destinationTrack = some track

/-- Whether more cars of `cargo` may join the job: a load of that cargo that nobody has
    claimed. -/
def isMergeableLoad (j : Job) (cargo : Cargo) : Bool :=
  j.kind = .shuntingLoad && j.cargo = cargo && !j.isReserved && !j.isActive

/-- Gives the job its origin track and a proposal. -/
def spawn (j : Job) (origin proposed : Track) : Job :=
  { j with originTrack := some origin, proposedTrack := some proposed }

/-- Gives the job another proposal. -/
def retarget (j : Job) (proposed : Track) : Job :=
  { j with proposedTrack := some proposed }

/-- Puts the job back into the queue. -/
def despawn (j : Job) : Job :=
  { j with originTrack := none, proposedTrack := none }

/-- Reserves the job for `user`. -/
def reserve (j : Job) (user : User) : Job := { j with holder := some user }

/-- Starts the job, which then holds its destination track. -/
def activate (j : Job) (destination : Track) : Job :=
  { j with proposedTrack := none, destinationTrack := some destination }

/-- Adds cars up to `ceiling`, and answers with the cars that found no place. A job that is
    above the ceiling already keeps its cars. -/
def addCars (j : Job) (count ceiling : Nat) : Faulty (Job × Nat) := do
  let total ← Count.add j.cars count
  let cars := min total (max ceiling j.cars)
  return ({ j with cars }, total - cars)

theorem mem_occupiedTracks {j : Job} {t : Track} : t ∈ j.occupiedTracks ↔ j.occupies t := by
  simp [occupiedTracks, occupies]

end Job

end RailFreight
