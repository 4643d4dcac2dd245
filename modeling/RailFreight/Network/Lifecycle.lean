import RailFreight.Network.Dispatch
import RailFreight.Network.Revalidation

/-!
# The life of a job

Users reserve open jobs, take the jobs they reserved, and finish the jobs they took. A
request that cannot be granted is refused, with a cause (`Refusal`), and leaves the
network as it is. Taking and finishing move tracks, so they re-validate the network and
report every job that changed (`Transition`).
-/

namespace RailFreight

/-- Why a request is refused. -/
inductive Refusal
  | jobNotFound (job : JobId)
  | alreadyReserved (job : JobId) (holder : User)
  | alreadyActive (job : JobId)
  | notReservedBy (job : JobId) (user : User)
  | notActive (job : JobId)
  | notAssignedTo (job : JobId) (user : User)
  | notSpawned (job : JobId)
  | noDestinationTrack (job : JobId)
  deriving DecidableEq

/-- What is said of a refusal. -/
def Refusal.message : Refusal → String
  | jobNotFound job => "job " ++ job.text ++ " not found"
  | alreadyReserved job holder => "job " ++ job.text ++ " is already reserved by " ++ holder.name
  | alreadyActive job => "job " ++ job.text ++ " is already active"
  | notReservedBy job user => "job " ++ job.text ++ " is not reserved by " ++ user.name
  | notActive job => "job " ++ job.text ++ " is not active"
  | notAssignedTo job user => "job " ++ job.text ++ " is not assigned to " ++ user.name
  | notSpawned job => "job " ++ job.text ++ " has no tracks yet"
  | noDestinationTrack job => "no free destination track for job " ++ job.text

/-- What a taken or finished job brought about. The jobs are as they are afterwards, apart
    from the finished one. -/
structure Transition where
  /-- The finished job, and the jobs that fell back into the queue. -/
  despawned : List Job
  /-- The jobs that left the queue. -/
  spawned : List Job
  /-- The jobs whose tracks or cars changed otherwise. -/
  changed : List Job
  /-- The new jobs. -/
  created : List Job
  /-- The stations to notify, in order. -/
  notified : List StationCode
  deriving DecidableEq

/-- The answer to a request, and the network after it. -/
abbrev Reply (α : Type) := Except Refusal α × Network

namespace Network

/-- Reserves an open job for `user`. -/
def reserve (net : Network) (user : User) (id : JobId) : Faulty (Reply Job) := do
  match ← net.job? id with
  | none => return (.error (.jobNotFound id), net)
  | some job =>
    if job.isActive then return (.error (.alreadyActive id), net)
    else match job.holder with
      | some holder => return (.error (.alreadyReserved id holder), net)
      | none =>
        let net ← net.modifyJob id (·.reserve user)
        return (.ok (job.reserve user), net)

/-- The jobs that a re-validation moved, as they are now. -/
def report (net : Network) (r : Revalidation) (notified : List StationCode) :
    Faulty Transition := do
  let despawned ← net.jobsOf r.despawned
  let spawned ← net.jobsOf r.spawned
  let changed ← net.jobsOf r.retargeted
  return { despawned, spawned, changed, created := [], notified }

/-- The track that a job gets when it is taken: its proposal if that is free, and otherwise
    the first free one. -/
def trackToClaim? (net : Network) (job : Job) : Option Track :=
  (job.proposedTrack.filter net.isFree).or
    (net.firstFree? job.destination job.kind.destinationRole)

/-- Starts the job that `user` reserved, on the track it claims. -/
def take (net : Network) (user : User) (id : JobId) : Faulty (Reply Transition) := do
  match ← net.job? id with
  | none => return (.error (.jobNotFound id), net)
  | some job =>
    if job.isActive then return (.error (.alreadyActive id), net)
    else if !job.isHeldBy user then return (.error (.notReservedBy id user), net)
    else if !job.isSpawned then return (.error (.notSpawned id), net)
    else match net.trackToClaim? job with
      | none => return (.error (.noDestinationTrack id), net)
      | some destination =>
        let net ← net.modifyJob id (·.activate destination)
        let (r, net) := net.revalidate
        let notified := net.affectedStations job.origin job.destination r.stations
        let transition ← net.report r notified
        if transition.changed.any (·.id = id) then return (.ok transition, net)
        else
          let taken ← net.job? id
          return (.ok { transition with changed := taken.toList ++ transition.changed }, net)

/-- Adds the loads that got more cars and are not reported yet. -/
def reportMerged (net : Network) (t : Transition) : List JobId → Faulty Transition
  | [] => .ok t
  | id :: ids =>
    if (t.spawned ++ t.despawned ++ t.changed).any (·.id = id) then net.reportMerged t ids
    else do
      let job ← net.job? id
      net.reportMerged { t with changed := t.changed ++ job.toList } ids

/-- Finishes the job that `user` took: it leaves the network, and its cargo takes effect at
    its destination. -/
def finish (net : Network) (user : User) (id : JobId) : Faulty (Reply Transition) := do
  match ← net.job? id with
  | none => return (.error (.jobNotFound id), net)
  | some job =>
    if !job.isActive then return (.error (.notActive id), net)
    else if !job.isHeldBy user then return (.error (.notAssignedTo id user), net)
    else
      let net ← net.removeJob id
      let (d, net) ← net.dispatch job
      let (r, net) := net.revalidate
      let notified := net.affectedStations job.origin job.destination r.stations
      let transition ← net.report r notified
      let transition ← net.reportMerged
        { transition with despawned := job :: transition.despawned } d.merged
      let created ← net.jobsOf d.created
      return (.ok { transition with created }, net)

/-- Reserves, takes and finishes a job, up to the first refusal. -/
def run (net : Network) (user : User) (id : JobId) : Faulty (Reply Transition) := do
  match ← net.reserve user id with
  | (.error refusal, net) => return (.error refusal, net)
  | (.ok _, net) =>
    match ← net.take user id with
    | (.error refusal, net) => return (.error refusal, net)
    | (.ok _, net) => net.finish user id

/-- The first open job of a kind that is spawned at a station. -/
def firstSpawned? (net : Network) (code : StationCode) (kind : JobKind) : Option JobId :=
  (net.station? code).bind fun s =>
    (s.queue.find? fun j => j.kind = kind && j.isSpawned && !j.isReserved).map Job.id

end Network

end RailFreight
