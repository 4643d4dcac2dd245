import RailFreight.Network.Revalidation

/-!
# Audit of a network

Two checks that a network makes sense. `Network.violations` looks at its jobs: whether
they stand in the right queues, carry no more cars than allowed, hold only tracks that
suit them, and share no track. `Network.supplyGaps` looks at its processors: whether
everything they need is shipped to them from somewhere.
-/

namespace RailFreight

/-- What is wrong with a job. -/
inductive Violation
  /-- A track is held more than once. -/
  | doubleOccupancy (track : Track) (jobs : List JobId)
  /-- A job has a track that does not suit it. -/
  | misplacedTrack (job : JobId) (track : Track)
  /-- A job stands in the queue of a station that it does not start from. -/
  | wrongQueue (job : JobId) (queuedAt : StationCode)
  /-- A job carries more cars than the ceiling. -/
  | overCeiling (job : JobId) (cars ceiling : Nat)
  /-- An active job has no origin track. -/
  | activeWithoutOrigin (job : JobId)
  deriving DecidableEq, Repr

/-- What is said of a violation. -/
def Violation.message : Violation → String
  | doubleOccupancy track jobs =>
    "track " ++ track.name ++ " held by " ++ ", ".intercalate (jobs.map JobId.text)
  | misplacedTrack job track => "job " ++ job.text ++ " assigned unsuitable track " ++ track.name
  | wrongQueue job queuedAt =>
    "job " ++ job.text ++ " queued at " ++ queuedAt.name ++ ", not its origin"
  | overCeiling job cars ceiling =>
    "job " ++ job.text ++ " has " ++ toString cars ++ " cars (ceiling " ++ toString ceiling ++ ")"
  | activeWithoutOrigin job => "job " ++ job.text ++ " is active without an origin track"

/-- Cargo that a station needs and that is never shipped there. -/
structure SupplyGap where
  station : StationCode
  cargo : Cargo
  deriving DecidableEq, Repr

/-- What is said of a supply gap. -/
def SupplyGap.message (g : SupplyGap) : String :=
  g.station.name ++ " needs " ++ g.cargo.name ++ " but nothing ships it there"

/-- The violations of a job in the queue of `queuedAt`, under a ceiling on its cars. -/
def Job.violations (j : Job) (queuedAt : StationCode) (ceiling : Nat) : List Violation :=
  let unsuitable (station : StationCode) (role : TrackRole) (track : Option Track) :=
    (track.filter fun t => t.station ≠ station || t.role ≠ role).toList.map
      (Violation.misplacedTrack j.id)
  (if j.origin ≠ queuedAt then [.wrongQueue j.id queuedAt] else []) ++
  (if ceiling < j.cars then [.overCeiling j.id j.cars ceiling] else []) ++
  (if j.isActive && !j.isSpawned then [.activeWithoutOrigin j.id] else []) ++
  unsuitable j.origin j.kind.originRole j.originTrack ++
  unsuitable j.destination j.kind.destinationRole j.targetTrack

namespace Network

/-- Which jobs hold which track: one entry for each holding, in the order of the jobs. -/
def holdings (net : Network) : List (Track × JobId) :=
  net.jobs.flatMap fun j => j.occupiedTracks.map fun t => (t, j.id)

/-- The held tracks in order, each with its holders. -/
def holders (net : Network) : Table Track (List JobId) :=
  net.holdings.foldl (fun table (t, id) => table.insert t (table.getD t [] ++ [id])) Table.empty

/-- The violations of the jobs, job by job, and then the tracks held more than once. -/
def violations (net : Network) : List Violation :=
  (net.stationList.flatMap fun s => s.queue.flatMap (·.violations s.code net.config.maxCars)) ++
  (net.holders.entries.filter fun e => 1 < e.2.length).map fun e => .doubleOccupancy e.1 e.2

/-- Whether some processor sends `cargo` to `station`. -/
def supplies (net : Network) (station : StationCode) (cargo : Cargo) : Bool :=
  net.stationList.any fun s =>
    s.processors.any fun p => p.output = cargo && p.destinations.contains station

/-- The cargo that processors need and that is never shipped to them, each gap once. -/
def supplyGaps (net : Network) : List SupplyGap :=
  let needs := net.stationList.flatMap fun s =>
    s.processors.flatMap fun p => p.inputs.map (SupplyGap.mk s.code)
  (needs.filter fun g => !net.supplies g.station g.cargo).eraseDups

end Network

end RailFreight
