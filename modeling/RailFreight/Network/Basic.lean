import RailFreight.Config
import RailFreight.Generator
import RailFreight.Station.Production
import RailFreight.Station.Summary

/-!
# Networks

A *network* is its stations with their jobs and processors, the generator from which
random choices are drawn, and the configuration. Its jobs are listed station by station,
and queue by queue within.

An operation that can meet a fault answers in `Faulty`; one that changes the network
answers with the network after it.
-/

namespace RailFreight

/-- A network of stations. -/
structure Network where
  stations : Table StationCode Station
  generator : Generator
  config : Config
  deriving DecidableEq

namespace Network

/-- A network without stations. -/
def empty (config : Config) : Network where
  stations := Table.empty
  generator := Generator.ofSeed config.seed
  config := config

/-- The station of that code. -/
def station? (net : Network) (code : StationCode) : Option Station := net.stations.get? code

/-- The stations in order. -/
def stationList (net : Network) : List Station := net.stations.values

/-- Changes a station. -/
def modifyStation (net : Network) (code : StationCode) (f : Station → Station) : Network :=
  { net with stations := net.stations.modify code f }

/-- Puts a station in its place, in the stead of any that was there. -/
def putStation (net : Network) (s : Station) : Network :=
  { net with stations := net.stations.insert s.code s }

/-- Adds a station without jobs and processors, in the stead of any of that code. -/
def addStation (net : Network) (code : StationCode) (minCars maxCars : Nat) : Network :=
  net.putStation (Station.new code minCars maxCars)

/-- The overviews of the stations, in order. -/
def summaries (net : Network) : List StationSummary := net.stationList.map Station.summary

/-! ## Jobs -/

/-- The jobs, station by station. -/
def jobs (net : Network) : List Job := net.stationList.flatMap Station.queue

/-- How many jobs there are. -/
def jobCount (net : Network) : Nat := net.jobs.length

/-- The stations in whose queues a job of that id stands. -/
def queuedAt (net : Network) (id : JobId) : List StationCode :=
  (net.stationList.filter fun s => (s.job? id).isSome).map Station.code

/-- The station in whose queue the job of that id stands. -/
def locate (net : Network) (id : JobId) : Faulty (Option StationCode) :=
  match net.queuedAt id with
  | [] => .ok none
  | [code] => .ok (some code)
  | first :: second :: _ => .error (.queuedTwice id first second)

/-- The job of that id. -/
def job? (net : Network) (id : JobId) : Faulty (Option Job) := do
  let code ← net.locate id
  return code.bind net.station? |>.bind (·.job? id)

/-- The jobs of those ids that are in the network. -/
def jobsOf (net : Network) : List JobId → Faulty (List Job)
  | [] => .ok []
  | id :: ids => do
    let job ← net.job? id
    let jobs ← net.jobsOf ids
    return job.toList ++ jobs

/-- Changes the job of that id. -/
def modifyJob (net : Network) (id : JobId) (f : Job → Job) : Faulty Network := do
  match ← net.locate id with
  | none => return net
  | some code => return net.modifyStation code (·.modifyJob id f)

/-- Takes the job of that id out of its queue. -/
def removeJob (net : Network) (id : JobId) : Faulty Network := do
  match ← net.locate id with
  | none => return net
  | some code => return net.modifyStation code (·.removeJob id)

/-- Whether a spawned job is shown to `user`: it is open, or active for that user. With no
    user given, every spawned job is shown. -/
def shows (user : Option User) (job : Job) : Bool :=
  job.isSpawned && user.all fun u => !job.isActive || job.isHeldBy u

/-- The jobs of a station that are shown to `user`. -/
def visibleJobs (net : Network) (code : StationCode) (user : Option User) : List Job :=
  match net.station? code with
  | none => []
  | some s => s.queue.filter (shows user)

/-! ## New jobs -/

/-- Queues a new job at its origin, and answers with its id. Cars above the ceiling go to
    the overflow of the origin. -/
def createJob (net : Network) (origin : StationCode) (kind : JobKind)
    (destination : StationCode) (cars : Nat) (cargo : Cargo) (wage : Nat) :
    Faulty (JobId × Network) :=
  match net.station? origin with
  | none => .error (.noSuchStation origin)
  | some s => do
    let s ← s.addOverflow cargo (cars - net.config.maxCars)
    let (id, s) ← s.addJob kind destination (min cars net.config.maxCars) cargo wage
    return (id, { net with stations := net.stations.insert origin s })

/-- Queues a load made out of nothing: its cars are drawn from the range of the station,
    and it pays the base wage. -/
def seedLoad (net : Network) (code : StationCode) (cargo : Cargo) :
    Faulty (JobId × Network) := do
  let (lo, hi) := ((net.station? code).map fun s => (s.minCars, s.maxCars)).getD (1, 1)
  let (drawn, generator) := net.generator.range lo hi
  let cars := min drawn net.config.maxCars
  let wage ← Count.mul cargo.baseWage cars
  { net with generator }.createJob code .shuntingLoad code cars cargo wage

/-- Queues a load from a station to itself that pays the base wage. -/
def queueLoad (net : Network) (code : StationCode) (cargo : Cargo) (cars : Nat) :
    Faulty (JobId × Network) := do
  let wage ← Count.mul cargo.baseWage cars
  net.createJob code .shuntingLoad code cars cargo wage

/-- Adds a processor to a station; nothing happens when there is no such station. A
    generative processor brings a load of its output along, whose id is the answer. -/
def addProcessor (net : Network) (code : StationCode) (p : Processor) :
    Faulty (Option JobId × Network) :=
  match net.station? code with
  | none => .ok (none, net)
  | some _ =>
    let net := net.modifyStation code (·.addProcessor p)
    if p.isGenerative then do
      let (id, net) ← net.seedLoad code p.output
      return (some id, net)
    else .ok (none, net)

end Network

end RailFreight
