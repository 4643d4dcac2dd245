import RailFreight.Network.Basic

/-!
# Dispatch

What the cargo of a finished job does at its destination:

* unloaded cargo is delivered to the processors, and what they produce is folded into the
  queue;
* arrived freight is to be unloaded;
* a load that was shipped goes on as freight to a destination drawn from those of the
  processor that makes its cargo; one that makes it from nothing brings the next load.
  Cargo that waited for room on the load is then folded into the queue.
-/

namespace RailFreight

/-- The wage per car for unloading freight. -/
def unloadWagePerCar : Nat := 500

/-- The jobs that a dispatch touched. -/
structure Dispatch where
  /-- The new jobs, in the order of their creation. -/
  created : List JobId
  /-- The loads that got more cars. -/
  merged : List JobId
  deriving DecidableEq, Repr

namespace Dispatch

/-- Nothing touched. -/
def none : Dispatch := ⟨[], []⟩

/-- Adds a new job. -/
def create (d : Dispatch) (id : JobId) : Dispatch := { d with created := d.created ++ [id] }

/-- Adds the load that got folded output; a load is listed once. -/
def record (d : Dispatch) : Folded → Dispatch
  | .created job _ => d.create job
  | .merged job _ => if job ∈ d.merged then d else { d with merged := d.merged ++ [job] }

end Dispatch

namespace Network

/-- Folds output into the queue of a station. -/
def foldAt (net : Network) (s : Station) (cargo : Cargo) (count : Nat) (d : Dispatch) :
    Faulty (Dispatch × Network) := do
  let (folded, s) ← s.fold cargo count net.config.maxCars
  return (d.record folded, net.putStation s)

/-- Sends a shipped load on as freight, if its producer names destinations. -/
def forward (net : Network) (s : Station) (p : Processor) (load : Job) (d : Dispatch) :
    Faulty (Dispatch × Network) :=
  match net.generator.pick p.destinations with
  | (none, generator) => .ok (d, { net with generator })
  | (some target, generator) => do
    let (id, net) ← { net with generator }.createJob s.code .freight target load.cars load.cargo
      load.wage
    return (d.create id, net)

/-- Brings the next load of a cargo that is made from nothing. -/
def replenish (net : Network) (s : Station) (p : Processor) (d : Dispatch) :
    Faulty (Dispatch × Network) :=
  if p.isGenerative then do
    let (id, net) ← net.seedLoad s.code p.output
    return (d.create id, net)
  else .ok (d, net)

/-- Folds the cargo that waited for room into the queue. -/
def drainOverflow (net : Network) (code : StationCode) (cargo : Cargo) (d : Dispatch) :
    Faulty (Dispatch × Network) :=
  match net.station? code with
  | none => .ok (d, net)
  | some s =>
    let (held, s) := s.takeOverflow cargo
    if held = 0 then .ok (d, net.putStation s) else net.foldAt s cargo held d

/-- Lets the cargo of a finished job take effect at its destination; outside the network
    it is lost. -/
def dispatch (net : Network) (finished : Job) : Faulty (Dispatch × Network) :=
  match net.station? finished.destination with
  | none => .ok (.none, net)
  | some s =>
    match finished.kind with
    | .shuntingUnload => do
      let (produced, s) ← s.intake finished.cargo finished.cars
      match produced with
      | none => return (.none, net.putStation s)
      | some (output, units) => net.foldAt s output units .none
    | .freight => do
      let wage ← Count.mul finished.cars unloadWagePerCar
      let (id, s) ← s.addJob .shuntingUnload s.code finished.cars finished.cargo wage
      return (Dispatch.none.create id, net.putStation s)
    | .shuntingLoad => do
      let (d, net) ← match s.producerOf? finished.cargo with
        | none => Except.ok (Dispatch.none, net)
        | some p => do
          let (d, net) ← net.forward s p finished .none
          net.replenish s p d
      net.drainOverflow s.code finished.cargo d
    | .logistics => .ok (.none, net)

end Network

end RailFreight
