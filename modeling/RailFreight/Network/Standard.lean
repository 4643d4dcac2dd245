import RailFreight.Network.Revalidation

/-!
# Networks that are built in

The standard network has all stations, the processors that make cargo from nothing, and
those that turn delivered cargo into other cargo. The sawmill network is a small one:
a single station that makes boards and plywood from logs.
-/

namespace RailFreight.Network

/-- The stations, each with the range of cars of its jobs made out of nothing. -/
def carRanges : List (StationCode × Nat × Nat) :=
  [(.csw, 5, 8), (.cm, 6, 12), (.ff, 6, 12), (.fm, 6, 12), (.frc, 4, 7), (.frs, 4, 7),
   (.gf, 4, 8), (.hb, 6, 12), (.hmb, 4, 9), (.ime, 5, 10), (.imw, 5, 10), (.mf, 4, 8),
   (.mb, 3, 6), (.owc, 6, 12), (.own, 6, 12), (.sw, 2, 6), (.sm, 2, 6)]

/-- What is made from nothing, where, and where it may be sent. -/
def sources : List (StationCode × Cargo × List StationCode) :=
  [(.csw, .scrapMetal, [.sm]), (.cm, .coal, [.sm]), (.fm, .pigs, [.ff]), (.fm, .sheep, [.ff]),
   (.fm, .chickens, [.ff]), (.fm, .cows, [.ff]), (.fm, .wheat, [.ff]), (.frc, .logs, [.sw]),
   (.frs, .logs, [.sw]), (.hb, .ammonia, [.ff]), (.hb, .importedNewCars, [.csw]),
   (.hb, .clothingNeoGamma, [.csw]), (.hb, .medicine, [.csw]), (.hb, .clothingNovae, [.csw]),
   (.hb, .acetylene, [.gf]), (.hb, .cryoHydrogen, [.gf]), (.hb, .cryoOxygen, [.gf]),
   (.hb, .methane, [.gf]), (.ime, .ironOre, [.sm]), (.imw, .ironOre, [.sm]),
   (.owc, .crudeOil, [.hb]), (.own, .crudeOil, [.hb])]

/-- What is made of delivered cargo, where, from what, and where it may be sent. -/
def transforms : List (StationCode × List (Cargo × Nat) × Cargo × List StationCode) :=
  [(.hb, [(.crudeOil, 1)], .diesel, [.csw]),
   (.ff, [(.wheat, 1)], .alcohol, [.hb]),
   (.ff, [(.pigs, 1)], .cannedFood, [.hb, .csw]),
   (.ff, [(.chickens, 1)], .catFood, [.hb, .csw]),
   (.ff, [(.cows, 2)], .meatProducts, [.csw]),
   (.ff, [(.sheep, 2)], .meatProducts, [.csw]),
   (.gf, [(.steelBillets, 1)], .toolsIskar, [.mf, .csw]),
   (.gf, [(.steelBillets, 1)], .toolsBrohm, [.mf, .csw]),
   (.gf, [(.steelBillets, 1)], .toolsAag, [.mf, .csw]),
   (.gf, [(.steelBillets, 1)], .toolsNovae, [.mf, .csw]),
   (.gf, [(.steelBillets, 1)], .toolsTraeg, [.mf, .csw]),
   (.mf, [(.steelBillets, 1), (.steelSlabs, 1)], .excavators, [.ime, .imw, .cm]),
   (.mf, [(.steelBillets, 1), (.steelSlabs, 1)], .newCars, [.csw, .hb]),
   (.sw, [(.logs, 1)], .boards, [.gf]),
   (.sw, [(.logs, 1)], .plywood, [.gf]),
   (.sm, [(.coal, 1), (.ironOre, 2)], .steelSlabs, [.gf, .mf]),
   (.sm, [(.coal, 1), (.ironOre, 2)], .steelBillets, [.gf, .mf])]

/-- Adds processors one after the other. -/
def addProcessors (net : Network) : List (StationCode × Processor) → Faulty Network
  | [] => .ok net
  | (code, p) :: rest => do
    let (_, net) ← net.addProcessor code p
    net.addProcessors rest

/-- The processors of the standard network, with their stations. -/
def standardProcessors : List (StationCode × Processor) :=
  (sources.map fun (code, output, destinations) =>
    (code, Processor.generative output destinations)) ++
  transforms.map fun (code, needs, output, destinations) =>
    (code, Processor.ofBlueprint (Table.ofList needs) output destinations)

/-- The standard network before any job is spawned. -/
def unsettled (config : Config) : Faulty Network :=
  let net := carRanges.foldl (fun net (code, lo, hi) => net.addStation code lo hi) (empty config)
  net.addProcessors standardProcessors

/-- The standard network, with the jobs spawned that can be. -/
def standard (config : Config) : Faulty Network := do
  let net ← unsettled config
  return net.revalidate.2

/-- The sawmill network: one station that makes boards and plywood from logs. -/
def sawmill (seed : UInt64) : Faulty Network :=
  let net := (empty { seed }).addStation .sw 2 6
  net.addProcessors <| [Cargo.boards, Cargo.plywood].map fun output =>
    (.sw, Processor.ofBlueprint (Table.ofList [(.logs, 1)]) output [.gf])

end RailFreight.Network
