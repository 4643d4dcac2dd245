import RailFreight.Table

/-!
# Cargo

The kinds of cargo that jobs carry. Each belongs to one wage tier, which sets the base
wage per car. `Cargo.nothing` stands where no cargo is meant: it is the only need of a
processor that produces from nothing, and the output of one that only consumes.
-/

namespace RailFreight

/-- A kind of cargo. -/
inductive Cargo
  | nothing | coal | ironOre | crudeOil | diesel | gasoline | methane | logs | boards | plywood
  | wheat | corn | pigs | cows | chickens | sheep | goats | bread | dairyProducts | meatProducts
  | cannedFood | catFood | steelRolls | steelBillets | steelSlabs | steelBentPlates | steelRails
  | scrapMetal | electronicsIskar | electronicsKrugmann | electronicsAag | electronicsNovae
  | electronicsTraeg | toolsIskar | toolsBrohm | toolsAag | toolsNovae | toolsTraeg | furniture
  | pipes | clothingObco | clothingNeoGamma | clothingNovae | clothingTraeg | medicine
  | chemicalsIskar | chemicalsSperex | newCars | importedNewCars | tractors | excavators | alcohol
  | acetylene | cryoOxygen | cryoHydrogen | argon | nitrogen | ammonia | sodiumHydroxide
  | spentNuclearFuel | ammunition | biohazard | tanks | militaryTrucks | militarySupplies
  | emptySunOmni | emptyIskar | emptyObco | emptyGoorsk | emptyKrugmann | emptyBrohm | emptyAag
  | emptySperex | emptyNovae | emptyTraeg | emptyChemlek | emptyNeoGamma
  deriving DecidableEq, Repr, Inhabited

namespace Cargo

/-- The wage tiers. -/
inductive Tier
  | raw | danger | easy | complex
  deriving DecidableEq, Repr

namespace Tier

/-- The tiers in order. -/
def all : List Tier := [raw, danger, easy, complex]

/-- The name of a tier. -/
def name : Tier → String
  | raw => "Raw"
  | danger => "Danger"
  | easy => "Easy"
  | complex => "Complex"

/-- The wage per car. -/
def baseWage : Tier → Nat
  | raw => 400
  | danger => 1000
  | easy => 600
  | complex => 800

/-- The tier of that name. -/
def ofName? (text : String) : Option Tier := all.find? fun t => t.name = text

theorem ofName?_name (t : Tier) : ofName? t.name = some t := by cases t <;> decide

end Tier

/-- The kinds of cargo in order. -/
def all : List Cargo :=
  [nothing, coal, ironOre, crudeOil, diesel, gasoline, methane, logs, boards, plywood, wheat,
   corn, pigs, cows, chickens, sheep, goats, bread, dairyProducts, meatProducts, cannedFood,
   catFood, steelRolls, steelBillets, steelSlabs, steelBentPlates, steelRails, scrapMetal,
   electronicsIskar, electronicsKrugmann, electronicsAag, electronicsNovae, electronicsTraeg,
   toolsIskar, toolsBrohm, toolsAag, toolsNovae, toolsTraeg, furniture, pipes, clothingObco,
   clothingNeoGamma, clothingNovae, clothingTraeg, medicine, chemicalsIskar, chemicalsSperex,
   newCars, importedNewCars, tractors, excavators, alcohol, acetylene, cryoOxygen, cryoHydrogen,
   argon, nitrogen, ammonia, sodiumHydroxide, spentNuclearFuel, ammunition, biohazard, tanks,
   militaryTrucks, militarySupplies, emptySunOmni, emptyIskar, emptyObco, emptyGoorsk,
   emptyKrugmann, emptyBrohm, emptyAag, emptySperex, emptyNovae, emptyTraeg, emptyChemlek,
   emptyNeoGamma]

/-- The name of a kind of cargo. -/
def name : Cargo → String
  | nothing => "None"
  | coal => "Coal"
  | ironOre => "IronOre"
  | crudeOil => "CrudeOil"
  | diesel => "Diesel"
  | gasoline => "Gasoline"
  | methane => "Methane"
  | logs => "Logs"
  | boards => "Boards"
  | plywood => "Plywood"
  | wheat => "Wheat"
  | corn => "Corn"
  | pigs => "Pigs"
  | cows => "Cows"
  | chickens => "Chickens"
  | sheep => "Sheep"
  | goats => "Goats"
  | bread => "Bread"
  | dairyProducts => "DairyProducts"
  | meatProducts => "MeatProducts"
  | cannedFood => "CannedFood"
  | catFood => "CatFood"
  | steelRolls => "SteelRolls"
  | steelBillets => "SteelBillets"
  | steelSlabs => "SteelSlabs"
  | steelBentPlates => "SteelBentPlates"
  | steelRails => "SteelRails"
  | scrapMetal => "ScrapMetal"
  | electronicsIskar => "ElectronicsIskar"
  | electronicsKrugmann => "ElectronicsKrugmann"
  | electronicsAag => "ElectronicsAAG"
  | electronicsNovae => "ElectronicsNovae"
  | electronicsTraeg => "ElectronicsTraeg"
  | toolsIskar => "ToolsIskar"
  | toolsBrohm => "ToolsBrohm"
  | toolsAag => "ToolsAAG"
  | toolsNovae => "ToolsNovae"
  | toolsTraeg => "ToolsTraeg"
  | furniture => "Furniture"
  | pipes => "Pipes"
  | clothingObco => "ClothingObco"
  | clothingNeoGamma => "ClothingNeoGamma"
  | clothingNovae => "ClothingNovae"
  | clothingTraeg => "ClothingTraeg"
  | medicine => "Medicine"
  | chemicalsIskar => "ChemicalsIskar"
  | chemicalsSperex => "ChemicalsSperex"
  | newCars => "NewCars"
  | importedNewCars => "ImportedNewCars"
  | tractors => "Tractors"
  | excavators => "Excavators"
  | alcohol => "Alcohol"
  | acetylene => "Acetylene"
  | cryoOxygen => "CryoOxygen"
  | cryoHydrogen => "CryoHydrogen"
  | argon => "Argon"
  | nitrogen => "Nitrogen"
  | ammonia => "Ammonia"
  | sodiumHydroxide => "SodiumHydroxide"
  | spentNuclearFuel => "SpentNuclearFuel"
  | ammunition => "Ammunition"
  | biohazard => "Biohazard"
  | tanks => "Tanks"
  | militaryTrucks => "MilitaryTrucks"
  | militarySupplies => "MilitarySupplies"
  | emptySunOmni => "EmptySunOmni"
  | emptyIskar => "EmptyIskar"
  | emptyObco => "EmptyObco"
  | emptyGoorsk => "EmptyGoorsk"
  | emptyKrugmann => "EmptyKrugmann"
  | emptyBrohm => "EmptyBrohm"
  | emptyAag => "EmptyAAG"
  | emptySperex => "EmptySperex"
  | emptyNovae => "EmptyNovae"
  | emptyTraeg => "EmptyTraeg"
  | emptyChemlek => "EmptyChemlek"
  | emptyNeoGamma => "EmptyNeoGamma"

/-- The wage tier of a kind of cargo. -/
def tier : Cargo → Tier
  | nothing | coal | ironOre | logs | wheat | corn | pigs | cows | chickens | sheep | goats
  | scrapMetal | emptySunOmni | emptyIskar | emptyObco | emptyGoorsk | emptyKrugmann | emptyBrohm
  | emptyAag | emptySperex | emptyNovae | emptyTraeg | emptyChemlek | emptyNeoGamma =>
    Tier.raw
  | crudeOil | diesel | gasoline | methane | acetylene | cryoOxygen | cryoHydrogen | argon
  | nitrogen | ammonia | sodiumHydroxide | spentNuclearFuel | ammunition | biohazard | tanks =>
    Tier.danger
  | boards | plywood | bread | dairyProducts | meatProducts | cannedFood | catFood | steelRolls
  | steelBillets | steelSlabs | steelBentPlates | steelRails | pipes | alcohol =>
    Tier.easy
  | electronicsIskar | electronicsKrugmann | electronicsAag | electronicsNovae | electronicsTraeg
  | toolsIskar | toolsBrohm | toolsAag | toolsNovae | toolsTraeg | furniture | clothingObco
  | clothingNeoGamma | clothingNovae | clothingTraeg | medicine | chemicalsIskar | chemicalsSperex
  | newCars | importedNewCars | tractors | excavators | militaryTrucks | militarySupplies =>
    Tier.complex

/-- The wage per car. -/
def baseWage (c : Cargo) : Nat := c.tier.baseWage

/-- The place of a kind of cargo in the order. -/
def index (c : Cargo) : Nat := c.ctorIdx

theorem getElem?_index (c : Cargo) : all[c.index]? = some c := by cases c <;> rfl

theorem mem_all (c : Cargo) : c ∈ all := List.mem_of_getElem? (getElem?_index c)

instance : Ranked Cargo where
  rank := index
  rank_injective h := Option.some.inj ((getElem?_index _).symm.trans (h ▸ getElem?_index _))

/-- The kind of cargo of that name. -/
def ofName? (text : String) : Option Cargo := all.find? fun c => c.name = text

/-- No two kinds of cargo have one name. -/
theorem ofName?_name (c : Cargo) : ofName? c.name = some c := by
  cases c <;> decide +kernel

end Cargo

end RailFreight
