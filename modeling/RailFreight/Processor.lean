import RailFreight.Cargo
import RailFreight.Fault

/-!
# Processors

A *processor* turns cargo delivered to its station into cargo to ship. Its *blueprint*
says how much of each cargo one unit of output takes; a need of `0` counts as `1`.
Delivered cargo waits in its *buffer* until there is enough of everything. A processor
that needs nothing is *generative*: it never consumes, and its station makes jobs for its
output out of nothing. One whose output is nothing is a *sink*.
-/

namespace RailFreight

/-- Amounts of cargo. -/
abbrev Stock := Table Cargo Nat

namespace Stock

/-- The amount of `cargo`. -/
def amount (s : Stock) (cargo : Cargo) : Nat := s.getD cargo 0

/-- Adds to the amount of `cargo`. -/
def add (s : Stock) (cargo : Cargo) (count : Nat) : Faulty Stock := do
  let total ← Count.add (s.amount cargo) count
  return s.insert cargo total

/-- The amounts above zero, in the order of the cargo. -/
def toList (s : Stock) : List (Cargo × Nat) := s.entries.filter fun e => e.2 ≠ 0

end Stock

/-- A processor of a station. -/
structure Processor where
  /-- What one unit of output takes. -/
  blueprint : Stock
  /-- What has been delivered and not been used. -/
  buffer : Stock
  output : Cargo
  /-- Where the output may be sent. -/
  destinations : List StationCode
  deriving DecidableEq

namespace Processor

/-- A processor with nothing in its buffer. -/
def ofBlueprint (blueprint : Stock) (output : Cargo) (destinations : List StationCode) :
    Processor where
  blueprint := blueprint
  buffer := Table.empty
  output := output
  destinations := destinations

/-- The blueprint that needs nothing. -/
def needsNothing : Stock := Table.empty.insert .nothing 1

/-- A processor that produces from nothing. -/
def generative (output : Cargo) (destinations : List StationCode) : Processor :=
  ofBlueprint needsNothing output destinations

/-- Whether the blueprint names no cargo, apart from `Cargo.nothing`. -/
def isGenerative (p : Processor) : Bool := p.blueprint.keys.all (· = .nothing)

/-- Whether the processor only consumes. -/
def isSink (p : Processor) : Bool := p.output = .nothing

/-- The cargo that the processor needs, in order. -/
def inputs (p : Processor) : List Cargo := p.blueprint.keys.filter (· ≠ .nothing)

/-- Whether `cargo` stands in the blueprint. -/
def accepts (p : Processor) (cargo : Cargo) : Bool := p.blueprint.contains cargo

/-- How much of `cargo` waits in the buffer. -/
def buffered (p : Processor) (cargo : Cargo) : Nat := p.buffer.amount cargo

/-- Puts a delivery into the buffer. -/
def accumulate (p : Processor) (cargo : Cargo) (count : Nat) : Faulty Processor := do
  let buffer ← p.buffer.add cargo count
  return { p with buffer }

/-- How much one unit takes of a cargo that the blueprint needs `need` of. -/
def perUnit (need : Nat) : Nat := max need 1

/-- How many units the buffer is enough for. -/
def affordable (p : Processor) : Nat :=
  (p.blueprint.entries.map fun e => p.buffered e.1 / perUnit e.2).min?.getD 0

/-- The buffer after `units` units, each of which takes what `needs` lists. -/
def consume (units : Nat) (buffer : Stock) : List (Cargo × Nat) → Faulty Stock
  | [] => .ok buffer
  | (cargo, need) :: needs =>
    match buffer.get? cargo with
    | none => consume units buffer needs
    | some held => do
      let used ← Count.mul units (perUnit need)
      let left ← Count.sub held used
      consume units (buffer.insert cargo left) needs

/-- Produces as many units as the buffer is enough for, and answers with their number. -/
def tryProduce (p : Processor) : Faulty (Nat × Processor) :=
  if p.isGenerative || p.affordable = 0 then .ok (0, p) else do
    let buffer ← consume p.affordable p.buffer p.blueprint.entries
    return (p.affordable, { p with buffer })

end Processor

end RailFreight
