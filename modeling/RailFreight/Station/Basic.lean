import RailFreight.Job.View
import RailFreight.Processor

/-!
# Stations

A *station* keeps the jobs that start from it in a queue, from their creation to their
finish, and works processors. Cargo that no job has room for waits in its *overflow*.
-/

namespace RailFreight

/-- A station. -/
structure Station where
  code : StationCode
  /-- The jobs that start from the station, oldest first. -/
  queue : List Job
  /-- The number of the next job. -/
  nextNumber : Nat
  /-- The place of the processor that is asked first at the next delivery. -/
  cursor : Nat
  processors : List Processor
  /-- The cargo that waits for room on a job. -/
  overflow : Stock
  /-- The least number of cars of a job made out of nothing. -/
  minCars : Nat
  /-- The number of cars that a job made out of nothing stays below. -/
  maxCars : Nat
  deriving DecidableEq

/-- The list with its first element that satisfies `p` changed by `f`. -/
def modifyFirst {α : Type} (p : α → Bool) (f : α → α) : List α → List α
  | [] => []
  | x :: xs => if p x then f x :: xs else x :: modifyFirst p f xs

namespace Station

/-- A station without jobs and processors. Jobs made out of nothing get at least `minCars`
    cars, and fewer than `maxCars`. -/
def new (code : StationCode) (minCars maxCars : Nat) : Station where
  code := code
  queue := []
  nextNumber := 1
  cursor := 0
  processors := []
  overflow := Table.empty
  minCars := minCars
  maxCars := maxCars

/-- The job of that id in the queue. -/
def job? (s : Station) (id : JobId) : Option Job := s.queue.find? (·.id = id)

/-- Changes the job of that id. -/
def modifyJob (s : Station) (id : JobId) (f : Job → Job) : Station :=
  { s with queue := modifyFirst (·.id = id) f s.queue }

/-- Takes the job of that id out of the queue. -/
def removeJob (s : Station) (id : JobId) : Station :=
  { s with queue := s.queue.eraseP (·.id = id) }

/-- Adds a processor behind the others. -/
def addProcessor (s : Station) (p : Processor) : Station :=
  { s with processors := s.processors ++ [p] }

/-- How much of `cargo` waits for room. -/
def overflowOf (s : Station) (cargo : Cargo) : Nat := s.overflow.amount cargo

/-- Puts cargo aside for which there is no room. -/
def addOverflow (s : Station) (cargo : Cargo) (count : Nat) : Faulty Station :=
  if count = 0 then .ok s else do
    let overflow ← s.overflow.add cargo count
    return { s with overflow }

/-- Takes back all of `cargo` that waits for room. -/
def takeOverflow (s : Station) (cargo : Cargo) : Nat × Station :=
  (s.overflowOf cargo, { s with overflow := s.overflow.erase cargo })

/-- Queues a new job under the next number, and answers with its id. -/
def addJob (s : Station) (kind : JobKind) (destination : StationCode) (cars : Nat)
    (cargo : Cargo) (wage : Nat) : Faulty (JobId × Station) := do
  let id := JobId.of s.code kind s.nextNumber
  let nextNumber ← Count.add s.nextNumber 1
  let job := Job.queued id kind s.code destination cars cargo wage
  return (id, { s with nextNumber, queue := s.queue ++ [job] })

/-- The first processor whose output is `cargo`. -/
def producerOf? (s : Station) (cargo : Cargo) : Option Processor :=
  s.processors.find? (·.output = cargo)

end Station

end RailFreight
