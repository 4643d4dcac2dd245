import RailFreight.Station.Basic

/-!
# Summaries of stations

What a station takes in and gives out, how far its jobs have come, and what waits in its
overflow.
-/

namespace RailFreight

/-- An overview of a station. -/
structure StationSummary where
  station : StationCode
  /-- What its processors need. -/
  inputs : List Cargo
  /-- What its processors produce. -/
  outputs : List Cargo
  /-- How many jobs are queued. -/
  queued : Nat
  /-- How many jobs are spawned, the active ones among them. -/
  spawned : Nat
  /-- How many jobs are active. -/
  active : Nat
  overflow : Stock
  deriving DecidableEq

/-- The overview of the station. -/
def Station.summary (s : Station) : StationSummary where
  station := s.code
  inputs := sortedUnique (s.processors.flatMap Processor.inputs)
  outputs := sortedUnique ((s.processors.map Processor.output).filter (· ≠ .nothing))
  queued := s.queue.countP fun j => !j.isSpawned
  spawned := s.queue.countP Job.isSpawned
  active := s.queue.countP Job.isActive
  overflow := s.overflow

end RailFreight
