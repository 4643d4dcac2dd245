import RailFreight.Job.View
import RailFreight.Network.Audit
import RailFreight.Scenario.Run
import RailFreight.Station.Summary
import RailFreight.Text.Column
import RailFreight.Wire.News
import RailFreight.Wire.Yard

/-!
# Listings

What the commands print: tables of stations and jobs, the report of a scenario, and the
findings of an audit. Codes of stations and ids of jobs are not filled up to the width of
their columns.
-/

namespace RailFreight

open Text

/-- The head of the table of stations. -/
def StationSummary.heading : String :=
  leftAligned 4 "id" ++ " " ++ rightAligned 6 "queued" ++ " " ++ rightAligned 7 "spawned" ++ " " ++
    rightAligned 6 "active" ++ "  " ++ leftAligned 28 "inputs" ++ " " ++
    leftAligned 28 "outputs" ++ " overflow"

/-- The line of a station. -/
def StationSummary.line (s : StationSummary) : String :=
  s.station.name ++ " " ++ rightAligned 6 (toString s.queued) ++ " " ++
    rightAligned 7 (toString s.spawned) ++ " " ++ rightAligned 6 (toString s.active) ++ "  " ++
    leftAligned 28 (commaSeparated (s.inputs.map Cargo.name)) ++ " " ++
    leftAligned 28 (commaSeparated (s.outputs.map Cargo.name)) ++ " " ++
    commaSeparated (s.overflow.toList.map fun (c, n) => c.name ++ ":" ++ toString n)

/-- The table of stations. -/
def stationTable (summaries : List StationSummary) : String :=
  lines (StationSummary.heading :: summaries.map StationSummary.line)

/-- The line of a job. -/
def JobView.line (v : JobView) : String :=
  v.id.text ++ " " ++ leftAligned 16 v.kind.name ++ " " ++ v.startingTrack ++ " -> " ++
    v.targetStation.name ++ " " ++ leftAligned 10 v.targetTrack ++ " " ++
    rightAligned 2 (toString v.cars) ++ " x " ++ leftAligned 14 v.cargo.name ++ " $" ++
    toString v.wage

/-- The table of the jobs that are shown at a station. -/
def jobTable (station : StationCode) (views : List JobView) : String :=
  if views = [] then lines ["No spawned jobs at " ++ station.name]
  else lines (views.map JobView.line)

/-- Values as a document of many lines. -/
def documentText {α : Type} [Wire α] (values : List α) : String :=
  lines [(Wire.encodeList values).pretty]

/-- What is printed of a scenario: its events, each on a line, and the counts. -/
def ScenarioReport.text (r : ScenarioReport) : String :=
  lines (r.events.map Wire.send ++ [(encode r.stats).pretty])

/-- What is said of the steps that failed. -/
def ScenarioReport.failures (r : ScenarioReport) : String :=
  if r.failed = 0 then ""
  else lines [toString r.failed ++ " of " ++ toString r.steps ++ " steps failed"]

/-- What is printed of an audit. -/
def Network.auditText (net : Network) : String :=
  if net.violations = [] ∧ net.supplyGaps = [] then
    lines ["ok: " ++ toString net.stations.keys.length ++ " stations, " ++
      toString net.jobCount ++ " jobs"]
  else
    lines (net.violations.map (fun v => "violation: " ++ v.message) ++
      net.supplyGaps.map fun g => "supply gap: " ++ g.message)

end RailFreight
