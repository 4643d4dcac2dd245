import RailFreight.CommandLine.Arguments
import RailFreight.CommandLine.Listing
import RailFreight.Loading

/-!
# Executing commands

A command works on the standard network of the loaded configuration. It prints a text and
ends with an exit code, or it fails with a cause (`CommandError`), of which the text and
the exit code are told. The notifier of a scenario works beside the command, at some pace.
-/

namespace RailFreight

/-- What a command leaves behind. -/
structure CommandResult where
  code : UInt32 := 0
  /-- What is printed. -/
  output : String := ""
  /-- What is said of failures. -/
  errors : String := ""
  deriving DecidableEq, Repr, Inhabited

/-- Why a command fails. -/
inductive CommandError
  | misused
  | configuration (error : LoadError)
  | script (error : LoadError)
  | blankUser
  /-- A scenario was given neither jobs nor a script. -/
  | nothingToRun
  | fault (f : Fault)
  deriving DecidableEq

namespace CommandError

/-- The exit code of a failure. -/
def code : CommandError → UInt32
  | misused => 2
  | fault _ => 101
  | _ => 1

/-- What is said of a failure. -/
def message : CommandError → String
  | misused => "usage: freightyard [OPTIONS] stations|jobs|scenario|check"
  | configuration error => "Error: loading configuration: " ++ error.message
  | script error => "Error: loading scenario: " ++ error.message
  | blankUser => "Error: --user: " ++ User.blankMessage
  | nothingToRun => "Error: scenario: give job ids or --script FILE"
  | fault f => f.message

/-- What a failed command leaves behind. -/
def result (e : CommandError) : CommandResult where
  code := e.code
  errors := Text.lines [e.message]

end CommandError

namespace Command

/-- A result, unless a fault came in between. -/
def orFault {α : Type} (x : Faulty α) : Except CommandError α := x.mapError .fault

/-- The table of stations, or the document of their summaries. -/
def listStations (config : Config) (json : Bool) : Except CommandError CommandResult := do
  let summaries := (← orFault (Network.standard config)).summaries
  return { output := if json then documentText summaries else stationTable summaries }

/-- The user of a name that is given. -/
def namedUser : Option String → Except CommandError (Option User)
  | none => .ok none
  | some name =>
    match User.ofText? name with
    | none => .error .blankUser
    | some user => .ok (some user)

/-- The table of the jobs that `user` is shown at a station, or the document of them. -/
def listJobs (config : Config) (station : StationCode) (user : Option String) (json : Bool) :
    Except CommandError CommandResult := do
  let user ← namedUser user
  let net ← orFault (Network.standard config)
  let views := (net.visibleJobs station user).map Job.view
  return { output := if json then documentText views else jobTable station views }

/-- Runs a scenario. -/
def runScenario (pace : Pace) (config : Config) (scenario : Scenario) :
    Except CommandError CommandResult := do
  let report ← orFault (scenario.run pace config)
  return {
    code := if report.failed = 0 then 0 else 1
    output := report.text
    errors := report.failures }

/-- Audits the network. -/
def auditNetwork (config : Config) : Except CommandError CommandResult := do
  let net ← orFault (Network.standard config)
  return {
    code := if net.violations = [] ∧ net.supplyGaps = [] then 0 else 1
    output := net.auditText }

/-- Executes a command under a configuration. -/
def execute (command : Command) (pace : Pace) (config : Config) (files : Files) :
    Except CommandError CommandResult :=
  match command with
  | .stations json => listStations config json
  | .jobs station user json => listJobs config station user json
  | .script user path => do
    let scenario ← (Scenario.load files path).mapError .script
    runScenario pace config { scenario with user := user.or scenario.user }
  | .scenario _ [] => .error .nothingToRun
  | .scenario user ids => runScenario pace config (Scenario.ofJobs user ids)
  | .check => auditNetwork config

end Command

namespace Invocation

/-- The configuration of a command: the loaded one, with the seed that is given. -/
def loadConfig (i : Invocation) (folder : String) (files : Files) :
    Except CommandError Config := do
  let config ← (Config.loadOrStandard files i.config folder).mapError .configuration
  return { config with seed := i.seed.getD config.seed }

/-- Executes a command in a folder. -/
def execute (i : Invocation) (pace : Pace) (folder : String) (files : Files) :
    Except CommandError CommandResult := do
  i.command.execute pace (← i.loadConfig folder files) files

/-- The paths that a command may ask the entries of. -/
def paths (i : Invocation) (folder : String) : List String :=
  (match i.config with
    | some path => [path]
    | none => Files.candidates folder Config.fileName) ++
  (match i.command with
    | .script _ path => [path]
    | _ => [])

end Invocation

/-- Executes a command line in a folder. -/
def executeLine (arguments : List String) (folder : String) (files : Files) :
    Except CommandError CommandResult :=
  match Invocation.parse arguments with
  | .ok i => i.execute .steady folder files
  | .error .help => .ok { output := Text.lines [CommandError.misused.message] }
  | .error .wrong => .error .misused

end RailFreight
