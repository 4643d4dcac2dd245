import RailFreight.Board
import RailFreight.Config
import RailFreight.Network.Standard
import RailFreight.Relay
import RailFreight.Scenario

/-!
# Running a scenario

A scenario runs on a board over the standard network, step after step. Each step reserves,
takes and finishes its job, up to the first request that is refused; a refused step does
not keep the later ones from being run. What the board announces is sent to a notifier, which
passes it on while the steps go on. An observer watches every station, and when all steps are
done draws the events that come through, up to the first time that none is there.

* `ScenarioRun.step_of_blank`: a step of a user without a name fails and changes nothing.
-/

namespace RailFreight

/-- The state of a scenario that is being run. -/
structure ScenarioRun where
  board : Board
  relay : Relay
  /-- How many steps have failed. -/
  failed : Nat

/-- What has come of a scenario. -/
structure ScenarioReport where
  /-- The events that came through to the observer. -/
  events : List StationChanged
  stats : NotifierStats
  /-- How many steps there were. -/
  steps : Nat
  /-- How many of them failed. -/
  failed : Nat
  deriving DecidableEq

namespace ScenarioRun

/-- Who watches a run. -/
def observer : User := ⟨"observer", by decide, by decide⟩

/-- The id that the observer is given. -/
def observerId (config : NotifierConfig) : SubscriberId := (Notifier.start config).issue.1

/-- What the observer tells the notifier: who they are, and that they watch every station. -/
def greeting (id : SubscriberId) : List Message :=
  .join id observer :: StationCode.all.map (.subscribe id)

/-- The relay to a notifier that nobody but the observer has joined. -/
def observed (pace : Pace) (config : NotifierConfig) : Relay :=
  { Relay.start pace config with notifier := (Notifier.start config).issue.2 }.sendAll
    (greeting (observerId config))

/-- The state before the first step. -/
def start (pace : Pace) (config : Config) : Faulty ScenarioRun := do
  return {
    board := Board.new (← Network.standard config)
    relay := observed pace config.notifier
    failed := 0 }

/-- Makes a request of the board and publishes what the board announces. Answers with
    whether the request was granted. -/
def request {α : Type} (r : ScenarioRun) (ask : Board → Faulty (BoardReply α)) :
    Faulty (Bool × ScenarioRun) := do
  let reply ← ask r.board
  return (reply.result.isOk, { r with
    board := reply.board
    relay := r.relay.publishAll (reply.announced.map StationChanged.mk) })

/-- Reserves, takes and finishes a job, up to the first refusal. Answers with whether there
    was none. -/
def runJob (r : ScenarioRun) (user : User) (id : JobId) : Faulty (Bool × ScenarioRun) := do
  let (reserved, r) ← r.request (·.reserve user id)
  if !reserved then return (false, r)
  let (taken, r) ← r.request (·.take user id)
  if !taken then return (false, r)
  r.request (·.finish user id)

/-- Counts a step that failed. -/
def fail (r : ScenarioRun) : ScenarioRun := { r with failed := r.failed + 1 }

/-- Runs a step under the name of its user. -/
def step (r : ScenarioRun) (user : String) (job : String) : Faulty ScenarioRun :=
  match User.ofText? user with
  | none => .ok r.fail
  | some user => do
    let (finished, r) ← r.runJob user ⟨job⟩
    return if finished then r else r.fail

/-- A step of a user without a name fails and changes nothing. -/
theorem step_of_blank {user : String} (h : User.ofText? user = none) (r : ScenarioRun)
    (job : String) : r.step user job = .ok { r with failed := r.failed + 1 } := by
  rw [step, h, fail]

end ScenarioRun

namespace Scenario

/-- Runs the steps of a scenario on the standard network of a configuration. -/
def play (s : Scenario) (pace : Pace) (config : Config) : Faulty ScenarioRun := do
  s.steps.foldlM (fun r step => r.step (s.userFor step) step.job)
    (← ScenarioRun.start pace config)

/-- Runs a scenario and draws the events that come through. The notifier is stopped after that. -/
def run (s : Scenario) (pace : Pace) (config : Config) : Faulty ScenarioReport := do
  let r ← s.play pace config
  let (events, relay) := r.relay.drawAll (ScenarioRun.observerId config.notifier)
  return {
    events
    stats := relay.shutdown.stats
    steps := s.steps.length
    failed := r.failed }

end Scenario

end RailFreight
