/-!
# Scenarios

A *scenario* lists jobs to be run one after the other, each by a user: the one that its
step names, or else the one that the scenario names, or else a default one.
-/

namespace RailFreight

/-- A job to run. -/
structure ScenarioStep where
  job : String
  user : Option String
  deriving DecidableEq, Repr, Inhabited

/-- Jobs to run in order. -/
structure Scenario where
  /-- Who runs the steps that name no user. -/
  user : Option String
  steps : List ScenarioStep
  deriving DecidableEq, Repr, Inhabited

namespace Scenario

/-- Who runs a step when nobody is named. -/
def defaultUser : String := "scenario"

/-- A scenario that runs jobs as `user`. -/
def ofJobs (user : Option String) (jobs : List String) : Scenario :=
  ⟨user, jobs.map fun job => ⟨job, none⟩⟩

/-- The name of the user who runs a step. -/
def userFor (s : Scenario) (step : ScenarioStep) : String :=
  (step.user.or s.user).getD defaultUser

end Scenario

end RailFreight
