import RailFreight.Config
import RailFreight.Scenario
import RailFreight.Wire.Basic

/-!
# Configurations and scenarios in documents

A configuration or a scenario is read alike from every dialect. In a configuration
everything may be missing; a scenario must list its steps, and a step its job.
-/

namespace RailFreight

variable {ν : Type}

/-- The notifier settings of a document. -/
def NotifierConfig.read? (d : Dialect ν) (v : ν) : Option NotifierConfig := do
  let f ← d.fields "NotifierConfig"
    ["inbox_capacity", "outbox_capacity", "publish_timeout_ms"] v
  let standard : NotifierConfig := {}
  return {
    inboxCapacity :=
      ← f.withDefault "inbox_capacity" standard.inboxCapacity (d.below limit64)
    outboxCapacity :=
      ← f.withDefault "outbox_capacity" standard.outboxCapacity (d.below limit64)
    publishTimeoutMs :=
      ← f.withDefault "publish_timeout_ms" standard.publishTimeoutMs (d.below limit64) }

/-- The configuration of a document. -/
def Config.read? (d : Dialect ν) (v : ν) : Option Config := do
  let f ← d.fields "EngineConfig" ["seed", "max_cars_per_job", "notifier"] v
  let standard : Config := {}
  return {
    seed := UInt64.ofNat (← f.withDefault "seed" standard.seed.toNat (d.below limit64))
    maxCars := ← f.withDefault "max_cars_per_job" standard.maxCars (d.below limit32)
    notifier := ← f.withDefault "notifier" standard.notifier (NotifierConfig.read? d) }

/-- The step of a document. -/
def ScenarioStep.read? (d : Dialect ν) (v : ν) : Option ScenarioStep := do
  let f ← d.fields "ScenarioStep" ["job", "user"] v
  return {
    job := ← f.required "job" d.string
    user := ← f.withDefault "user" none (d.optionalOf d.string) }

/-- The scenario of a document. -/
def Scenario.read? (d : Dialect ν) (v : ν) : Option Scenario := do
  let f ← d.fields "ScenarioScript" ["user", "steps"] v
  return {
    user := ← f.withDefault "user" none (d.optionalOf d.string)
    steps := ← f.required "steps" (d.listOf (ScenarioStep.read? d)) }

instance : Wire NotifierConfig where
  encode c := .record
    [("inbox_capacity", .ofNat c.inboxCapacity), ("outbox_capacity", .ofNat c.outboxCapacity),
     ("publish_timeout_ms", .ofNat c.publishTimeoutMs)]
  decode? := NotifierConfig.read? Json.dialect

instance : Wire Config where
  encode c := .record
    [("seed", .ofNat c.seed.toNat), ("max_cars_per_job", .ofNat c.maxCars),
     ("notifier", encode c.notifier)]
  decode? := Config.read? Json.dialect

instance : Wire ScenarioStep where
  encode s := .record [("job", .ofString s.job), ("user", .optional .ofString s.user)]
  decode? := ScenarioStep.read? Json.dialect

instance : Wire Scenario where
  encode s := .record
    [("user", .optional .ofString s.user), ("steps", Wire.encodeList s.steps)]
  decode? := Scenario.read? Json.dialect

end RailFreight
