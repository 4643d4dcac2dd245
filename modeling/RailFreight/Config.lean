/-!
# Configuration

What can be set from outside. Everything has a default, so a configuration need only
name what it changes.
-/

namespace RailFreight

/-- The sizes and times of the notifier. -/
structure NotifierConfig where
  /-- How many commands may wait for the notifier. -/
  inboxCapacity : Nat := 256
  /-- How many events may wait for a subscriber. -/
  outboxCapacity : Nat := 64
  /-- How long a publisher waits for room among the commands, in milliseconds. -/
  publishTimeoutMs : Nat := 50
  deriving DecidableEq, Repr, Inhabited

/-- The settings of a network and its notifier. -/
structure Config where
  /-- The seed of the random draws. -/
  seed : UInt64 := 0
  /-- The ceiling on the cars of a job. -/
  maxCars : Nat := 12
  notifier : NotifierConfig := {}
  deriving DecidableEq, Repr, Inhabited

namespace NotifierConfig

/-- The whole seconds that a publisher waits. -/
def publishTimeoutSeconds (c : NotifierConfig) : Nat := c.publishTimeoutMs / 1000

end NotifierConfig

namespace Config

/-- What keeps a configuration from being used. -/
inductive Unusable
  | noCars | noInbox | noOutbox
  deriving DecidableEq, Repr

/-- What is said of an unusable configuration. -/
def Unusable.message : Unusable → String
  | noCars => "max_cars_per_job must be at least 1"
  | noInbox => "notifier.inbox_capacity must be at least 1"
  | noOutbox => "notifier.outbox_capacity must be at least 1"

/-- The first thing that keeps the configuration from being used. -/
def unusable? (c : Config) : Option Unusable :=
  if c.maxCars = 0 then some .noCars
  else if c.notifier.inboxCapacity = 0 then some .noInbox
  else if c.notifier.outboxCapacity = 0 then some .noOutbox
  else none

/-- A configuration is usable when every size is positive. -/
theorem unusable?_eq_none_iff (c : Config) :
    c.unusable? = none ↔
      0 < c.maxCars ∧ 0 < c.notifier.inboxCapacity ∧ 0 < c.notifier.outboxCapacity := by
  rw [unusable?]
  repeat' split
  all_goals simp_all
  all_goals omega

end Config

end RailFreight
