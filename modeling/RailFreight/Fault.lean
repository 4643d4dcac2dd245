import RailFreight.Job.Id

/-!
# Faults

A *fault* ends the program: the operation that meets one has no result, not even a
refusal. Faults arise when a count does not fit its 32 bits, when a job is to start from
a station outside the network, and when one id names two jobs.

Counts are natural numbers below `2 ^ 32`; `Count.add`, `Count.mul` and `Count.sub` are
the only operations that can leave that range, and they are faults there.

* `Faulty.bind_eq_ok_iff`: when two steps have a result;
* `Count.add_eq_ok_iff`, `Count.mul_eq_ok_iff`, `Count.sub_eq_ok_iff`: when they have a
  result, and which.
-/

namespace RailFreight

/-- What ends the program. -/
inductive Fault
  /-- A sum does not fit a count. -/
  | sumTooLarge
  /-- A product does not fit a count. -/
  | productTooLarge
  /-- More was taken away than there was. -/
  | belowZero
  /-- A job was to start from a station that is not in the network. -/
  | noSuchStation (origin : StationCode)
  /-- A job id stands in the queues of two stations. -/
  | queuedTwice (job : JobId) (first second : StationCode)
  deriving DecidableEq, Repr

namespace Fault

/-- What is said of a fault. -/
def message : Fault → String
  | sumTooLarge => "attempt to add with overflow"
  | productTooLarge => "attempt to multiply with overflow"
  | belowZero => "attempt to subtract with overflow"
  | noSuchStation origin =>
    "cannot create a job at " ++ origin.name ++ ": station not in network"
  | queuedTwice job first second =>
    "job " ++ job.text ++ " is queued at both " ++ first.name ++ " and " ++ second.name

end Fault

/-- A result, unless a fault came in between. -/
abbrev Faulty := Except Fault

/-- Two steps have a result when the first one has, and the second one on it. -/
theorem Faulty.bind_eq_ok_iff {α β : Type} {x : Faulty α} {f : α → Faulty β} {b : β} :
    (x >>= f) = .ok b ↔ ∃ a, x = .ok a ∧ f a = .ok b := by
  cases x <;> simp [bind, Except.bind]

namespace Count

/-- The first number that is too large for a count. -/
def limit : Nat := UInt32.size

/-- The sum of two counts. -/
def add (a b : Nat) : Faulty Nat :=
  if a + b < limit then .ok (a + b) else .error .sumTooLarge

/-- The product of two counts. -/
def mul (a b : Nat) : Faulty Nat :=
  if a * b < limit then .ok (a * b) else .error .productTooLarge

/-- The difference of two counts. -/
def sub (a b : Nat) : Faulty Nat :=
  if b ≤ a then .ok (a - b) else .error .belowZero

theorem add_eq_ok_iff {a b n : Nat} : add a b = .ok n ↔ a + b < limit ∧ n = a + b := by
  rw [add]
  split <;> simp [*, eq_comm]

theorem mul_eq_ok_iff {a b n : Nat} : mul a b = .ok n ↔ a * b < limit ∧ n = a * b := by
  rw [mul]
  split <;> simp [*, eq_comm]

theorem sub_eq_ok_iff {a b n : Nat} : sub a b = .ok n ↔ b ≤ a ∧ n = a - b := by
  rw [sub]
  split <;> simp [*, eq_comm]

end Count

end RailFreight
