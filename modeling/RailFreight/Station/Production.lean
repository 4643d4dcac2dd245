import RailFreight.Station.Basic

/-!
# Production at a station

Cargo delivered to a station goes to one of its processors: they take turns, and the
first one in turn that accepts the cargo gets all of it. What the processor then
produces is folded into the queue: it joins the first load of that cargo that nobody has
claimed, or else makes a load of its own, and what exceeds the ceiling of the load goes
to the overflow.
-/

namespace RailFreight

/-- The wage per car of a load made from folded output. -/
def foldedWagePerCar : Nat := 1000

/-- Where folded output went. -/
inductive Folded
  /-- Onto a load that stood in the queue. -/
  | merged (job : JobId) (overflow : Nat)
  /-- Onto a new load. -/
  | created (job : JobId) (overflow : Nat)
  deriving DecidableEq, Repr

namespace Folded

/-- The load that got the output. -/
def job : Folded → JobId
  | merged job _ => job
  | created job _ => job

/-- The cars that went to the overflow. -/
def overflow : Folded → Nat
  | merged _ overflow => overflow
  | created _ overflow => overflow

end Folded

/-- A list split at its first element that satisfies `p`. -/
def splitFirst? {α : Type} (p : α → Bool) : List α → Option (List α × α × List α)
  | [] => none
  | x :: xs =>
    if p x then some ([], x, xs)
    else (splitFirst? p xs).map fun (before, y, after) => (x :: before, y, after)

/-- The parts of a list split at its first match make up the list. -/
theorem append_of_splitFirst? {α : Type} {p : α → Bool} {xs before after : List α} {y : α}
    (h : splitFirst? p xs = some (before, y, after)) :
    xs = before ++ y :: after ∧ p y ∧ ∀ x ∈ before, ¬ p x := by
  induction xs generalizing before y after with
  | nil => simp [splitFirst?] at h
  | cons x xs ih =>
    rw [splitFirst?] at h
    split at h
    · rename_i hx
      simp only [Option.some.injEq, Prod.mk.injEq] at h
      obtain ⟨rfl, rfl, rfl⟩ := h
      exact ⟨rfl, hx, fun _ h => absurd h List.not_mem_nil⟩
    · rename_i hx
      obtain ⟨⟨b, z, a⟩, hs, he⟩ := Option.map_eq_some_iff.1 h
      simp only [Prod.mk.injEq] at he
      obtain ⟨rfl, rfl, rfl⟩ := he
      obtain ⟨rfl, hz, hb⟩ := ih hs
      refine ⟨rfl, hz, fun w hw => ?_⟩
      rcases List.mem_cons.1 hw with rfl | hw
      · exact hx
      · exact hb w hw

/-- A list is not split exactly when no element satisfies `p`. -/
theorem splitFirst?_eq_none_iff {α : Type} {p : α → Bool} {xs : List α} :
    splitFirst? p xs = none ↔ ∀ x ∈ xs, ¬ p x := by
  induction xs with
  | nil => simp [splitFirst?]
  | cons x xs ih =>
    rw [splitFirst?]
    split
    · rename_i hx
      simp [hx]
    · rename_i hx
      simp only [Option.map_eq_none_iff, ih, List.forall_mem_cons]
      exact ⟨fun h => ⟨hx, h⟩, fun h => h.2⟩

namespace Station

/-- The places of the processors in the order in which they are asked. -/
def turns (s : Station) : List Nat :=
  (List.range s.processors.length).map fun k => (s.cursor + k) % s.processors.length

/-- The place of the first processor in turn that accepts `cargo`, and the processor. -/
def acceptor? (s : Station) (cargo : Cargo) : Option (Nat × Processor) :=
  s.turns.findSome? fun i =>
    (s.processors[i]?).bind fun p => if p.accepts cargo then some (i, p) else none

/-- Delivers `count` cars of `cargo`, and answers with what was produced of which output.
    The next delivery asks the processor behind the one that got the cargo first. When none
    accepts it, the cargo is lost, and the turn passes on all the same. -/
def intake (s : Station) (cargo : Cargo) (count : Nat) :
    Faulty (Option (Cargo × Nat) × Station) :=
  if s.processors.isEmpty then .ok (none, s) else
    match s.acceptor? cargo with
    | none => .ok (none, { s with cursor := (s.cursor + 1) % s.processors.length })
    | some (i, p) => do
      let (units, p) ← (← p.accumulate cargo count).tryProduce
      let s := { s with
        cursor := (i + 1) % s.processors.length
        processors := s.processors.set i p }
      return (if units = 0 || p.isSink then none else some (p.output, units), s)

/-- Folds `count` cars of output into the queue, on loads of at most `ceiling` cars. -/
def fold (s : Station) (cargo : Cargo) (count ceiling : Nat) : Faulty (Folded × Station) :=
  match splitFirst? (·.isMergeableLoad cargo) s.queue with
  | some (before, load, after) => do
    let (load, overflow) ← load.addCars count ceiling
    let s ← { s with queue := before ++ load :: after }.addOverflow cargo overflow
    return (.merged load.id overflow, s)
  | none => do
    let cars := min count ceiling
    let overflow := count - cars
    let wage ← Count.mul cars foldedWagePerCar
    let (id, s) ← s.addJob .shuntingLoad s.code cars cargo wage
    let s ← s.addOverflow cargo overflow
    return (.created id overflow, s)

end Station

end RailFreight
