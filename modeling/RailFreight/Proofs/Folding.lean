import RailFreight.Proofs.Ledger

/-!
# Folding in parts

Output is folded into a queue as it is made, some cars now and some later. The queue does not tell:
a load that is filled up twice is as full as one that is filled up once with the sum, and what is
left over in two parts is put aside as one. Only where no load takes the output does the first part
make one, and the wage of that load is for the first part alone.

* `Job.filled_add`, `Job.spilled_add`: a load that is filled up in parts;
* `Station.foldAll_of_load`, `Station.exists_foldAll_of_none`: the station after all parts, as a
  function of their sum;
* `Station.Absorbs`: what a station does with output, however it is split;
* `Station.foldAll_eq_fold_sum`: parts and their sum leave the same station, up to that wage.
-/

namespace RailFreight

/-! ## Tables and lists -/

/-- What is put under a key last is there. -/
theorem Table.insert_insert {κ ν : Type} [Ranked κ] (t : Table κ ν) (k : κ) (v w : ν) :
    (t.insert k v).insert k w = t.insert k w :=
  ext_get? fun k' => by
    simp only [get?_insert]
    split <;> rfl

/-- A list is split at its first match. -/
theorem splitFirst?_append_cons {α : Type} {p : α → Bool} {before after : List α} {y : α}
    (hbefore : ∀ x ∈ before, ¬ p x) (hy : p y) :
    splitFirst? p (before ++ y :: after) = some (before, y, after) := by
  induction before with
  | nil => rw [List.nil_append, splitFirst?, if_pos hy]
  | cons x before ih =>
    obtain ⟨hx, hbefore⟩ := List.forall_mem_cons.1 hbefore
    rw [List.cons_append, splitFirst?, if_neg hx, ih hbefore]
    rfl

/-! ## Loads -/

namespace Job

/-- The job with `count` more cars, as far as there is room under the ceiling. -/
def filled (j : Job) (count ceiling : Nat) : Job :=
  { j with cars := min (j.cars + count) (max ceiling j.cars) }

/-- The cars that there is no room for. -/
def spilled (j : Job) (count ceiling : Nat) : Nat := j.cars + count - (j.filled count ceiling).cars

theorem filled_zero (j : Job) (ceiling : Nat) : j.filled 0 ceiling = j := by
  have hcars : min (j.cars + 0) (max ceiling j.cars) = j.cars := by omega
  rw [filled, hcars]

theorem spilled_zero (j : Job) (ceiling : Nat) : j.spilled 0 ceiling = 0 := by
  rw [spilled, filled_zero, Nat.add_zero, Nat.sub_self]

/-- Filling up twice is filling up with the sum. -/
theorem filled_add (j : Job) (m n ceiling : Nat) :
    (j.filled m ceiling).filled n ceiling = j.filled (m + n) ceiling := by
  have hcars : min (min (j.cars + m) (max ceiling j.cars) + n)
      (max ceiling (min (j.cars + m) (max ceiling j.cars))) =
        min (j.cars + (m + n)) (max ceiling j.cars) := by omega
  simp only [filled, hcars]

/-- What is left over twice is what is left over of the sum. -/
theorem spilled_add (j : Job) (m n ceiling : Nat) :
    j.spilled m ceiling + (j.filled m ceiling).spilled n ceiling = j.spilled (m + n) ceiling := by
  simp only [spilled, filled]
  omega

/-- All cars are on the job or left over. -/
theorem filled_cars_add_spilled (j : Job) (count ceiling : Nat) :
    (j.filled count ceiling).cars + j.spilled count ceiling = j.cars + count := by
  simp only [spilled, filled]
  omega

theorem addCars_eq_filled {j j' : Job} {count ceiling rest : Nat}
    (h : j.addCars count ceiling = .ok (j', rest)) :
    j' = j.filled count ceiling ∧ rest = j.spilled count ceiling := by
  obtain ⟨-, rfl, rfl⟩ := addCars_eq_ok_iff.1 h
  exact ⟨rfl, rfl⟩

end Job

/-! ## Stations -/

namespace Station

variable {s s' s₁ s₂ : Station} {cargo x : Cargo} {count ceiling : Nat} {counts : List Nat}
  {folded : Folded} {before after : List Job} {load : Job}

/-- Folds counts of output into the queue, one after the other. -/
def foldAll (s : Station) (cargo : Cargo) (ceiling : Nat) : List Nat → Faulty Station
  | [] => .ok s
  | count :: counts => do
    let (_, s) ← s.fold cargo count ceiling
    s.foldAll cargo ceiling counts

/-- The station with `count` more cars of `cargo` waiting for room. -/
def putAside (s : Station) (cargo : Cargo) (count : Nat) : Station :=
  if count = 0 then s
  else { s with overflow := s.overflow.insert cargo (s.overflowOf cargo + count) }

theorem addOverflow_eq_putAside (h : s.addOverflow cargo count = .ok s') :
    s' = s.putAside cargo count := by
  rw [addOverflow] at h
  split at h
  · rename_i hzero
    cases h
    rw [putAside, if_pos hzero]
  · rename_i hsome
    obtain ⟨overflow, hadded, h⟩ := Faulty.bind_eq_ok_iff.1 h
    obtain ⟨total, htotal, hadded⟩ := Faulty.bind_eq_ok_iff.1 hadded
    obtain ⟨-, rfl⟩ := Count.add_eq_ok_iff.1 htotal
    cases hadded
    cases h
    rw [putAside, if_neg hsome]
    rfl

theorem overflowOf_putAside (s : Station) (cargo : Cargo) (count : Nat) (x : Cargo) :
    (s.putAside cargo count).overflowOf x = s.overflowOf x + cargo.only count x := by
  rw [putAside]
  split
  · rename_i hzero
    rw [hzero, Cargo.only_zero, Nat.add_zero]
  · rw [overflowOf, Stock.amount_insert, Cargo.only]
    split
    · rename_i hx
      rw [hx]
    · rfl

/-- What is put aside twice is put aside as the sum. -/
theorem putAside_add (s : Station) (cargo : Cargo) (m n : Nat) :
    (s.putAside cargo m).putAside cargo n = s.putAside cargo (m + n) := by
  have hwaits := s.overflowOf_putAside cargo m cargo
  rw [Cargo.only, if_pos rfl] at hwaits
  rcases Nat.eq_zero_or_pos n with rfl | hn
  · rw [putAside, if_pos rfl, Nat.add_zero]
  · rw [putAside, if_neg (Nat.ne_of_gt hn), hwaits, Nat.add_assoc]
    rw [putAside, putAside, if_neg (Nat.ne_of_gt (Nat.add_pos_right m hn))]
    split
    · rfl
    · simp only [Table.insert_insert]

/-- Whatever waits, the queue is as it is. -/
theorem putAside_withQueue (s : Station) (cargo : Cargo) (count : Nat) (queue : List Job) :
    { s.putAside cargo count with queue } = { s with queue }.putAside cargo count := by
  rw [putAside, putAside]
  split <;> rfl

theorem queue_putAside (s : Station) (cargo : Cargo) (count : Nat) :
    (s.putAside cargo count).queue = s.queue := by
  rw [putAside]
  split <;> rfl

/-- The station with `count` cars of output on the load that stands between two parts of its queue,
    and aside. -/
def joined (s : Station) (before : List Job) (load : Job) (after : List Job) (cargo : Cargo)
    (count ceiling : Nat) : Station :=
  { s with queue := before ++ load.filled count ceiling :: after }.putAside cargo
    (load.spilled count ceiling)

theorem queue_joined : (s.joined before load after cargo count ceiling).queue =
    before ++ load.filled count ceiling :: after := queue_putAside ..

/-- More output joins the same load, and what is left over joins what is aside. -/
theorem joined_joined (s : Station) (before : List Job) (load : Job) (after : List Job)
    (cargo : Cargo) (m n ceiling : Nat) :
    (s.joined before load after cargo m ceiling).joined before (load.filled m ceiling) after cargo n
      ceiling = s.joined before load after cargo (m + n) ceiling := by
  rw [joined, joined, putAside_withQueue, putAside_add, Job.filled_add, Job.spilled_add, joined]

/-- Output joins the first load that takes it. -/
theorem fold_of_load (hqueue : s.queue = before ++ load :: after)
    (hbefore : ∀ j ∈ before, ¬ j.isMergeableLoad cargo) (hload : load.isMergeableLoad cargo)
    (h : s.fold cargo count ceiling = .ok (folded, s')) :
    s' = s.joined before load after cargo count ceiling := by
  rw [fold, hqueue, splitFirst?_append_cons hbefore hload] at h
  obtain ⟨⟨filled, rest⟩, hadded, h⟩ := Faulty.bind_eq_ok_iff.1 h
  obtain ⟨t, hrest, h⟩ := Faulty.bind_eq_ok_iff.1 h
  cases h
  obtain ⟨rfl, rfl⟩ := Job.addCars_eq_filled hadded
  exact addOverflow_eq_putAside hrest

/-- Output in parts joins the load as their sum would. -/
theorem foldAll_of_load (hqueue : s.queue = before ++ load :: after)
    (hbefore : ∀ j ∈ before, ¬ j.isMergeableLoad cargo) (hload : load.isMergeableLoad cargo)
    (h : s.foldAll cargo ceiling counts = .ok s') :
    s' = s.joined before load after cargo counts.sum ceiling := by
  induction counts generalizing s load with
  | nil =>
    cases h
    rw [joined, List.sum_nil, Job.filled_zero, Job.spilled_zero, ← hqueue, putAside, if_pos rfl]
  | cons count counts ih =>
    obtain ⟨⟨folded, t⟩, hfirst, hrest⟩ := Faulty.bind_eq_ok_iff.1 h
    obtain rfl := fold_of_load hqueue hbefore hload hfirst
    -- Cars do not count for whether a load takes output, so it is still the first one that does.
    rw [ih queue_joined hload hrest, joined_joined, List.sum_cons]

/-- A load without cars yet, which runs from the station to itself. -/
def openLoad (s : Station) (cargo : Cargo) (wage : Nat) : Job :=
  .queued (JobId.of s.code .shuntingLoad s.nextNumber) .shuntingLoad s.code s.code 0 cargo wage

theorem openLoad_isMergeableLoad (s : Station) (cargo : Cargo) (wage : Nat) :
    (s.openLoad cargo wage).isMergeableLoad cargo := by
  simp [openLoad, Job.queued, Job.isMergeableLoad, Job.isReserved, Job.isActive]

/-- Without a load that takes it, output makes one at the end of the queue. -/
theorem exists_fold_of_none (hnone : ∀ j ∈ s.queue, ¬ j.isMergeableLoad cargo)
    (h : s.fold cargo count ceiling = .ok (folded, s')) :
    ∃ wage, s' = { s with nextNumber := s.nextNumber + 1 }.joined s.queue (s.openLoad cargo wage) []
      cargo count ceiling := by
  rw [fold, splitFirst?_eq_none_iff.2 hnone] at h
  obtain ⟨wage, -, h⟩ := Faulty.bind_eq_ok_iff.1 h
  obtain ⟨⟨id, t⟩, hjob, h⟩ := Faulty.bind_eq_ok_iff.1 h
  obtain ⟨u, hrest, h⟩ := Faulty.bind_eq_ok_iff.1 h
  cases h
  obtain ⟨rfl, rfl⟩ := addJob_eq_ok hjob
  refine ⟨wage, ?_⟩
  rw [addOverflow_eq_putAside hrest]
  simp only [joined, openLoad, Job.spilled, Job.filled, Job.queued, Nat.zero_add, Nat.max_zero]

/-- So do parts of output: the first one makes the load, and the others join it. -/
theorem exists_foldAll_of_none (hne : counts ≠ [])
    (hnone : ∀ j ∈ s.queue, ¬ j.isMergeableLoad cargo)
    (h : s.foldAll cargo ceiling counts = .ok s') :
    ∃ wage, s' = { s with nextNumber := s.nextNumber + 1 }.joined s.queue (s.openLoad cargo wage) []
      cargo counts.sum ceiling := by
  obtain ⟨count, counts, rfl⟩ := List.exists_cons_of_ne_nil hne
  obtain ⟨⟨folded, t⟩, hfirst, hrest⟩ := Faulty.bind_eq_ok_iff.1 h
  obtain ⟨wage, rfl⟩ := exists_fold_of_none hnone hfirst
  refine ⟨wage, ?_⟩
  have hload : ((s.openLoad cargo wage).filled count ceiling).isMergeableLoad cargo :=
    s.openLoad_isMergeableLoad cargo wage
  rw [foldAll_of_load queue_joined hnone hload hrest, joined_joined, List.sum_cons]

/-! ## What a station does with output -/

/-- The cars of a cargo on the loads in the queue. -/
def loadedOf (s : Station) (cargo : Cargo) : Nat :=
  ((s.queue.filter (·.isLoadOf cargo)).map (·.cars)).sum

/-- A load in the queue counts besides the jobs before it and those behind it. -/
theorem loadedOf_eq (hqueue : s.queue = before ++ load :: after) (hload : load.isLoadOf cargo) :
    s.loadedOf cargo = ((before.filter (·.isLoadOf cargo)).map (·.cars)).sum + load.cars +
      ((after.filter (·.isLoadOf cargo)).map (·.cars)).sum := by
  have hcons : (load :: after).filter (·.isLoadOf cargo) =
    load :: after.filter (·.isLoadOf cargo) := List.filter_cons_of_pos hload
  rw [loadedOf, hqueue, List.filter_append, hcons, List.map_append, List.sum_append, List.map_cons,
    List.sum_cons, Nat.add_assoc]

/-- How a queue takes output in, under a ceiling on the cars of a load. -/
inductive Grows (s : Station) (cargo : Cargo) (ceiling : Nat) (s' : Station) : Prop
  /-- The first load that nobody has claimed gets cars, not above the ceiling unless it was there
      already. -/
  | joined (before after : List Job) (load : Job) (cars : Nat) :
    s.queue = before ++ load :: after → (∀ j ∈ before, ¬ j.isMergeableLoad cargo) →
    load.isMergeableLoad cargo → load.cars ≤ cars → cars ≤ max ceiling load.cars →
    s'.queue = before ++ { load with cars } :: after → s'.nextNumber = s.nextNumber →
    Grows s cargo ceiling s'
  /-- There is no such load, and one is queued behind all jobs. -/
  | opened (cars wage : Nat) : (∀ j ∈ s.queue, ¬ j.isMergeableLoad cargo) → cars ≤ ceiling →
    s'.queue = s.queue ++ [{ s.openLoad cargo wage with cars }] →
    s'.nextNumber = s.nextNumber + 1 → Grows s cargo ceiling s'

/-- What a station does with `count` cars of output: all of them are on loads or wait for room, one
    load at most is filled up or else made, and everything else stays as it is. -/
structure Absorbs (s : Station) (cargo : Cargo) (ceiling count : Nat) (s' : Station) : Prop where
  total : s'.loadedOf cargo + s'.overflowOf cargo = s.loadedOf cargo + s.overflowOf cargo + count
  grows : s.Grows cargo ceiling s'
  overflowOf_eq : ∀ x, x ≠ cargo → s'.overflowOf x = s.overflowOf x
  same : s' = { s with queue := s'.queue, nextNumber := s'.nextNumber, overflow := s'.overflow }

/-- Two stations that came from `s` are the same, or differ in the wage of a load that is new. -/
def SameButWage (s s₁ s₂ : Station) : Prop :=
  s₁ = s₂ ∨ ∃ load wage, s₂.queue = s.queue ++ [load] ∧
    s₁ = { s₂ with queue := s.queue ++ [{ load with wage }] }

theorem joined_overflowOf : (s.joined before load after cargo count ceiling).overflowOf x =
    s.overflowOf x + cargo.only (load.spilled count ceiling) x := overflowOf_putAside ..

/-- Only the queue and the overflow are touched. -/
theorem joined_same : s.joined before load after cargo count ceiling = { s with
    queue := (s.joined before load after cargo count ceiling).queue
    overflow := (s.joined before load after cargo count ceiling).overflow } := by
  rw [joined, putAside]
  split <;> rfl

/-- All cars of output are on the load or aside. -/
theorem joined_total (hload : load.isLoadOf cargo) :
    (s.joined before load after cargo count ceiling).loadedOf cargo +
        (s.joined before load after cargo count ceiling).overflowOf cargo =
      ({ s with queue := before ++ load :: after } : Station).loadedOf cargo + s.overflowOf cargo +
        count := by
  have hfilled : (load.filled count ceiling).isLoadOf cargo := hload
  have hall := load.filled_cars_add_spilled count ceiling
  rw [loadedOf_eq queue_joined hfilled, loadedOf_eq rfl hload, joined_overflowOf, Cargo.only,
    if_pos rfl]
  omega

theorem absorbs_of_load (hqueue : s.queue = before ++ load :: after)
    (hbefore : ∀ j ∈ before, ¬ j.isMergeableLoad cargo) (hload : load.isMergeableLoad cargo) :
    s.Absorbs cargo ceiling count (s.joined before load after cargo count ceiling) where
  total := by
    rw [joined_total (Job.isMergeableLoad_iff.1 hload).1, ← hqueue]
  grows := by
    have hnumber : (s.joined before load after cargo count ceiling).nextNumber = s.nextNumber := by
      rw [joined_same]
    refine .joined before after load _ hqueue hbefore hload ?_ ?_ queue_joined hnumber
    · omega
    · exact Nat.min_le_right _ _
  overflowOf_eq x hx := by rw [joined_overflowOf, Cargo.only, if_neg hx, Nat.add_zero]
  same := by
    rw [joined_same]

theorem absorbs_of_none (hnone : ∀ j ∈ s.queue, ¬ j.isMergeableLoad cargo) (wage : Nat) :
    s.Absorbs cargo ceiling count ({ s with nextNumber := s.nextNumber + 1 }.joined s.queue
      (s.openLoad cargo wage) [] cargo count ceiling) where
  total := by
    have hload := (Job.isMergeableLoad_iff.1 (s.openLoad_isMergeableLoad cargo wage)).1
    -- The load that is made has no cars before the output is on it.
    have hnew : ({ s with queue := s.queue ++ [s.openLoad cargo wage] } : Station).loadedOf cargo =
        s.loadedOf cargo := (loadedOf_eq rfl hload).trans rfl
    rw [joined_total hload]
    exact congrArg (· + s.overflowOf cargo + count) hnew
  grows := by
    refine .opened ((s.openLoad cargo wage).filled count ceiling).cars wage hnone ?_ queue_joined ?_
    · refine (Nat.min_le_right _ _).trans_eq ?_
      exact Nat.max_zero ceiling
    · rw [joined_same]
  overflowOf_eq x hx := by
    rw [joined_overflowOf, Cargo.only, if_neg hx, Nat.add_zero]
    rfl
  same := by
    rw [joined_same]

/-- Output that is folded into a queue in parts leaves the station as their sum does, up to the wage
    of a load that it makes; and either way the station does with it what it should. -/
theorem foldAll_eq_fold_sum (hne : counts ≠ [])
    (h₁ : s.foldAll cargo ceiling counts = .ok s₁)
    (h₂ : s.fold cargo counts.sum ceiling = .ok (folded, s₂)) :
    s.SameButWage s₁ s₂ ∧ s.Absorbs cargo ceiling counts.sum s₁ ∧
      s.Absorbs cargo ceiling counts.sum s₂ := by
  rcases hsplit : splitFirst? (·.isMergeableLoad cargo) s.queue with _ | ⟨before, load, after⟩
  · have hnone := splitFirst?_eq_none_iff.1 hsplit
    obtain ⟨w₁, rfl⟩ := exists_foldAll_of_none hne hnone h₁
    obtain ⟨w₂, rfl⟩ := exists_fold_of_none hnone h₂
    refine ⟨.inr ⟨_, w₁, queue_joined, ?_⟩, absorbs_of_none hnone w₁, absorbs_of_none hnone w₂⟩
    rw [joined, joined, putAside_withQueue]
    rfl
  · obtain ⟨hqueue, hload, hbefore⟩ := append_of_splitFirst? hsplit
    obtain rfl := foldAll_of_load hqueue hbefore hload h₁
    obtain rfl := fold_of_load hqueue hbefore hload h₂
    have habsorbs : s.Absorbs cargo ceiling counts.sum
        (s.joined before load after cargo counts.sum ceiling) :=
      absorbs_of_load hqueue hbefore hload
    exact ⟨.inl rfl, habsorbs, habsorbs⟩

/-- Three parts of output make a load of eight cars for the wage of three, whose sum would make it
    for the wage of eight. A load of the same cargo that a user has reserved gets none of it, and
    two cars join those that wait for room already. -/
theorem parts_foldAll_eq_fold_sum :
    let claimed : Job := { (Station.new .sw 1 3).openLoad .boards 9 with
      cars := 5
      holder := some .bob }
    let s : Station := { Station.new .sw 1 3 with
      queue := [claimed]
      nextNumber := 2
      overflow := Table.ofList [(.boards, 1)] }
    ∃ s₁ s₂ folded, ([3, 0, 7] : List Nat) ≠ [] ∧ s.foldAll .boards 8 [3, 0, 7] = .ok s₁ ∧
      s.fold .boards 10 8 = .ok (folded, s₂) ∧
      s₁.queue.map (fun j => (j.cars, j.wage)) = [(5, 9), (8, 3000)] ∧
      s₂.queue.map (fun j => (j.cars, j.wage)) = [(5, 9), (8, 8000)] ∧ s₁.overflowOf .boards = 3 ∧
      s.SameButWage s₁ s₂ ∧ s.Absorbs .boards 8 10 s₁ ∧ s.Absorbs .boards 8 10 s₂ := by
  intro claimed s
  have htest : (s.foldAll .boards 8 [3, 0, 7]).toOption.any fun s₁ =>
      (s.fold .boards 10 8).toOption.any fun (_, s₂) =>
        s₁.queue.map (fun j => (j.cars, j.wage)) = [(5, 9), (8, 3000)] ∧
          s₂.queue.map (fun j => (j.cars, j.wage)) = [(5, 9), (8, 8000)] ∧
          s₁.overflowOf .boards = 3 := by decide +kernel
  cases h₁ : s.foldAll .boards 8 [3, 0, 7] with
  | error fault => simp [h₁, Except.toOption] at htest
  | ok s₁ =>
    cases h₂ : s.fold .boards 10 8 with
    | error fault => simp [h₁, h₂, Except.toOption] at htest
    | ok result =>
      obtain ⟨folded, s₂⟩ := result
      rw [h₁, h₂] at htest
      obtain ⟨hfirst, hsecond, hwaits⟩ := of_decide_eq_true htest
      have hne : ([3, 0, 7] : List Nat) ≠ [] := List.cons_ne_nil _ _
      exact ⟨s₁, s₂, folded, hne, rfl, rfl, hfirst, hsecond, hwaits, foldAll_eq_fold_sum hne h₁ h₂⟩

end Station

end RailFreight
