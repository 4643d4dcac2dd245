import RailFreight.Proofs.Numbering
import Mathlib.Algebra.GroupWithZero.Nat

/-!
# Accounting for cargo

The cars of a cargo are on jobs, in the overflow of a station, or in the buffer of a processor.
Whatever is split between a job and the overflow, merged into a load, or carried from a job to
a buffer stays in the network. What adds to a cargo or takes from it is told by the operation
alone: new jobs bring their cars, loads made from nothing bring theirs, production turns some
cargo into other cargo, and a finished job takes its cars out of the network unless they go on
at its destination.

* `Network.amountOf`: the cars of a cargo in a network;
* `Processor.tryProduce_amount`: what production takes from the buffer;
* `Station.fold_amountOf`, `Station.intake_amountOf`, `Network.createJob_amountOf`: nothing is
  lost where cars are split;
* `Station.acceptor?_eq_none_iff`: which deliveries are lost;
* `Network.dispatch_amountOf`: what a finished job changes (`Network.arrival`);
* `Reachable.perform_amountOf`: what any operation changes (`Network.turnover`).
-/

namespace RailFreight

/-! ## Amounts -/

/-- `count` cars of one cargo, and none of any other. -/
def Cargo.only (cargo : Cargo) (count : Nat) (x : Cargo) : Nat := if x = cargo then count else 0

/-- The cars of a cargo on a job. -/
def Job.carsOf (j : Job) (x : Cargo) : Nat := j.cargo.only j.cars x

/-- The cars of a cargo at a station: on its jobs, in its overflow, and in the buffers of its
    processors. -/
def Station.amountOf (s : Station) (x : Cargo) : Nat :=
  (s.queue.map (·.carsOf x)).sum + s.overflowOf x + (s.processors.map (·.buffered x)).sum

/-- The cars of a cargo in a network. -/
def Network.amountOf (net : Network) (x : Cargo) : Nat :=
  (net.stationList.map (·.amountOf x)).sum

/-- What one unit of output takes of a cargo. -/
def Processor.needOf (p : Processor) (x : Cargo) : Nat :=
  ((p.blueprint.get? x).map Processor.perUnit).getD 0

/-- How many units come of a delivery: as many as the buffer is enough for with the delivery
    in it, and none if the processor is generative. -/
def Processor.unitsFrom (p : Processor) (cargo : Cargo) (count : Nat) : Nat :=
  if p.isGenerative then 0
  else { p with buffer := p.buffer.insert cargo (p.buffered cargo + count) }.affordable

/-- The change in the cars of a cargo when a delivery is processed: what its units need is taken
    from the buffer, and the units are added to the output, unless it is nothing. -/
def Processor.conversion (p : Processor) (cargo : Cargo) (count : Nat) (x : Cargo) : Int :=
  let units := p.unitsFrom cargo count
  (if p.isSink then 0 else p.output.only units x) - units * p.needOf x

namespace Network

/-- The cars of a load that the station of that code makes from nothing next. -/
def seedCars (net : Network) (code : StationCode) : Nat :=
  let (lo, hi) := ((net.station? code).map fun s => (s.minCars, s.maxCars)).getD (1, 1)
  min (net.generator.range lo hi).1 net.config.maxCars

/-- The change in the cars of a cargo when a job is finished:

    * outside the network its cars are lost;
    * so are unloaded cars that no processor accepts; of those that accept them, the first in turn
      processes them;
    * freight is to be unloaded where it arrives;
    * a shipped load goes on as freight, unless its cargo has no producer there or the producer
      names no destination; a producer that makes the cargo from nothing brings a new load;
    * hauled cars are lost. -/
def arrival (net : Network) (j : Job) (x : Cargo) : Int :=
  match net.station? j.destination with
  | none => -j.carsOf x
  | some s =>
    match j.kind with
    | .shuntingUnload =>
      if ∀ p ∈ s.processors, ¬ p.accepts j.cargo then -j.carsOf x
      else (s.acceptor? j.cargo).elim 0 fun taker => taker.2.conversion j.cargo j.cars x
    | .freight => 0
    | .shuntingLoad =>
      match s.producerOf? j.cargo with
      | none => -j.carsOf x
      | some p =>
        let drawn : Network := { net with generator := (net.generator.pick p.destinations).2 }
        (if p.isGenerative then j.cargo.only (drawn.seedCars j.destination) x else 0) -
          (if p.destinations = [] then j.carsOf x else 0)
    | .logistics => -j.carsOf x

/-- The change in the cars of a cargo in an operation, given what came of it. A station that is
    put in the place of another one takes away what was there. -/
def turnover (net : Network) (x : Cargo) : Operation → Outcome → Int
  | .addStation code _ _, _ => -((net.station? code).elim 0 (·.amountOf x) : Nat)
  | .addProcessor code p, _ =>
    match net.station? code with
    | none => 0
    | some _ => p.buffered x + if p.isGenerative then p.output.only (net.seedCars code) x else 0
  | .createJob _ _ _ cars cargo _, _ => cargo.only cars x
  | .request .finish _ id, outcome =>
    match outcome.isGrant, net.job? id with
    | true, .ok (some j) => net.arrival j x
    | _, _ => 0
  | _, _ => 0

end Network

theorem Cargo.only_add (cargo : Cargo) (m n : Nat) (x : Cargo) :
    cargo.only (m + n) x = cargo.only m x + cargo.only n x := by
  unfold only
  split <;> rfl

theorem Cargo.only_zero (cargo x : Cargo) : cargo.only 0 x = 0 := ite_self 0

/-- An element of a list that is replaced changes a sum over the list by the difference. -/
theorem sum_map_set {α : Type} (f : α → Nat) {xs : List α} {i : Nat} {x : α}
    (h : xs[i]? = some x) (y : α) : ((xs.set i y).map f).sum + f x = (xs.map f).sum + f y := by
  induction xs generalizing i with
  | nil => simp at h
  | cons z zs ih =>
    cases i with
    | zero =>
      cases h
      simp only [List.set_cons_zero, List.map_cons, List.sum_cons]
      omega
    | succ i =>
      have := ih (i := i) h
      simp only [List.set_cons_succ, List.map_cons, List.sum_cons]
      omega

/-- An element that is taken out of a list is missing in a sum over the list. -/
theorem sum_map_eraseIdx {α : Type} (f : α → Nat) {xs : List α} {i : Nat} {x : α}
    (h : xs[i]? = some x) : ((xs.eraseIdx i).map f).sum + f x = (xs.map f).sum := by
  induction xs generalizing i with
  | nil => simp at h
  | cons z zs ih =>
    cases i with
    | zero =>
      cases h
      simp only [List.eraseIdx_cons_zero, List.map_cons, List.sum_cons]
      omega
    | succ i =>
      have := ih (i := i) h
      simp only [List.eraseIdx_cons_succ, List.map_cons, List.sum_cons]
      omega

/-- Something is drawn from every list that has an element. -/
theorem Generator.eq_nil_of_pick_eq_none {α : Type} {items : List α} {g g' : Generator}
    (h : g.pick items = (none, g')) : items = [] := by
  by_contra hne
  have hlt := below_lt (List.length_pos_iff.2 hne) g
  rw [pick, if_neg (by simpa using hne)] at h
  have hnone := congrArg Prod.fst h
  exact absurd (List.getElem?_eq_none_iff.1 hnone) (Nat.not_le_of_lt hlt)

/-! ## Stocks and processors -/

namespace Stock

variable {s s' : Stock} {cargo : Cargo} {count : Nat}

theorem amount_insert (s : Stock) (cargo : Cargo) (count : Nat) (x : Cargo) :
    amount (s.insert cargo count) x = if x = cargo then count else s.amount x := by
  rw [amount, amount, Table.getD, Table.getD, Table.get?_insert]
  simp only [rank_eq_rank_iff, eq_comm (a := x)]
  split <;> rfl

theorem add_amount (h : s.add cargo count = .ok s') (x : Cargo) :
    s'.amount x = s.amount x + cargo.only count x := by
  obtain ⟨total, ht, h⟩ := Faulty.bind_eq_ok_iff.1 h
  obtain ⟨-, rfl⟩ := Count.add_eq_ok_iff.1 ht
  cases h
  rw [amount_insert, Cargo.only]
  split
  · rename_i hx
    rw [hx]
  · rfl

/-- What is taken back is missing. -/
theorem erase_amount (s : Stock) (cargo x : Cargo) :
    amount (s.erase cargo) x + cargo.only (s.amount cargo) x = s.amount x := by
  rw [amount, amount, amount, Table.getD, Table.getD, Table.getD, Table.get?_erase, Cargo.only]
  simp only [rank_eq_rank_iff]
  by_cases hx : x = cargo
  · simp [hx]
  · simp [hx, Ne.symm hx]

end Stock

namespace Processor

variable {p q : Processor} {cargo : Cargo} {count units : Nat}

/-- Units take what they need from a buffer that has something of every need. -/
theorem consume_amount {buffer buffer' : Stock} {needs : List (Cargo × Nat)}
    (hasc : Ascending needs) (hheld : ∀ e ∈ needs, (buffer.get? e.1).isSome)
    (h : consume units buffer needs = .ok buffer') (x : Cargo) :
    buffer'.amount x + units * ((needs.find? fun e => rank e.1 = rank x).elim 0 (perUnit ·.2)) =
      buffer.amount x := by
  induction needs generalizing buffer with
  | nil =>
    cases h
    rfl
  | cons e needs ih =>
    obtain ⟨cargo, need⟩ := e
    obtain ⟨hfirst, hasc⟩ := List.pairwise_cons.1 hasc
    obtain ⟨hsome, hheld⟩ := List.forall_mem_cons.1 hheld
    obtain ⟨held, hget⟩ := Option.isSome_iff_exists.1 hsome
    rw [consume, hget] at h
    obtain ⟨used, hused, h⟩ := Faulty.bind_eq_ok_iff.1 h
    obtain ⟨left, hleft, h⟩ := Faulty.bind_eq_ok_iff.1 h
    obtain ⟨-, rfl⟩ := Count.mul_eq_ok_iff.1 hused
    obtain ⟨hle, rfl⟩ := Count.sub_eq_ok_iff.1 hleft
    have hkept : ∀ e ∈ needs,
        ((buffer.insert cargo (held - units * perUnit need)).get? e.1).isSome := by
      intro e he
      rw [Table.get?_insert]
      split
      · rfl
      · exact hheld e he
    have hrest := ih hasc hkept h
    rw [Stock.amount_insert] at hrest
    by_cases hx : x = cargo
    · -- The keys ascend, so the cargo is not needed again.
      subst hx
      have hnone : (needs.find? fun e => rank e.1 = rank x) = none := by
        refine List.find?_eq_none.2 fun e he => ?_
        simpa using Nat.ne_of_gt (hfirst e he)
      have hamount : buffer.amount x = held := by
        rw [Stock.amount, Table.getD, hget, Option.getD_some]
      rw [if_pos rfl, hnone] at hrest
      rw [List.find?_cons_of_pos (by simp), hamount]
      simp only [Option.elim_none, Option.elim_some] at hrest ⊢
      omega
    · have hne : ¬ rank cargo = rank x := fun hr => hx (rank_injective hr).symm
      rw [if_neg hx] at hrest
      rw [List.find?_cons_of_neg (by simpa using hne)]
      exact hrest

theorem accumulate_eq_ok (h : p.accumulate cargo count = .ok q) :
    q = { p with buffer := p.buffer.insert cargo (p.buffered cargo + count) } ∧
      ∀ x, q.buffered x = p.buffered x + cargo.only count x := by
  obtain ⟨buffer, hadd, h⟩ := Faulty.bind_eq_ok_iff.1 h
  cases h
  refine ⟨?_, Stock.add_amount hadd⟩
  obtain ⟨total, ht, hadd⟩ := Faulty.bind_eq_ok_iff.1 hadd
  obtain ⟨-, rfl⟩ := Count.add_eq_ok_iff.1 ht
  cases hadd
  rfl

/-- Production takes what its units need from the buffer, and changes nothing else. -/
theorem tryProduce_amount (h : p.tryProduce = .ok (units, q)) :
    units = (if p.isGenerative then 0 else p.affordable) ∧ q = { p with buffer := q.buffer } ∧
      ∀ x, q.buffered x + units * p.needOf x = p.buffered x := by
  rw [tryProduce] at h
  split at h
  · rename_i hnone
    cases h
    refine ⟨?_, rfl, fun x => by rw [Nat.zero_mul, Nat.add_zero]⟩
    rcases Bool.or_eq_true_iff.1 hnone with hg | ha
    · rw [if_pos hg]
    · rw [of_decide_eq_true ha, ite_self]
  · rename_i hsome
    obtain ⟨hg, ha⟩ : ¬ p.isGenerative ∧ p.affordable ≠ 0 := by simpa using hsome
    obtain ⟨buffer, hc, h⟩ := Faulty.bind_eq_ok_iff.1 h
    cases h
    rw [if_neg hg]
    refine ⟨rfl, rfl, fun x => ?_⟩
    -- The buffer is enough for a unit, so it has something of everything that is needed.
    have hheld : ∀ e ∈ p.blueprint.entries, (p.buffer.get? e.1).isSome := by
      intro e he
      by_contra hnone
      have hzero : p.buffered e.1 = 0 := by
        rw [buffered, Stock.amount, Table.getD, Option.not_isSome_iff_eq_none.1 hnone,
          Option.getD_none]
      have hle : p.affordable ≤ p.buffered e.1 / perUnit e.2 :=
        List.min?_getD_le_of_mem (List.mem_map_of_mem he)
      rw [hzero, Nat.zero_div] at hle
      exact ha (Nat.le_zero.1 hle)
    have hamount := consume_amount p.blueprint.ascending hheld hc x
    have hneed : p.needOf x =
        (p.blueprint.entries.find? fun e => rank e.1 = rank x).elim 0 (perUnit ·.2) := by
      rw [needOf, Table.get?]
      cases p.blueprint.entries.find? fun e => rank e.1 = rank x <;> rfl
    rw [hneed]
    exact hamount

/-- A sink makes nothing of its units. -/
theorem amount_made (p : Processor) (units : Nat) (x : Cargo) :
    (if units = 0 || p.isSink then none else some (p.output, units)).elim 0
      (fun made => made.1.only made.2 x) = if p.isSink then 0 else p.output.only units x := by
  by_cases hsink : p.isSink
  · rw [if_pos hsink, if_pos (Bool.or_eq_true_iff.2 (.inr hsink))]
    rfl
  · rw [if_neg hsink]
    split
    · rename_i hzero
      have hzero : units = 0 := by simpa [hsink] using hzero
      rw [hzero, Cargo.only_zero]
      rfl
    · rfl

end Processor

/-! ## Stations -/

namespace Station

variable {s s' : Station} {cargo : Cargo} {count : Nat} {x : Cargo}

theorem addOverflow_amountOf (h : s.addOverflow cargo count = .ok s') :
    s'.amountOf x = s.amountOf x + cargo.only count x := by
  rw [addOverflow] at h
  split at h
  · rename_i hzero
    cases h
    rw [hzero, Cargo.only_zero, Nat.add_zero]
  · obtain ⟨overflow, hadd, h⟩ := Faulty.bind_eq_ok_iff.1 h
    cases h
    have := Stock.add_amount hadd x
    simp only [amountOf, overflowOf]
    omega

theorem takeOverflow_amountOf (s : Station) (cargo x : Cargo) :
    (s.takeOverflow cargo).2.amountOf x + cargo.only (s.overflowOf cargo) x = s.amountOf x := by
  have := Stock.erase_amount s.overflow cargo x
  simp only [amountOf, overflowOf, takeOverflow]
  omega

theorem addJob_amountOf {kind : JobKind} {destination : StationCode} {wage : Nat} {id : JobId}
    (h : s.addJob kind destination count cargo wage = .ok (id, s')) :
    s'.amountOf x = s.amountOf x + cargo.only count x := by
  obtain ⟨-, rfl⟩ := addJob_eq_ok h
  simp only [amountOf, overflowOf, List.map_append, List.sum_append, List.map_cons, List.map_nil,
    List.sum_cons, List.sum_nil, Job.carsOf, Job.queued]
  omega

/-- Folded output is on the load that it joins, or on a new one, or in the overflow. -/
theorem fold_amountOf {ceiling : Nat} {folded : Folded}
    (h : s.fold cargo count ceiling = .ok (folded, s')) :
    s'.amountOf x = s.amountOf x + cargo.only count x := by
  cases folds h with
  | @merged before after load cars rest _ hqueue hload _ _ hsum hrest =>
    have hcargo : load.cargo = cargo := by
      simp only [Job.isMergeableLoad, Bool.and_eq_true, decide_eq_true_eq] at hload
      exact hload.1.1.2
    have hcarsOf : ({ load with cars } : Job).carsOf x + cargo.only rest x =
        load.carsOf x + cargo.only count x := by
      simp only [Job.carsOf, hcargo]
      rw [← Cargo.only_add, ← Cargo.only_add, hsum]
    rw [addOverflow_amountOf hrest]
    simp only [amountOf, overflowOf, hqueue, List.map_append, List.map_cons, List.sum_append,
      List.sum_cons]
    omega
  | created _ _ hsum hjob hrest =>
    rw [addOverflow_amountOf hrest, addJob_amountOf hjob, Nat.add_assoc, ← Cargo.only_add, hsum]

/-- The processor that gets a delivery works at the station, and accepts the cargo. -/
theorem acceptor?_eq_some {i : Nat} {p : Processor} (h : s.acceptor? cargo = some (i, p)) :
    s.processors[i]? = some p ∧ p.accepts cargo := by
  obtain ⟨k, -, h⟩ := List.exists_of_findSome?_eq_some h
  obtain ⟨q, hq, h⟩ := Option.bind_eq_some_iff.1 h
  split at h
  · rename_i ha
    cases h
    exact ⟨hq, ha⟩
  · exact absurd h nofun

theorem output_of_producerOf? {p : Processor} (h : s.producerOf? cargo = some p) :
    p.output = cargo := by
  have := List.find?_some h
  exact of_decide_eq_true this

/-- Every processor has its turn. -/
theorem mem_turns {i : Nat} (h : i < s.processors.length) : i ∈ s.turns := by
  -- From the cursor, the place `i` is reached after this many steps.
  let n := s.processors.length
  let k := (i + (n - s.cursor % n)) % n
  have hn : 0 < n := Nat.zero_lt_of_lt h
  have hcursor : s.cursor % n < n := Nat.mod_lt _ hn
  refine List.mem_map.2 ⟨k, List.mem_range.2 (Nat.mod_lt _ hn), ?_⟩
  calc (s.cursor + k) % n = (s.cursor % n + (i + (n - s.cursor % n))) % n := by
        rw [Nat.add_mod_mod, Nat.mod_add_mod]
    _ = (i + n) % n := by
        congr 1
        omega
    _ = i := by rw [Nat.add_mod_right, Nat.mod_eq_of_lt h]

/-- A delivery is lost when no processor accepts it, and only then. -/
theorem acceptor?_eq_none_iff :
    s.acceptor? cargo = none ↔ ∀ p ∈ s.processors, ¬ p.accepts cargo := by
  rw [acceptor?, List.findSome?_eq_none_iff]
  constructor
  · intro h p hp ha
    obtain ⟨i, hi, rfl⟩ := List.getElem_of_mem hp
    have hnone := h i (mem_turns hi)
    rw [List.getElem?_eq_getElem hi, Option.bind_some, if_pos ha] at hnone
    exact absurd hnone (Option.some_ne_none _)
  · intro h i _
    cases hp : s.processors[i]? with
    | none => rfl
    | some p => rw [Option.bind_some, if_neg (h p (List.mem_of_getElem? hp))]

/-- A delivery goes to the processor whose turn it is, which takes from its buffer what it
    produces from; without such a processor it is lost. -/
theorem intake_amountOf {produced : Option (Cargo × Nat)}
    (h : s.intake cargo count = .ok (produced, s')) (x : Cargo) :
    match s.acceptor? cargo with
    | none => produced = none ∧ s'.amountOf x = s.amountOf x
    | some (_, p) =>
      produced.elim 0 (fun made => made.1.only made.2 x) =
        (if p.isSink then 0 else p.output.only (p.unitsFrom cargo count) x) ∧
      s'.amountOf x + p.unitsFrom cargo count * p.needOf x = s.amountOf x + cargo.only count x := by
  cases takesIn h with
  | lost hnone =>
    rw [hnone]
    exact ⟨rfl, rfl⟩
  | @accepted i _ units p _ r hacc hdelivery hproduction =>
    rw [hacc]
    obtain ⟨hp, -⟩ := acceptor?_eq_some hacc
    obtain ⟨rfl, hdelivered⟩ := Processor.accumulate_eq_ok hdelivery
    obtain ⟨hunits, hr, htaken⟩ := Processor.tryProduce_amount hproduction
    have hunits : units = p.unitsFrom cargo count := hunits
    subst hunits
    have houtput : r.output = p.output := by rw [hr]
    have hsink : r.isSink = p.isSink := by rw [hr]; rfl
    rw [houtput, hsink]
    refine ⟨p.amount_made _ x, ?_⟩
    have hbuffers := sum_map_set (·.buffered x) hp r
    have hdelivered := hdelivered x
    have htaken : r.buffered x + p.unitsFrom cargo count * p.needOf x = _ := htaken x
    simp only [amountOf, overflowOf]
    omega

/-- The tracks of the jobs do not count. -/
theorem untracked_amountOf (s : Station) (x : Cargo) : s.untracked.amountOf x = s.amountOf x := by
  rw [amountOf, untracked, List.map_map]
  rfl

end Station

/-! ## Networks -/

namespace Network

variable {net net' : Network} {code : StationCode} {s s' : Station} {cargo x : Cargo} {count : Nat}
  {d d' : Dispatch}

/-- A change of a station changes the cars in the network by the difference. -/
theorem amountOf_modifyStation (hs : net.station? code = some s) (f : Station → Station) :
    (net.modifyStation code f).amountOf x + s.amountOf x = net.amountOf x + (f s).amountOf x := by
  obtain ⟨before, after, he, hm⟩ := Table.exists_entries_eq (t := net.stations) hs
  simp only [amountOf, stationList, Table.values, modifyStation, hm, he, List.map_append,
    List.map_cons, List.sum_append, List.sum_cons]
  omega

theorem amountOf_putStation (hs : net.station? s'.code = some s) :
    (net.putStation s').amountOf x + s.amountOf x = net.amountOf x + s'.amountOf x := by
  rw [putStation_eq_modifyStation hs]
  exact amountOf_modifyStation hs _

/-- A station takes away what the one had that it replaces. -/
theorem amountOf_addStation (net : Network) (code : StationCode) (minCars maxCars : Nat) :
    (net.addStation code minCars maxCars).amountOf x + (net.station? code).elim 0 (·.amountOf x) =
      net.amountOf x := by
  have hnew : (Station.new code minCars maxCars).amountOf x = 0 := rfl
  cases hs : net.station? code with
  | some s =>
    have hput : (net.addStation code minCars maxCars).amountOf x + s.amountOf x =
      net.amountOf x + (Station.new code minCars maxCars).amountOf x := amountOf_putStation hs
    rw [hnew] at hput
    exact hput
  | none =>
    obtain ⟨before, after, he, hi⟩ :=
      Table.exists_entries_insert_eq_of_none hs (Station.new code minCars maxCars)
    have hi : (net.addStation code minCars maxCars).stations.entries = _ := hi
    simp only [amountOf, stationList, Table.values, hi, he, List.map_append, List.map_cons,
      List.sum_append, List.sum_cons, hnew, Option.elim_none]
    omega

/-- The change of a job that leaves its cars alone leaves all cars alone. -/
theorem amountOf_modifyJobAt {place : Place} {j : Job} {f : Job → Job}
    (hj : net.jobAt? place = some j) (hf : ∀ k, (f k).carsOf x = k.carsOf x) :
    (net.modifyJobAt place f).amountOf x = net.amountOf x := by
  obtain ⟨s, hs, -⟩ := jobAt?_eq_some_iff.1 hj
  have hnet :=
    amountOf_modifyStation (x := x) hs fun s => { s with queue := s.queue.modify place.2 f }
  have hqueue := map_modify_of_forall (g := (·.carsOf x)) hf s.queue place.2
  simp only [Station.amountOf, Station.overflowOf, hqueue] at hnet
  rw [modifyJobAt]
  omega

theorem amountOf_removeJobAt {place : Place} {j : Job} (hj : net.jobAt? place = some j) :
    (net.removeJobAt place).amountOf x + j.carsOf x = net.amountOf x := by
  obtain ⟨s, hs, hj⟩ := jobAt?_eq_some_iff.1 hj
  have hnet :=
    amountOf_modifyStation (x := x) hs fun s => { s with queue := s.queue.eraseIdx place.2 }
  have hqueue := sum_map_eraseIdx (·.carsOf x) hj
  simp only [Station.amountOf, Station.overflowOf] at hnet
  rw [removeJobAt]
  omega

/-- Networks that differ in tracks alone have the same cars. -/
theorem Alike.amountOf_eq (h : net.Alike net') (x : Cargo) : net'.amountOf x = net.amountOf x := by
  have hu : ∀ n : Network, n.amountOf x =
      ((n.stations.entries.map fun e => (e.1, e.2.untracked)).map (·.2.amountOf x)).sum := by
    intro n
    simp only [amountOf, stationList, Table.values, List.map_map, Function.comp_def,
      Station.untracked_amountOf]
  rw [hu, hu, h.entries_eq]

/-! ### New jobs -/

/-- A new job brings its cars, be they on it or in the overflow. -/
theorem createJob_amountOf {kind : JobKind} {destination : StationCode} {wage : Nat} {id : JobId}
    (h : net.createJob code kind destination count cargo wage = .ok (id, net')) :
    net'.amountOf x = net.amountOf x + cargo.only count x := by
  obtain ⟨s, t, u, hs, ht, hu, rfl⟩ := exists_of_createJob h
  have hnet := amountOf_modifyStation (x := x) hs fun _ => u
  have hcars : cargo.only count x = cargo.only (min count net.config.maxCars) x +
      cargo.only (count - net.config.maxCars) x := by
    rw [← Cargo.only_add]
    congr 1
    omega
  rw [Station.addJob_amountOf hu, Station.addOverflow_amountOf ht] at hnet
  omega

/-- How many cars a load made from nothing gets depends on the range of its station. -/
theorem seedCars_modifyStation (net : Network) (c : StationCode) (f : Station → Station)
    (hf : ∀ s, net.station? c = some s → (f s).minCars = s.minCars ∧ (f s).maxCars = s.maxCars) :
    (net.modifyStation c f).seedCars code = net.seedCars code := by
  have hrange : ((net.modifyStation c f).station? code).map (fun s => (s.minCars, s.maxCars)) =
      (net.station? code).map fun s => (s.minCars, s.maxCars) := by
    rw [station?_modifyStation]
    split
    · rename_i hc
      subst hc
      cases hs : net.station? c with
      | none => rfl
      | some s => exact congrArg some (Prod.ext (hf s hs).1 (hf s hs).2)
    · rfl
  rw [seedCars, seedCars, hrange]
  rfl

theorem seedLoad_amountOf {id : JobId} (h : net.seedLoad code cargo = .ok (id, net')) :
    net'.amountOf x = net.amountOf x + cargo.only (net.seedCars code) x := by
  obtain ⟨wage, -, h⟩ := Faulty.bind_eq_ok_iff.1 h
  have := createJob_amountOf (x := x) h
  exact this

/-- What a processor has in its buffer is counted from now on, and so is the load that a
    generative one brings along. -/
theorem addProcessor_amountOf {p : Processor} {id : Option JobId}
    (h : net.addProcessor code p = .ok (id, net')) :
    (net'.amountOf x : Int) = net.amountOf x + match net.station? code with
    | none => 0
    | some _ =>
      p.buffered x + if p.isGenerative then p.output.only (net.seedCars code) x else 0 := by
  rcases addProcessor_eq_ok h with ⟨hnone, rfl⟩ | ⟨s, hs, hadded⟩
  · rw [hnone]
    exact (Int.add_zero _).symm
  · have hnet := amountOf_modifyStation (x := x) hs (·.addProcessor p)
    have hadd : (s.addProcessor p).amountOf x = s.amountOf x + p.buffered x := by
      simp only [Station.addProcessor, Station.amountOf, Station.overflowOf, List.map_append,
        List.map_cons, List.map_nil, List.sum_append, List.sum_cons, List.sum_nil]
      omega
    rw [hs]
    rcases hadded with ⟨hg, rfl⟩ | ⟨hg, load, hseed⟩
    · simp only [if_neg hg]
      omega
    · have hseeded := seedLoad_amountOf (x := x) hseed
      rw [seedCars_modifyStation net code (·.addProcessor p) fun _ _ => ⟨rfl, rfl⟩] at hseeded
      simp only [if_pos hg]
      omega

/-! ### Dispatch -/

theorem foldAt_amountOf {s₀ : Station} (hs : net.station? s.code = some s₀)
    (h : net.foldAt s cargo count d = .ok (d', net')) :
    net'.amountOf x + s₀.amountOf x = net.amountOf x + s.amountOf x + cargo.only count x := by
  obtain ⟨⟨folded, s'⟩, hfold, h⟩ := Faulty.bind_eq_ok_iff.1 h
  cases h
  rw [← (Station.fold_change hfold).code_eq] at hs
  have hput := amountOf_putStation (x := x) hs
  have hfolded := Station.fold_amountOf (x := x) hfold
  show (net.putStation s').amountOf x + _ = _
  omega

/-- A load that goes on as freight keeps its cars. The draw of its destination comes before
    the one for the cars of the next load. -/
theorem forward_amountOf {p : Processor} {load : Job}
    (h : net.forward s p load d = .ok (d', net')) :
    net'.amountOf x + (if p.destinations = [] then load.carsOf x else 0) =
        net.amountOf x + load.carsOf x ∧
      net'.seedCars s.code =
        { net with generator := (net.generator.pick p.destinations).2 }.seedCars s.code := by
  rcases forward_eq_ok h with ⟨generator, hpick, -, rfl⟩ | ⟨target, generator, id, hpick, -, hjob⟩
  · rw [if_pos (Generator.eq_nil_of_pick_eq_none hpick), hpick]
    exact ⟨rfl, rfl⟩
  · have hsome : p.destinations ≠ [] := by
      intro hnil
      rw [hnil] at hpick
      exact absurd (congrArg Prod.fst hpick).symm (Option.some_ne_none target)
    rw [if_neg hsome, hpick]
    have hamount := createJob_amountOf (x := x) hjob
    refine ⟨hamount, ?_⟩
    obtain ⟨t, overflow, ht, -, rfl⟩ := createJob_eq_ok hjob
    refine seedCars_modifyStation { net with generator } s.code _ fun u hu => ?_
    cases ht.symm.trans hu
    exact ⟨rfl, rfl⟩

theorem replenish_amountOf {p : Processor} (h : net.replenish s p d = .ok (d', net')) :
    net'.amountOf x = net.amountOf x +
      if p.isGenerative then p.output.only (net.seedCars s.code) x else 0 := by
  rcases replenish_eq_ok h with ⟨hg, -, rfl⟩ | ⟨hg, id, -, hseed⟩
  · rw [if_neg hg, Nat.add_zero]
  · rw [if_pos hg]
    exact seedLoad_amountOf hseed

/-- What waited for room is folded into the queue or waits again. -/
theorem drainOverflow_amountOf (hf : net.Filed)
    (h : net.drainOverflow code cargo d = .ok (d', net')) : net'.amountOf x = net.amountOf x := by
  rcases drainOverflow_eq_ok h with ⟨-, -, rfl⟩ | ⟨s, hs, hdrained⟩
  · rfl
  · have hfound : net.station? (s.takeOverflow cargo).2.code = some s := (hf code s hs).symm ▸ hs
    have htaken := s.takeOverflow_amountOf cargo x
    rcases hdrained with ⟨hzero, -, rfl⟩ | ⟨-, hfold⟩
    · have hput := amountOf_putStation (x := x) hfound
      rw [hzero, Cargo.only_zero] at htaken
      omega
    · have hfolded := foldAt_amountOf (x := x) hfound hfold
      omega

/-- A job that is taken out of its queue has no part in what its cargo will do. -/
theorem arrival_removeJobAt (net : Network) (place : Place) (j : Job) :
    (net.removeJobAt place).arrival j x = net.arrival j x := by
  have hseed : ∀ generator, { net.removeJobAt place with generator }.seedCars j.destination =
      { net with generator }.seedCars j.destination := fun generator =>
    seedCars_modifyStation { net with generator } place.1 _ fun _ _ => ⟨rfl, rfl⟩
  have hgenerator : (net.removeJobAt place).generator = net.generator := rfl
  simp only [arrival, hseed, hgenerator]
  rw [removeJobAt, station?_modifyStation]
  by_cases hplace : place.1 = j.destination
  · rw [if_pos hplace]
    cases net.station? j.destination <;> rfl
  · rw [if_neg hplace]

/-- Where cars are unloaded, the station and what is made of the delivery account for them. -/
theorem amountOf_of_intake {j : Job} {produced : Option (Cargo × Nat)}
    (hs : net.station? j.destination = some s) (hk : j.kind = .shuntingUnload)
    (hin : s.intake j.cargo j.cars = .ok (produced, s'))
    (hnet : net'.amountOf x + s.amountOf x =
      net.amountOf x + s'.amountOf x + produced.elim 0 fun made => made.1.only made.2 x) :
    (net'.amountOf x : Int) = net.amountOf x + j.carsOf x + net.arrival j x := by
  have hcars : j.carsOf x = j.cargo.only j.cars x := rfl
  have hdelivered := Station.intake_amountOf hin x
  rw [arrival]
  cases hacc : s.acceptor? j.cargo with
  | none =>
    rw [hacc] at hdelivered
    obtain ⟨rfl, hlost⟩ := hdelivered
    simp only [Option.elim_none] at hnet
    simp only [hs, hk, if_pos (Station.acceptor?_eq_none_iff.1 hacc)]
    omega
  | some e =>
    rw [hacc] at hdelivered
    obtain ⟨hmade, hused⟩ := hdelivered
    have htaken : ¬ ∀ p ∈ s.processors, ¬ p.accepts j.cargo := fun hnone =>
      absurd (hacc.symm.trans (Station.acceptor?_eq_none_iff.2 hnone)) (Option.some_ne_none e)
    simp only [hs, hk, if_neg htaken, hacc, Option.elim_some, Processor.conversion]
    omega

/-- What the cargo of a finished job does where it arrives. The job itself is not in the
    network any more. -/
theorem dispatch_amountOf {j : Job} (hf : net.Filed) (h : net.dispatch j = .ok (d, net')) :
    (net'.amountOf x : Int) = net.amountOf x + j.carsOf x + net.arrival j x := by
  have hcars : j.carsOf x = j.cargo.only j.cars x := rfl
  -- No change moves the destination, so it is put back where it was found.
  have hfound : ∀ {s s' : Station}, net.station? j.destination = some s →
      s.Change j.cars s' → net.station? s'.code = some s := by
    intro s s' hs hch
    rw [hch.code_eq, hf _ s hs, hs]
  cases dispatched h with
  | lost hs =>
    simp only [arrival, hs]
    omega
  | hauled hs hk =>
    simp only [arrival, hs, hk]
    omega
  | delivered hs hk hin =>
    have hs' := hfound hs (Station.intake_change hin)
    exact amountOf_of_intake hs hk hin (amountOf_putStation hs')
  | produced hs hk hin hfold =>
    have hs' := hfound hs (Station.intake_change hin)
    exact amountOf_of_intake hs hk hin (foldAt_amountOf hs' hfold)
  | arrived hs hk _ hjob =>
    have hs' := hfound hs (Station.addJob_change hjob (Nat.le_refl _))
    have hput := amountOf_putStation (x := x) hs'
    have hadded := Station.addJob_amountOf (x := x) hjob
    simp only [arrival, hs, hk]
    omega
  | stranded hs hk hp hdrain =>
    have hdrained := drainOverflow_amountOf (x := x) hf hdrain
    simp only [arrival, hs, hk, hp]
    omega
  | @shipped s p d₁ d₂ d n₁ n₂ net' hs hk hp hfwd hrep hdrain =>
    have hn₂ : net.UpkeptAt s.code n₂ := (forward_upkeptAt hfwd).trans (replenish_upkeptAt hrep)
    obtain ⟨hforwarded, hseed⟩ := forward_amountOf (x := x) hfwd
    have hreplenished := replenish_amountOf (x := x) hrep
    have hdrained := drainOverflow_amountOf (x := x) (hn₂.upkept.filed hf) hdrain
    rw [hseed, Station.output_of_producerOf? hp, hf _ s hs] at hreplenished
    simp only [arrival, hs, hk, hp]
    omega

/-! ### Operations -/

/-- What a granted request changes. -/
theorem granted_amountOf {place : Place} {j : Job} {user : User} {action : Action}
    (hf : net.Filed) (hj : net.jobAt? place = some j)
    (hgranted : net.Granted user place j action net') :
    (net'.amountOf x : Int) =
      net.amountOf x + if action = .finish then net.arrival j x else 0 := by
  cases hgranted with
  | reserve =>
    have hsame := amountOf_modifyJobAt (x := x) (f := (·.reserve user)) hj fun _ => rfl
    rw [hsame]
    exact (Int.add_zero _).symm
  | @take track =>
    have hsame := amountOf_modifyJobAt (x := x) (f := (·.activate track)) hj fun _ => rfl
    rw [(revalidate_later _).alike.amountOf_eq, hsame]
    exact (Int.add_zero _).symm
  | finish hd =>
    have hremoved := amountOf_removeJobAt (x := x) hj
    have hdispatched := dispatch_amountOf (x := x) (hf.removeJobAt place) hd
    rw [arrival_removeJobAt] at hdispatched
    rw [(revalidate_later _).alike.amountOf_eq, if_pos rfl]
    omega

end Network

/-- An operation changes the cars of a cargo by what it brings in, takes out and turns into
    other cargo. -/
theorem Reachable.perform_amountOf {config : Config} {net net' : Network} {op : Operation}
    {outcome : Outcome} (h : Reachable config net) (hp : net.perform op = .ok (outcome, net'))
    (x : Cargo) : (net'.amountOf x : Int) = net.amountOf x + net.turnover x op outcome := by
  cases op with
  | addStation code minCars maxCars =>
    cases hp
    have hadded := net.amountOf_addStation (x := x) code minCars maxCars
    show ((net.addStation code minCars maxCars).amountOf x : Int) =
      net.amountOf x + -((net.station? code).elim 0 (·.amountOf x) : Nat)
    omega
  | addProcessor code p =>
    obtain ⟨⟨seeded, n⟩, hadd, hp⟩ := Faulty.bind_eq_ok_iff.1 hp
    cases hp
    exact Network.addProcessor_amountOf hadd
  | createJob origin kind destination cars cargo wage =>
    obtain ⟨⟨id, n⟩, hjob, hp⟩ := Faulty.bind_eq_ok_iff.1 hp
    cases hp
    exact congrArg Nat.cast (Network.createJob_amountOf hjob)
  | revalidate =>
    cases hp
    exact congrArg Nat.cast (net.revalidate_later.alike.amountOf_eq x)
  | request action user id =>
    have hanswered := Network.perform_request hp
    cases hanswered with
    | refused =>
      have hnone : ∀ cause, net.turnover x (.request action user id) (.refused cause) = 0 := by
        intro cause
        cases action <;> rfl
      rw [hnone, Int.add_zero]
    | granted hjob _ hj _ hgrant hgranted =>
      rw [Network.granted_amountOf h.safe.filed hj hgranted]
      cases action with
      | reserve | take => rfl
      | finish => rw [if_pos rfl, Network.turnover, hgrant, hjob]

/-- A run in which a full load of coal is taken at a mine, where more coal waits for room. -/
def shippedRun : List Operation :=
  let load := JobId.of .cm .shuntingLoad 2
  [.addStation .cm 1 3, .addStation .sm 1 3, .addProcessor .cm (.generative .coal [.sm]),
    .createJob .cm .shuntingLoad .cm 20 .coal 5, .revalidate, .request .reserve .bob load,
    .request .take .bob load]

/-- The finish of the load that was taken. -/
def shipment : Operation := .request .finish .bob (.of .cm .shuntingLoad 2)

/-- A run in which coal and wheat are about to be unloaded at a mill that takes coal only. -/
def unloadedRun : List Operation :=
  let coal := JobId.of .sm .shuntingUnload 1
  let wheat := JobId.of .sm .shuntingUnload 2
  [.addStation .sm 1 3,
    .addProcessor .sm (.ofBlueprint (Table.empty.insert .coal 2) .steelSlabs []),
    .createJob .sm .shuntingUnload .sm 5 .coal 1, .createJob .sm .shuntingUnload .sm 3 .wheat 1,
    .revalidate, .request .reserve .bob coal, .request .take .bob coal,
    .request .reserve .bob wheat, .request .take .bob wheat]

/-- The finish of what is to be unloaded. -/
def unloading (number : Nat) : Operation :=
  .request .finish .bob (.of .sm .shuntingUnload number)

/-- The load goes on as freight, what waited joins the load that the mine had before, and the
    mine brings a new load of one car: there is one car more. Of five cars of coal the mill uses
    four for two of steel; three cars of wheat are lost. -/
theorem shippedRun_perform_amountOf :
    (∃ net outcome net', (Network.empty {}).performAll shippedRun = .ok net ∧
      net.perform shipment = .ok (outcome, net') ∧ net.turnover .coal shipment outcome = 1 ∧
      ∀ x, (net'.amountOf x : Int) = net.amountOf x + net.turnover x shipment outcome) ∧
    (∃ net outcome net', (Network.empty {}).performAll unloadedRun = .ok net ∧
      net.perform (unloading 1) = .ok (outcome, net') ∧
      (net.turnover .coal (unloading 1) outcome = -4 ∧
        net.turnover .steelSlabs (unloading 1) outcome = 2) ∧
      ∀ x, (net'.amountOf x : Int) = net.amountOf x + net.turnover x (unloading 1) outcome) ∧
    ∃ net outcome net', (Network.empty {}).performAll unloadedRun = .ok net ∧
      net.perform (unloading 2) = .ok (outcome, net') ∧
      net.turnover .wheat (unloading 2) outcome = -3 ∧
      ∀ x, (net'.amountOf x : Int) = net.amountOf x + net.turnover x (unloading 2) outcome := by
  refine ⟨?_, ?_, ?_⟩
  · obtain ⟨net, outcome, net', hrun, hreachable, hp, h⟩ :=
      exists_reachable_perform {} shippedRun shipment
        (fun net outcome _ => net.turnover .coal shipment outcome = 1) (by decide +kernel)
    exact ⟨net, outcome, net', hrun, hp, of_decide_eq_true h, hreachable.perform_amountOf hp⟩
  · obtain ⟨net, outcome, net', hrun, hreachable, hp, h⟩ :=
      exists_reachable_perform {} unloadedRun (unloading 1)
        (fun net outcome _ => net.turnover .coal (unloading 1) outcome = -4 ∧
          net.turnover .steelSlabs (unloading 1) outcome = 2) (by decide +kernel)
    exact ⟨net, outcome, net', hrun, hp, of_decide_eq_true h, hreachable.perform_amountOf hp⟩
  · obtain ⟨net, outcome, net', hrun, hreachable, hp, h⟩ :=
      exists_reachable_perform {} unloadedRun (unloading 2)
        (fun net outcome _ => net.turnover .wheat (unloading 2) outcome = -3) (by decide +kernel)
    exact ⟨net, outcome, net', hrun, hp, of_decide_eq_true h, hreachable.perform_amountOf hp⟩

end RailFreight
