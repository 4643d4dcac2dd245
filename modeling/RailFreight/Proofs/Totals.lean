import RailFreight.Proofs.Issuing
import Mathlib.Algebra.BigOperators.Group.Finset.Piecewise
import Mathlib.Algebra.Order.BigOperators.Group.Finset
import Mathlib.Algebra.BigOperators.Ring.Finset
import Mathlib.Data.Fintype.EquivFin

/-!
# The cars of all cargo

Production turns one cargo into another, so the cars of a single cargo have no bound of their
own. Their number over all cargo has one: a unit of output takes at least one car of something,
and all else that a finished job does is to move cars or to lose them, apart from one new load
that is made from nothing.

* `Network.totalCars`: the cars in a network;
* `Processor.units_le`, `Processor.sum_conversion_nonpos`: what production makes, it takes from the
  buffer;
* `Network.sum_arrival_le`: what a finished job adds is one load at most;
* `Network.granted_totalCars_le`: what any granted request adds.
-/

namespace RailFreight

open Finset (sum_add_distrib sum_le_sum single_le_sum)

instance : Finite Cargo :=
  Finite.of_injective (fun c => (⟨c.index, (List.getElem?_eq_some_iff.1 c.getElem?_index).1⟩ :
    Fin Cargo.all.length)) fun _ _ h => rank_injective (congrArg Fin.val h)

noncomputable instance : Fintype Cargo := .ofFinite Cargo

theorem Cargo.sum_only (cargo : Cargo) (count : Nat) : ∑ x, cargo.only count x = count := by
  simp only [only, Finset.sum_ite_eq', Finset.mem_univ, if_true]

theorem Cargo.sum_cast_only (cargo : Cargo) (count : Nat) :
    ∑ x, (cargo.only count x : Int) = count := by
  rw [← Nat.cast_sum, cargo.sum_only]

/-- The cars at a station. -/
noncomputable def Station.totalCars (s : Station) : Nat := ∑ x, s.amountOf x

/-- The cars in a network. -/
noncomputable def Network.totalCars (net : Network) : Nat := ∑ x, net.amountOf x

theorem Job.sum_carsOf (j : Job) : ∑ x, j.carsOf x = j.cars := j.cargo.sum_only j.cars

theorem Station.amountOf_le_totalCars (s : Station) (x : Cargo) : s.amountOf x ≤ s.totalCars :=
  single_le_sum (f := s.amountOf) (fun _ _ => Nat.zero_le _) (Finset.mem_univ x)

/-! ## Production -/

namespace Processor

variable {p : Processor}

/-- A processor that is not generative needs something. -/
theorem one_le_sum_needOf (h : ¬ p.isGenerative) : 1 ≤ ∑ x, p.needOf x := by
  obtain ⟨x, hx⟩ : ∃ x, x ∈ p.blueprint.keys := by
    by_contra hnone
    exact h (List.all_eq_true.2 fun x hx => absurd ⟨x, hx⟩ hnone)
  obtain ⟨⟨y, need⟩, he, rfl⟩ := List.mem_map.1 hx
  have hneed : p.needOf y = perUnit need := by
    rw [needOf, Table.mem_entries_iff.1 he, Option.map_some, Option.getD_some]
  have hle := single_le_sum (f := p.needOf) (fun _ _ => Nat.zero_le _) (Finset.mem_univ y)
  rw [hneed] at hle
  exact (Nat.le_max_right need 1).trans hle

/-- Units that are produced take at least as many cars as they are. -/
theorem units_le (p : Processor) (cargo : Cargo) (count : Nat) :
    p.unitsFrom cargo count ≤ ∑ x, p.unitsFrom cargo count * p.needOf x := by
  by_cases hg : p.isGenerative
  · rw [unitsFrom, if_pos hg]
    exact Nat.zero_le _
  · rw [← Finset.mul_sum]
    exact Nat.le_mul_of_pos_right _ (one_le_sum_needOf hg)

/-- Over all cargo, the processing of a delivery adds nothing. -/
theorem sum_conversion_nonpos (p : Processor) (cargo : Cargo) (count : Nat) :
    ∑ x, p.conversion cargo count x ≤ 0 := by
  have hunits := p.units_le cargo count
  have hneed : ∑ x, (p.unitsFrom cargo count : Int) * p.needOf x =
      (∑ x, p.unitsFrom cargo count * p.needOf x : Nat) := by
    rw [Nat.cast_sum]
    exact Finset.sum_congr rfl fun x _ => (Nat.cast_mul _ _).symm
  refine le_trans (sum_le_sum (g := fun x =>
    (p.output.only (p.unitsFrom cargo count) x : Int) - p.unitsFrom cargo count * p.needOf x)
    fun x _ => ?_) ?_
  · rw [conversion]
    split <;> omega
  · rw [Finset.sum_sub_distrib, Cargo.sum_cast_only, hneed]
    omega

end Processor

/-- What is produced of a delivery and what is left at the station is no more than what was there
    and what was delivered. -/
theorem Station.intake_totalCars_le {s s' : Station} {cargo : Cargo} {count : Nat}
    {produced : Option (Cargo × Nat)} (h : s.intake cargo count = .ok (produced, s')) :
    s'.totalCars + produced.elim 0 Prod.snd ≤ s.totalCars + count := by
  have hamount := intake_amountOf h
  rcases hacc : s.acceptor? cargo with _ | ⟨i, p⟩
  · simp only [hacc] at hamount
    obtain ⟨rfl, -⟩ := hamount cargo
    simp only [totalCars, fun x => (hamount x).2, Option.elim_none, Nat.add_zero]
    exact Nat.le_add_right _ _
  · simp only [hacc] at hamount
    have htaken : s'.totalCars + ∑ x, p.unitsFrom cargo count * p.needOf x = s.totalCars + count :=
      calc s'.totalCars + ∑ x, p.unitsFrom cargo count * p.needOf x
        _ = ∑ x, (s.amountOf x + cargo.only count x) := by
          rw [totalCars, ← sum_add_distrib]
          exact Finset.sum_congr rfl fun x _ => (hamount x).2
        _ = s.totalCars + count := by rw [sum_add_distrib, cargo.sum_only, totalCars]
    have hmade : produced.elim 0 Prod.snd ≤ p.unitsFrom cargo count := by
      rcases produced with _ | ⟨made, units⟩
      · exact Nat.zero_le _
      · obtain ⟨hmade, -⟩ := hamount made
        have hself : made.only units made = units := if_pos rfl
        have hle : (if p.isSink then 0 else p.output.only (p.unitsFrom cargo count) made) ≤
            p.unitsFrom cargo count := by
          rw [Cargo.only]
          split_ifs <;> omega
        rw [← hmade] at hle
        exact hself ▸ hle
    have hunits := p.units_le cargo count
    omega

namespace Network

variable {net net' : Network} {code : StationCode} {s s' : Station} {j : Job} {place : Place}
  {user : User} {action : Action}

theorem seedCars_le (net : Network) (code : StationCode) : net.seedCars code ≤ net.config.maxCars :=
  Nat.min_le_right _ _

theorem amountOf_le_totalCars (net : Network) (x : Cargo) : net.amountOf x ≤ net.totalCars :=
  single_le_sum (f := net.amountOf) (fun _ _ => Nat.zero_le _) (Finset.mem_univ x)

/-- The cars at a station are cars in the network. -/
theorem amountOf_le (hs : net.station? code = some s) (x : Cargo) :
    s.amountOf x ≤ net.amountOf x :=
  List.le_sum_of_mem (List.mem_map_of_mem (mem_stationList_iff.2 ⟨code, hs⟩))

theorem totalCars_le (hs : net.station? code = some s) : s.totalCars ≤ net.totalCars :=
  sum_le_sum fun x _ => amountOf_le hs x

/-! ## Finished jobs -/

/-- Over all cargo, a finished job adds at most one load that is made from nothing. -/
theorem sum_arrival_le (net : Network) (j : Job) :
    ∑ x, net.arrival j x ≤ net.config.maxCars := by
  -- Where cars are lost, the sum is not above zero.
  have hlost : ∀ f : Cargo → Int, (∀ x, f x ≤ 0) → ∑ x, f x ≤ net.config.maxCars := fun f hf =>
    (Finset.sum_nonpos fun x _ => hf x).trans (Int.natCast_nonneg _)
  simp only [arrival]
  split
  · exact hlost _ fun x => by omega
  · rename_i s _
    split
    · split
      · exact hlost _ fun x => by omega
      · cases s.acceptor? j.cargo with
        | none => exact hlost _ fun x => Int.le_refl 0
        | some taker =>
          exact (taker.2.sum_conversion_nonpos j.cargo j.cars).trans (Int.natCast_nonneg _)
    · exact hlost _ fun x => Int.le_refl 0
    · split
      · exact hlost _ fun x => by omega
      · rename_i p _
        have hseed := seedCars_le
          { net with generator := (net.generator.pick p.destinations).2 } j.destination
        refine le_trans (sum_le_sum (g := fun x => (j.cargo.only
          (seedCars { net with generator := (net.generator.pick p.destinations).2 } j.destination) x
            : Int)) fun x _ => ?_) ?_
        · split <;> split <;> omega
        · rw [Cargo.sum_cast_only]
          exact Int.ofNat_le.2 hseed
    · exact hlost _ fun x => by omega

/-- A granted request adds at most one load that is made from nothing. -/
theorem granted_totalCars_le (hf : net.Filed) (hj : net.jobAt? place = some j)
    (hgranted : net.Granted user place j action net') :
    net'.totalCars ≤ net.totalCars + net.config.maxCars := by
  have hsum : (net'.totalCars : Int) =
      net.totalCars + ∑ x, if action = .finish then net.arrival j x else 0 := by
    rw [totalCars, totalCars, Nat.cast_sum, Nat.cast_sum, ← sum_add_distrib]
    exact Finset.sum_congr rfl fun x _ => granted_amountOf hf hj hgranted
  have harrival := net.sum_arrival_le j
  by_cases haction : action = .finish
  · simp only [if_pos haction] at hsum
    omega
  · simp only [if_neg haction, Finset.sum_const_zero] at hsum
    omega

end Network

end RailFreight
