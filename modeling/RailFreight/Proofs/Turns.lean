import RailFreight.Proofs.Supply
import Mathlib.Algebra.Order.Floor.Div
import Mathlib.Data.Int.CardIntervalMod
import Mathlib.Data.List.Rotate

/-!
# Turns

The processors of a station that accept a cargo take turns at the deliveries of it. Lined up in
the order in which they would be asked, the first one gets the delivery, whole, and then stands at
the end of the line (`Station.lineUp_intake`). The line is their order in the station, begun
somewhere else; so deliveries of one cargo go round the acceptors in that order, and no acceptor
gets two more than another.

The place where the asking begins is always that of a processor, if there is any, whatever is
delivered and whichever processors are added.

* `Station.lineUp`, `Station.lineUp_isRotated`: the acceptors of a cargo, by their turns;
* `Station.lineUp_intake`, `Station.Series.exists_places`: which acceptor gets which delivery;
* `Station.Worked`, `Reachable.every_worked`: stations that have been worked, and that those of a
  reachable network are of this kind;
* `deliveries_take_turns`: the turns are fair.
-/

namespace RailFreight

open List (Forall₂)

/-! ## Lists -/

/-- The elements that are picked from a list begun elsewhere are those picked from the list, begun
    elsewhere. -/
theorem filter_rotate_isRotated {α : Type} (p : α → Bool) (xs : List α) (n : Nat) :
    (xs.rotate n).filter p ~r xs.filter p := by
  rw [List.rotate_eq_drop_append_take_mod, List.filter_append]
  refine List.isRotated_append.trans ?_
  rw [← List.filter_append, List.take_append_drop]

/-- Numbers in order that are begun beyond their end are begun where one comes out going round. -/
theorem range_rotate_mod (n i : Nat) :
    (List.range n).rotate (i % n) = (List.range n).rotate i := by
  simpa only [List.length_range] using List.rotate_mod (List.range n) i

/-- In a list where those of another list take turns, a window of one turn each is the other list,
    begun elsewhere. -/
theorem window_eq_rotate {α : Type} {xs turns : List α} {i : Nat}
    (hat : ∀ j < xs.length, xs[j]? = turns[j % turns.length]?)
    (hi : i + turns.length ≤ xs.length) : (xs.drop i).take turns.length = turns.rotate i := by
  refine List.ext_getElem? fun j => ?_
  by_cases hj : j < turns.length
  · rw [List.getElem?_take_of_lt hj, List.getElem?_drop, hat _ (by omega),
      List.getElem?_rotate hj, Nat.add_comm]
  · rw [List.getElem?_eq_none (by rw [List.length_take]; omega),
      List.getElem?_eq_none (by rw [List.length_rotate]; omega)]

/-- By turns, an element comes as often as there are full rounds, and once more if its turn has
    come in the round that is not full. -/
theorem count_turns {xs turns : List Nat} {v : Nat} (hnodup : turns.Nodup)
    (hat : ∀ j < xs.length, xs[j]? = turns[j % turns.length]?) (hv : v < turns.length) :
    xs.count turns[v] =
      xs.length / turns.length + if v < xs.length % turns.length then 1 else 0 := by
  have hpos : 0 < turns.length := Nat.zero_lt_of_lt hv
  have hsome : xs.map some = (List.range xs.length).map fun j => turns[j % turns.length]? := by
    refine List.ext_getElem? fun j => ?_
    rw [List.getElem?_map, List.getElem?_map]
    by_cases hj : j < xs.length
    · rw [List.getElem?_range hj, Option.map_some, ← hat j hj, List.getElem?_eq_getElem hj]
      rfl
    · rw [List.getElem?_eq_none (Nat.not_lt.1 hj), List.getElem?_eq_none (by simpa using hj)]
      rfl
  have hturn : ∀ j ∈ List.range xs.length,
      (turns[j % turns.length]? == some turns[v]) = true ↔
        decide (j ≡ v [MOD turns.length]) = true := by
    intro j _
    have hlt : j % turns.length < turns.length := Nat.mod_lt j hpos
    rw [beq_iff_eq, decide_eq_true_iff, List.getElem?_eq_getElem hlt, Option.some_inj,
      hnodup.getElem_inj_iff, Nat.ModEq, Nat.mod_eq_of_lt hv]
  calc xs.count turns[v] = (xs.map some).count (some turns[v]) :=
        (List.count_map_of_injective xs some (Option.some_injective _) _).symm
    _ = (List.range xs.length).countP fun j => turns[j % turns.length]? == some turns[v] := by
        rw [hsome, List.count, List.countP_map]
        rfl
    _ = xs.length.count (· ≡ v [MOD turns.length]) := List.countP_congr hturn
    _ = _ := by rw [Nat.count_modEq_card _ hpos, Nat.mod_eq_of_lt hv]

/-- A round that has begun but is not full counts as one more. -/
theorem div_add_one_eq_ceilDiv {k a : Nat} (ha : 0 < a) (hbegun : 0 < k % a) :
    k / a + 1 = k ⌈/⌉ a := by
  have hdiv := Nat.div_add_mod' k a
  have hlt := Nat.mod_lt k ha
  rw [Nat.ceilDiv_eq_add_pred_div]
  refine (Nat.div_eq_of_lt_le ?_ ?_).symm
  · rw [Nat.succ_mul]
    omega
  · rw [Nat.succ_mul, Nat.succ_mul]
    omega

/-! ## Lines -/

namespace Station

variable {s s' : Station} {cargo : Cargo} {count : Nat} {made : Option (Cargo × Nat)}

/-- Whether the processor at place `i` accepts `cargo`. -/
def acceptsAt (s : Station) (cargo : Cargo) (i : Nat) : Bool :=
  (s.processors[i]?).any (·.accepts cargo)

/-- The places of the processors that accept `cargo`, in order. -/
def acceptors (s : Station) (cargo : Cargo) : List Nat :=
  (List.range s.processors.length).filter (s.acceptsAt cargo)

/-- The same places in the order in which they are asked next. -/
def lineUp (s : Station) (cargo : Cargo) : List Nat := s.turns.filter (s.acceptsAt cargo)

/-- The places are asked in their order, begun at the cursor. -/
theorem turns_eq_rotate (s : Station) :
    s.turns = (List.range s.processors.length).rotate s.cursor := by
  refine List.ext_getElem (by simp [turns]) fun k h₁ h₂ => ?_
  simp [turns, List.getElem_rotate, Nat.add_comm]

theorem lineUp_isRotated (s : Station) (cargo : Cargo) : s.lineUp cargo ~r s.acceptors cargo := by
  rw [lineUp, turns_eq_rotate]
  exact filter_rotate_isRotated _ _ _

theorem nodup_acceptors (s : Station) (cargo : Cargo) : (s.acceptors cargo).Nodup :=
  List.nodup_range.filter _

/-- Only the processors and the cursor matter. -/
theorem lineUp_congr (hprocessors : s'.processors = s.processors) (hcursor : s'.cursor = s.cursor) :
    s'.lineUp cargo = s.lineUp cargo := by
  have haccepts : s'.acceptsAt cargo = s.acceptsAt cargo := by
    funext i
    rw [acceptsAt, hprocessors, acceptsAt]
  rw [lineUp, turns, hprocessors, hcursor, haccepts]
  rfl

/-! ## Deliveries -/

/-- A delivery goes to place `i`: the processor there accepts the cargo, gets all of it into its
    buffer and produces what it can, and the processor behind it is asked first the next time.
    Everything else at the station is left alone. -/
def Serves (s : Station) (cargo : Cargo) (count i : Nat) (s' : Station) : Prop :=
  ∃ p q r units, s.processors[i]? = some p ∧ p.accepts cargo ∧
    p.accumulate cargo count = .ok q ∧
    (∀ x, q.buffered x = p.buffered x + cargo.only count x) ∧ q.tryProduce = .ok (units, r) ∧
    s' = { s with
      cursor := (i + 1) % s.processors.length
      processors := s.processors.set i r }

/-- A delivery goes to the processor that is found for it, or else only the turn passes on. -/
theorem serves_or_lost (h : s.intake cargo count = .ok (made, s')) :
    (∃ i p, s.acceptor? cargo = some (i, p) ∧ s.Serves cargo count i s') ∨
    s.acceptor? cargo = none ∧ s' = { s with cursor := if s.processors.isEmpty then s.cursor
      else (s.cursor + 1) % s.processors.length } := by
  rw [intake] at h
  split at h
  · rename_i hnone
    cases h
    refine .inr ⟨?_, by rw [if_pos hnone]⟩
    rw [acceptor?, turns, List.isEmpty_iff.1 hnone]
    rfl
  · rename_i hsome
    split at h
    · rename_i hlost
      cases h
      exact .inr ⟨hlost, by rw [if_neg hsome]⟩
    · rename_i i p hacc
      obtain ⟨q, hdelivery, h⟩ := Faulty.bind_eq_ok_iff.1 h
      obtain ⟨⟨units, r⟩, hproduction, h⟩ := Faulty.bind_eq_ok_iff.1 h
      cases h
      obtain ⟨hp, haccepts⟩ := acceptor?_eq_some hacc
      exact .inl ⟨i, p, hacc, p, q, r, units, hp, haccepts, hdelivery,
        (Processor.accumulate_eq_ok hdelivery).2, hproduction, rfl⟩

/-- What a processor accepts does not change when it is served. -/
theorem Serves.acceptsAt_eq {i : Nat} (h : s.Serves cargo count i s') :
    s'.acceptsAt cargo = s.acceptsAt cargo := by
  obtain ⟨p, q, r, units, hp, haccepts, hdelivery, -, hproduction, rfl⟩ := h
  have hblueprint : r.blueprint = p.blueprint := by
    rw [(Processor.tryProduce_amount hproduction).2.1, (Processor.accumulate_eq_ok hdelivery).1]
  funext k
  rw [acceptsAt, acceptsAt, List.getElem?_set]
  split
  · rename_i hik
    subst hik
    rw [if_pos (List.getElem?_eq_some_iff.1 hp).1, hp, Option.any_some, Option.any_some,
      Processor.accepts, hblueprint, Processor.accepts]
  · rfl

/-- When the asking begins behind a place, that place and those before it come last. -/
theorem rotate_succ_eq {before after : List Nat} {i : Nat} (h : s.turns = before ++ i :: after) :
    (List.range s.processors.length).rotate (i + 1) = after ++ (before ++ [i]) := by
  -- The place is as far behind the cursor as there are places asked before it.
  have hi : i = (s.cursor + before.length) % s.processors.length := by
    have hget : s.turns[before.length]? = some i := by
      rw [h, List.getElem?_append_right (Nat.le_refl _), Nat.sub_self, List.getElem?_cons_zero]
    rw [turns, List.getElem?_map] at hget
    obtain ⟨m, hm, rfl⟩ := Option.map_eq_some_iff.1 hget
    rw [← (List.getElem?_eq_some_iff.1 hm).2, List.getElem_range]
  calc (List.range s.processors.length).rotate (i + 1)
      = ((List.range s.processors.length).rotate i).rotate 1 := (List.rotate_rotate ..).symm
    _ = ((List.range s.processors.length).rotate (s.cursor + before.length)).rotate 1 := by
        rw [hi, range_rotate_mod]
    _ = s.turns.rotate (before ++ [i]).length := by
        rw [turns_eq_rotate, List.rotate_rotate, List.rotate_rotate, List.length_append,
          List.length_singleton, Nat.add_assoc]
    _ = after ++ (before ++ [i]) := by
        rw [h, List.append_cons, List.rotate_append_length_eq]

/-- A processor that does not accept the cargo is passed over. -/
theorem passedOver_iff {i : Nat} :
    ((s.processors[i]?).bind fun p => if p.accepts cargo then some (i, p) else none) = none ↔
      s.acceptsAt cargo i = false := by
  rw [acceptsAt]
  cases s.processors[i]? <;> simp

/-- A delivery goes to the first acceptor in the line, which then stands at its end. -/
theorem lineUp_intake (hne : s.lineUp cargo ≠ []) (h : s.intake cargo count = .ok (made, s')) :
    ∃ i rest, s.lineUp cargo = i :: rest ∧ s.Serves cargo count i s' ∧
      s'.lineUp cargo = rest ++ [i] := by
  rcases serves_or_lost h with ⟨i, p, hacc, hserves⟩ | ⟨hlost, -⟩
  · -- The processors that are asked before it do not accept the cargo.
    obtain ⟨before, k, after, hturns, hk, hbefore⟩ := List.findSome?_eq_some_iff.1 hacc
    obtain ⟨hp, haccepts⟩ := acceptor?_eq_some hacc
    obtain rfl : k = i := by
      obtain ⟨q, -, hk⟩ := Option.bind_eq_some_iff.1 hk
      split at hk
      · exact (Prod.mk.inj (Option.some.inj hk)).1
      · exact absurd hk nofun
    have hnone : before.filter (s.acceptsAt cargo) = [] :=
      List.filter_eq_nil_iff.2 fun j hj => by
        rw [passedOver_iff.1 (hbefore j hj)]
        exact Bool.false_ne_true
    have hself : s.acceptsAt cargo k = true := by rw [acceptsAt, hp, Option.any_some, haccepts]
    refine ⟨k, after.filter (s.acceptsAt cargo), ?_, hserves, ?_⟩
    · rw [lineUp, hturns, List.filter_append, hnone, List.filter_cons_of_pos hself, List.nil_append]
    · rw [lineUp, hserves.acceptsAt_eq, turns_eq_rotate]
      obtain ⟨p, q, r, units, -, -, -, -, -, rfl⟩ := hserves
      have hnext := rotate_succ_eq hturns
      rw [List.length_set, range_rotate_mod, hnext, List.filter_append, List.filter_append, hnone,
        List.filter_cons_of_pos hself, List.filter_nil, List.nil_append]
  · refine absurd (List.filter_eq_nil_iff.2 fun j hj => ?_) hne
    rw [passedOver_iff.1 (List.findSome?_eq_none_iff.1 hlost j hj)]
    exact Bool.false_ne_true

/-- A delivery: the station before it, the cars, what was made of them, and the station after
    it. -/
structure Delivery where
  before : Station
  count : Nat
  made : Option (Cargo × Nat)
  after : Station

/-- Deliveries of one cargo to a station, one after the other, none of which meets a fault. Between
    them anything may happen to the station that leaves its processors and its cursor alone. -/
inductive Series (cargo : Cargo) : Station → List Delivery → Prop
  | nil {s : Station} : Series cargo s []
  | cons {s : Station} {d : Delivery} {log : List Delivery} :
    d.before.processors = s.processors → d.before.cursor = s.cursor →
    d.before.intake cargo d.count = .ok (d.made, d.after) → Series cargo d.after log →
    Series cargo s (d :: log)

/-- Every delivery of a series goes to one acceptor, and they go round the line again and again. -/
theorem Series.exists_places {log : List Delivery} (h : Series cargo s log)
    (hne : s.lineUp cargo ≠ []) :
    ∃ places : List Nat,
      Forall₂ (fun d i => d.before.Serves cargo d.count i d.after) log places ∧
      ∀ j < places.length, places[j]? = (s.lineUp cargo)[j % (s.lineUp cargo).length]? := by
  induction h with
  | nil => exact ⟨[], .nil, fun j hj => absurd hj (Nat.not_lt_zero j)⟩
  | @cons s d log hprocessors hcursor hintake _ ih =>
    have hline : d.before.lineUp cargo = s.lineUp cargo := lineUp_congr hprocessors hcursor
    rw [← hline] at hne ⊢
    obtain ⟨i, rest, hfirst, hserves, hnext⟩ := lineUp_intake hne hintake
    have hne' : d.after.lineUp cargo ≠ [] := by
      rw [hnext]
      exact List.concat_ne_nil i rest
    obtain ⟨places, hplaces, hturns⟩ := ih hne'
    refine ⟨i :: places, .cons hserves hplaces, fun j hj => ?_⟩
    -- The line of the deliveries that follow is begun one place further on.
    have hrotate : d.after.lineUp cargo = (i :: rest).rotate 1 := by
      rw [hnext, List.rotate_cons_succ, List.rotate_zero]
    rw [hfirst]
    cases j with
    | zero => rw [Nat.zero_mod]; rfl
    | succ j =>
      have hlt : j % (i :: rest).length < (i :: rest).length := Nat.mod_lt j (Nat.succ_pos _)
      rw [List.getElem?_cons_succ, hturns j (Nat.lt_of_succ_lt_succ hj), hrotate,
        List.length_rotate, List.getElem?_rotate hlt, Nat.mod_add_mod]

/-! ## The cursor -/

/-- Stations that were worked: processors were added, cargo was delivered, and whatever else
    happened left the processors and the cursor alone. -/
inductive Worked : Station → Prop
  | new (code : StationCode) (minCars maxCars : Nat) : Worked (.new code minCars maxCars)
  | addProcessor {s : Station} (p : Processor) : Worked s → Worked (s.addProcessor p)
  | intake {s s' : Station} {cargo : Cargo} {count : Nat} {made : Option (Cargo × Nat)} :
    Worked s → s.intake cargo count = .ok (made, s') → Worked s'
  | other {s s' : Station} :
    Worked s → s'.processors = s.processors → s'.cursor = s.cursor → Worked s'

/-- The cursor stays at a processor; only without processors it stands before the first place. -/
theorem Worked.cursor_lt (h : s.Worked) : s.cursor < max s.processors.length 1 := by
  induction h with
  | new => exact Nat.one_pos
  | @addProcessor s p _ ih =>
    show s.cursor < max (s.processors ++ [p]).length 1
    rw [List.length_append, List.length_singleton]
    omega
  | @intake s s' cargo count made _ hintake ih =>
    rcases serves_or_lost hintake with ⟨i, p, -, hserves⟩ | ⟨-, rfl⟩
    · obtain ⟨p, q, r, units, hp, -, -, -, -, rfl⟩ := hserves
      have hpos := Nat.zero_lt_of_lt (List.getElem?_eq_some_iff.1 hp).1
      have hlt := Nat.mod_lt (i + 1) hpos
      simp only [List.length_set]
      omega
    · simp only
      split
      · exact ih
      · rename_i hne
        have hpos : 0 < s.processors.length := List.length_pos_iff.2 (by simpa using hne)
        have hlt := Nat.mod_lt (s.cursor + 1) hpos
        omega
  | other _ hprocessors hcursor ih => rwa [hprocessors, hcursor]

theorem Worked.fold {ceiling : Nat} {folded : Folded} (h : s.Worked)
    (hfold : s.fold cargo count ceiling = .ok (folded, s')) : s'.Worked := by
  cases folds hfold with
  | merged _ _ _ _ _ hrest =>
    obtain ⟨overflow, rfl⟩ := addOverflow_eq_ok hrest
    exact h.other rfl rfl
  | created _ _ _ hjob hrest =>
    obtain ⟨overflow, rfl⟩ := addOverflow_eq_ok hrest
    obtain ⟨-, rfl⟩ := addJob_eq_ok hjob
    exact h.other rfl rfl

end Station

namespace Network

open Station (Worked)

variable {net net' : Network} {code : StationCode} {s : Station} {p : Processor} {load j : Job}
  {cargo : Cargo} {d d' : Dispatch} {id : JobId} {user : User} {action : Action} {place : Place}

theorem createJob_worked {kind : JobKind} {destination : StationCode} {cars wage : Nat}
    (h : net.Every Worked)
    (hjob : net.createJob code kind destination cars cargo wage = .ok (id, net')) :
    net'.Every Worked := by
  obtain ⟨s, overflow, hs, -, rfl⟩ := createJob_eq_ok hjob
  exact h.modifyStation fun _ _ _ => (h code s hs).other rfl rfl

theorem seedLoad_worked (h : net.Every Worked) (hseed : net.seedLoad code cargo = .ok (id, net')) :
    net'.Every Worked := by
  obtain ⟨generator, cars, wage, -, hjob⟩ := exists_createJob_of_seedLoad hseed
  have hdrawn : Every Worked { net with generator } := h
  exact createJob_worked hdrawn hjob

theorem addProcessor_worked {seeded : Option JobId} (h : net.Every Worked)
    (hadd : net.addProcessor code p = .ok (seeded, net')) : net'.Every Worked := by
  have hadded : (net.modifyStation code (·.addProcessor p)).Every Worked :=
    h.modifyStation fun _ _ hs => hs.addProcessor p
  rcases addProcessor_eq_ok hadd with ⟨-, rfl⟩ | ⟨s, -, ⟨-, rfl⟩ | ⟨-, load, hseed⟩⟩
  · exact h
  · exact hadded
  · exact seedLoad_worked hadded hseed

theorem forward_worked (h : net.Every Worked) (hfwd : net.forward s p load d = .ok (d', net')) :
    net'.Every Worked := by
  rcases forward_eq_ok hfwd with ⟨generator, -, -, rfl⟩ | ⟨target, generator, id, -, -, hjob⟩
  · exact h
  · have hdrawn : Every Worked { net with generator } := h
    exact createJob_worked hdrawn hjob

theorem replenish_worked (h : net.Every Worked) (hrep : net.replenish s p d = .ok (d', net')) :
    net'.Every Worked := by
  rcases replenish_eq_ok hrep with ⟨-, -, rfl⟩ | ⟨-, id, -, hseed⟩
  · exact h
  · exact seedLoad_worked h hseed

theorem foldAt_worked {count : Nat} (h : net.Every Worked) (hs : s.Worked)
    (hfolded : net.foldAt s cargo count d = .ok (d', net')) : net'.Every Worked := by
  obtain ⟨⟨folded, t⟩, hfold, hput⟩ := Faulty.bind_eq_ok_iff.1 hfolded
  cases hput
  exact h.putStation (hs.fold hfold)

theorem drainOverflow_worked (h : net.Every Worked)
    (hdrain : net.drainOverflow code cargo d = .ok (d', net')) : net'.Every Worked := by
  rcases drainOverflow_eq_ok hdrain with ⟨-, -, rfl⟩ | ⟨s, hs, hdrained⟩
  · exact h
  · have htaken : (s.takeOverflow cargo).2.Worked := (h code s hs).other rfl rfl
    rcases hdrained with ⟨-, -, rfl⟩ | ⟨-, hfolded⟩
    · exact h.putStation htaken
    · exact foldAt_worked h htaken hfolded

theorem dispatch_worked (h : net.Every Worked) (hd : net.dispatch j = .ok (d, net')) :
    net'.Every Worked := by
  cases dispatched hd with
  | lost | hauled => exact h
  | delivered hs _ hin => exact h.putStation ((h _ _ hs).intake hin)
  | produced hs _ hin hfolded => exact foldAt_worked h ((h _ _ hs).intake hin) hfolded
  | arrived hs _ _ hjob =>
    obtain ⟨-, rfl⟩ := Station.addJob_eq_ok hjob
    exact h.putStation ((h _ _ hs).other rfl rfl)
  | stranded _ _ _ hdrain => exact drainOverflow_worked h hdrain
  | shipped _ _ _ hfwd hrep hdrain =>
    exact drainOverflow_worked (replenish_worked (forward_worked h hfwd) hrep) hdrain

/-- Tracks have nothing to do with it. -/
theorem Alike.worked (halike : net.Alike net') (h : net.Every Worked) : net'.Every Worked := by
  intro code s' hs'
  have hsame := halike.untracked_eq code
  rw [hs', Option.map_some] at hsame
  obtain ⟨s, hs, hu⟩ := Option.map_eq_some_iff.1 hsame.symm
  exact (h code s hs).other (congrArg Station.processors hu).symm (congrArg Station.cursor hu).symm

theorem claimed_worked (h : net.Every Worked) (hclaimed : net.Claimed user place j action net') :
    net'.Every Worked := by
  cases hclaimed with
  | reserve | take | finish => exact h.modifyStation fun _ _ hs => hs.other rfl rfl

theorem perform_worked {op : Operation} {outcome : Outcome} (h : net.Every Worked)
    (hp : net.perform op = .ok (outcome, net')) : net'.Every Worked := by
  cases op with
  | addStation code minCars maxCars =>
    cases hp
    exact h.addStation minCars maxCars (.new code minCars maxCars)
  | addProcessor code p =>
    obtain ⟨⟨seeded, n⟩, hadd, hp⟩ := Faulty.bind_eq_ok_iff.1 hp
    cases hp
    exact addProcessor_worked h hadd
  | createJob =>
    obtain ⟨⟨id, n⟩, hjob, hp⟩ := Faulty.bind_eq_ok_iff.1 hp
    cases hp
    exact createJob_worked h hjob
  | revalidate =>
    cases hp
    exact (revalidate_later net).alike.worked h
  | request action user id =>
    cases perform_request hp with
    | refused => exact h
    | @granted place j _ _ _ _ _ _ _ hgranted =>
      cases hgranted with
      | reserve =>
        have hclaimed : net.Claimed user place j .reserve _ := .reserve
        exact claimed_worked h hclaimed
      | take ht =>
        have hclaimed : net.Claimed user place j .take _ := .take ht
        exact (revalidate_later _).alike.worked (claimed_worked h hclaimed)
      | finish hd =>
        have hclaimed : net.Claimed user place j .finish _ := .finish
        exact (revalidate_later _).alike.worked (dispatch_worked (claimed_worked h hclaimed) hd)

end Network

/-- The stations of a reachable network were worked. -/
theorem Reachable.every_worked {config : Config} {net : Network} (h : Reachable config net) :
    net.Every Station.Worked := by
  refine h.invariant (fun code s hs => ?_) fun _ _ _ _ h hp => Network.perform_worked h hp
  have hnone : (Network.empty config).station? code = none := Table.get?_empty code
  rw [hnone] at hs
  exact absurd hs nofun

/-- Deliveries of a cargo go round the processors that accept it. In any series of deliveries of the
    cargo to a station, each goes whole to one acceptor and leaves everything else at the station
    alone; as many deliveries in a row as there are acceptors reach each of them once, in their
    order, begun anywhere; so no acceptor gets two more than another, and each gets its share of
    the series, rounded down or up. And the cursor is always the place of a processor, if there is
    any, at every station that was worked, such as those of reachable networks. -/
theorem deliveries_take_turns :
    (∀ (s : Station) (cargo : Cargo) (log : List Station.Delivery), Station.Series cargo s log →
      s.acceptors cargo ≠ [] →
      ∃ places : List Nat,
        Forall₂ (fun d i => d.before.Serves cargo d.count i d.after) log places ∧
        (∀ k, k + (s.acceptors cargo).length ≤ log.length →
          (places.drop k).take (s.acceptors cargo).length ~r s.acceptors cargo) ∧
        (∀ i ∈ s.acceptors cargo, ∀ j ∈ s.acceptors cargo, places.count i ≤ places.count j + 1) ∧
        ∀ i ∈ s.acceptors cargo,
          places.count i = log.length / (s.acceptors cargo).length ∨
            places.count i = log.length ⌈/⌉ (s.acceptors cargo).length) ∧
    (∀ s : Station, s.Worked → s.processors ≠ [] → s.cursor < s.processors.length) ∧
    ∀ (config : Config) (net : Network), Reachable config net → ∀ code s,
      net.station? code = some s → s.Worked := by
  refine ⟨fun s cargo log hlog hne => ?_, fun s hs hne => ?_, fun _ _ h => h.every_worked⟩
  · have hrotated := s.lineUp_isRotated cargo
    have hlength := hrotated.perm.length_eq
    have hne' : s.lineUp cargo ≠ [] := fun hnil =>
      hne (List.isRotated_nil_iff'.1 (hnil ▸ hrotated)).symm
    obtain ⟨places, hserved, hturns⟩ := hlog.exists_places hne'
    -- Each acceptor comes in every full round, and in the last one if its turn has come.
    have hcount : ∀ i ∈ s.acceptors cargo, ∃ v : Nat,
        places.count i = log.length / (s.acceptors cargo).length +
          if v < log.length % (s.acceptors cargo).length then 1 else 0 := by
      intro i hi
      obtain ⟨v, hv, rfl⟩ := List.getElem_of_mem (hrotated.mem_iff.2 hi)
      refine ⟨v, ?_⟩
      rw [hserved.length_eq, ← hlength]
      exact count_turns (hrotated.nodup_iff.2 (s.nodup_acceptors cargo)) hturns hv
    refine ⟨places, hserved, fun k hk => ?_, fun i hi j hj => ?_, fun i hi => ?_⟩
    · rw [← hlength] at hk ⊢
      rw [window_eq_rotate hturns (hserved.length_eq ▸ hk)]
      exact (List.IsRotated.forall _ k).trans hrotated
    · obtain ⟨v, hv⟩ := hcount i hi
      obtain ⟨w, hw⟩ := hcount j hj
      rw [hv, hw]
      split <;> omega
    · obtain ⟨v, hv⟩ := hcount i hi
      rw [hv]
      split
      · rename_i hlt
        exact .inr (div_add_one_eq_ceilDiv (List.length_pos_iff.2 hne) (Nat.zero_lt_of_lt hlt))
      · exact .inl rfl
  · have hlt := hs.cursor_lt
    rwa [Nat.max_eq_left (List.length_pos_iff.2 hne)] at hlt

/-- Of three processors the first and the last take coal. The cursor stands at the one between them,
    since a delivery of wheat was lost. Coal comes three times, and something is put aside in
    between. -/
theorem threeMills_take_turns :
    let mill := Processor.ofBlueprint (Table.ofList [(.coal, 3)]) .steelSlabs []
    let saw := Processor.ofBlueprint (Table.ofList [(.logs, 1)]) .boards []
    let s := { Station.new .cm 1 3 with processors := [mill, saw, mill], cursor := 1 }
    ∃ log : List Station.Delivery, (Station.Series .coal s log ∧ s.acceptors .coal ≠ []) ∧
      (s.Worked ∧ s.processors ≠ []) ∧
      (∃ places : List Nat,
        Forall₂ (fun d i => d.before.Serves .coal d.count i d.after) log places ∧
        places.take 2 ~r [0, 2] ∧ (places.drop 1).take 2 ~r [0, 2] ∧
        places.count 0 ≤ places.count 2 + 1 ∧
        (places.count 0 = 1 ∨ places.count 0 = 2)) ∧
      s.cursor < 3 ∧
      ∃ net, Reachable {} net ∧ ∃ t, net.station? .cm = some t ∧ t.Worked := by
  intro mill saw s
  obtain ⟨hfair, hcursor, hreachable⟩ := deliveries_take_turns
  let fed (count : Nat) : Processor := { mill with buffer := Table.ofList [(.coal, count)] }
  let first : Station := { s with processors := [mill, saw, fed 2], cursor := 0 }
  let aside : Station := { first with overflow := Table.ofList [(.boards, 4)] }
  let second : Station := { aside with processors := [fed 1, saw, fed 2], cursor := 1 }
  let third : Station := { second with processors := [fed 1, saw, fed 0], cursor := 0 }
  let log : List Station.Delivery := [⟨s, 2, none, first⟩,
    ⟨aside, 4, some (.steelSlabs, 1), second⟩, ⟨second, 1, some (.steelSlabs, 1), third⟩]
  have hlog : Station.Series .coal s log :=
    .cons rfl rfl (by decide +kernel) (.cons rfl rfl (by decide +kernel)
      (.cons rfl rfl (by decide +kernel) .nil))
  have hacceptors : s.acceptors .coal = [0, 2] := by decide +kernel
  have hne : s.acceptors .coal ≠ [] := by rw [hacceptors]; exact List.cons_ne_nil _ _
  have hbuilt : ({ s with cursor := 0 } : Station).Worked :=
    (((Station.Worked.new .cm 1 3).addProcessor mill).addProcessor saw).addProcessor mill
  have hmissed : ({ s with cursor := 0 } : Station).intake .wheat 5 = .ok (none, s) := by
    decide +kernel
  have hworked : s.Worked := hbuilt.intake hmissed
  obtain ⟨places, hserved, hround, hclose, hshare⟩ := hfair s .coal log hlog hne
  rw [hacceptors] at hround hclose hshare
  have hfloor : log.length / [0, 2].length = 1 := by decide +kernel
  have hceil : log.length ⌈/⌉ [0, 2].length = 2 := by decide +kernel
  rw [hfloor, hceil] at hshare
  obtain ⟨net, -, hnet, hstation⟩ := exists_reachable {} [.addStation .cm 1 3]
    (fun net => (net.station? .cm).isSome) (by decide +kernel)
  obtain ⟨t, ht⟩ := Option.isSome_iff_exists.1 hstation
  refine ⟨log, ⟨hlog, hne⟩, ⟨hworked, List.cons_ne_nil _ _⟩,
    ⟨places, hserved, hround 0 (by decide), hround 1 (by decide),
      hclose 0 (by decide) 2 (by decide), hshare 0 (by decide)⟩,
    hcursor s hworked (List.cons_ne_nil _ _), net, hnet, t, ht, hreachable {} net hnet .cm t ht⟩

end RailFreight
