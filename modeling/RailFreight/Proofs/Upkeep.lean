import RailFreight.Proofs.Rounds
import RailFreight.Network.Lifecycle

/-!
# Upkeep

What happens to a network apart from the requests of its users: jobs are created, output is
folded into the queues, tracks are assigned, random numbers are drawn. However many
functions bring it about, each of them is a sequence of small steps of three shapes
(`Network.Upkeep`), and a step changes a queue in one of three ways (`Station.Change`). What
every step keeps, all of them keep. New jobs and production are work of one station
(`Network.UpkeepAt`), and no other station is touched by it.

* `Station.TakesIn`, `Station.Folds`: the ways in which a delivery and output take effect;
* `Station.fold_change`, `Station.intake_change`: production at a station;
* `Network.createJob_upkeptAt`, `Network.addProcessor_upkeptAt`, `Network.dispatch_upkeptAt`,
  `Network.revalidate_upkept`: the functions that are made of such steps;
* `Network.Dispatched`: the ways in which the cargo of a finished job takes effect;
* `Network.UpkeptAt.station?_eq`: what work at a station leaves alone.
-/

namespace RailFreight

open Relation (ReflTransGen)

/-- Cars join a job up to the ceiling, and what is above it is left over. -/
theorem Job.addCars_eq_ok_iff {j j' : Job} {count ceiling rest : Nat} :
    j.addCars count ceiling = .ok (j', rest) ↔
      j.cars + count < Count.limit ∧
        j' = { j with cars := min (j.cars + count) (max ceiling j.cars) } ∧
        rest = j.cars + count - min (j.cars + count) (max ceiling j.cars) := by
  rw [addCars, Faulty.bind_eq_ok_iff]
  simp only [Count.add_eq_ok_iff, pure, Except.pure, Except.ok.injEq, Prod.mk.injEq]
  constructor
  · rintro ⟨_, ⟨hlt, rfl⟩, rfl, rfl⟩
    exact ⟨hlt, rfl, rfl⟩
  · rintro ⟨hlt, rfl, rfl⟩
    exact ⟨_, ⟨hlt, rfl⟩, rfl, rfl⟩

/-! ## Changes of a station -/

namespace Station

/-- How the queue of a station changes, under a ceiling on the cars of a job. What else
    belongs to the station may change along. -/
inductive Change (ceiling : Nat) (s s' : Station) : Prop
  /-- The queue stays as it is. -/
  | kept : s'.code = s.code → s'.nextNumber = s.nextNumber → s'.queue = s.queue →
      Change ceiling s s'
  /-- A new job joins the queue under the next number. -/
  | queued (kind : JobKind) (destination : StationCode) (cars : Nat) (cargo : Cargo) (wage : Nat) :
      s'.code = s.code → s'.nextNumber = s.nextNumber + 1 → cars ≤ ceiling →
      s'.queue = s.queue ++ [Job.queued (JobId.of s.code kind s.nextNumber) kind s.code
        destination cars cargo wage] → Change ceiling s s'
  /-- Cars join a load that nobody has claimed. -/
  | filled (before after : List Job) (load : Job) (cargo : Cargo) (cars : Nat) :
      s'.code = s.code → s'.nextNumber = s.nextNumber → load.isMergeableLoad cargo →
      load.cars ≤ cars → cars ≤ max ceiling load.cars → s.queue = before ++ load :: after →
      s'.queue = before ++ { load with cars } :: after → Change ceiling s s'

variable {s s' s'' : Station} {ceiling : Nat}

theorem Change.code_eq (h : s.Change ceiling s') : s'.code = s.code := by
  cases h <;> assumption

theorem addOverflow_eq_ok {cargo : Cargo} {count : Nat} (h : s.addOverflow cargo count = .ok s') :
    ∃ overflow, s' = { s with overflow } := by
  rw [addOverflow] at h
  split at h
  · cases h
    exact ⟨s.overflow, rfl⟩
  · obtain ⟨overflow, -, h⟩ := Faulty.bind_eq_ok_iff.1 h
    cases h
    exact ⟨overflow, rfl⟩

theorem addJob_eq_ok {kind : JobKind} {destination : StationCode} {cars : Nat} {cargo : Cargo}
    {wage : Nat} {id : JobId} (h : s.addJob kind destination cars cargo wage = .ok (id, s')) :
    id = JobId.of s.code kind s.nextNumber ∧ s' = { s with
      nextNumber := s.nextNumber + 1
      queue := s.queue ++ [Job.queued id kind s.code destination cars cargo wage] } := by
  rw [addJob] at h
  obtain ⟨number, hn, h⟩ := Faulty.bind_eq_ok_iff.1 h
  obtain ⟨-, rfl⟩ := Count.add_eq_ok_iff.1 hn
  cases h
  exact ⟨rfl, rfl⟩

theorem addJob_change {kind : JobKind} {destination : StationCode} {cars : Nat} {cargo : Cargo}
    {wage : Nat} {id : JobId} (h : s.addJob kind destination cars cargo wage = .ok (id, s'))
    (hcars : cars ≤ ceiling) : s.Change ceiling s' := by
  obtain ⟨rfl, rfl⟩ := addJob_eq_ok h
  exact .queued kind destination cars cargo wage rfl rfl hcars rfl

/-- How a delivery is taken in, case by case. -/
inductive TakesIn (s : Station) (cargo : Cargo) (count : Nat) :
    Option (Cargo × Nat) → Station → Prop
  /-- No processor accepts it. -/
  | lost {cursor : Nat} : s.acceptor? cargo = none → TakesIn s cargo count none { s with cursor }
  /-- The processor whose turn it is gets it, and produces what it can. -/
  | accepted {i cursor units : Nat} {p q r : Processor} : s.acceptor? cargo = some (i, p) →
    p.accumulate cargo count = .ok q → q.tryProduce = .ok (units, r) →
    TakesIn s cargo count (if units = 0 || r.isSink then none else some (r.output, units))
      { s with cursor, processors := s.processors.set i r }

theorem takesIn {cargo : Cargo} {count : Nat} {produced : Option (Cargo × Nat)}
    (h : s.intake cargo count = .ok (produced, s')) : s.TakesIn cargo count produced s' := by
  rw [intake] at h
  split at h
  · rename_i hnone
    cases h
    have hlost : s.acceptor? cargo = none := by
      rw [acceptor?, turns, List.isEmpty_iff.1 hnone]
      rfl
    exact .lost hlost
  split at h
  · rename_i hlost
    cases h
    exact .lost hlost
  · rename_i i p hacc
    obtain ⟨q, hdelivery, h⟩ := Faulty.bind_eq_ok_iff.1 h
    obtain ⟨⟨units, r⟩, hproduction, h⟩ := Faulty.bind_eq_ok_iff.1 h
    cases h
    exact .accepted hacc hdelivery hproduction

/-- A delivery does not touch the queue. -/
theorem intake_change {cargo : Cargo} {count : Nat} {produced : Option (Cargo × Nat)}
    (h : s.intake cargo count = .ok (produced, s')) : s.Change ceiling s' := by
  cases takesIn h with
  | lost | accepted => exact .kept rfl rfl rfl

/-- How output is folded into the queue, case by case. -/
inductive Folds (s : Station) (cargo : Cargo) (count ceiling : Nat) : Folded → Station → Prop
  /-- It joins the first load that nobody has claimed. The load never loses cars, also when it was
      above the ceiling before. -/
  | merged {before after : List Job} {load : Job} {cars rest : Nat} {s' : Station} :
    s.queue = before ++ load :: after → load.isMergeableLoad cargo →
    (∀ k ∈ before, ¬ k.isMergeableLoad cargo) →
    cars = min (load.cars + count) (max ceiling load.cars) → cars + rest = load.cars + count →
    addOverflow { s with queue := before ++ { load with cars } :: after } cargo rest = .ok s' →
    Folds s cargo count ceiling (.merged load.id rest) s'
  /-- It makes a load of its own. -/
  | created {cars rest wage : Nat} {id : JobId} {t s' : Station} :
    (∀ k ∈ s.queue, ¬ k.isMergeableLoad cargo) → cars = min count ceiling → cars + rest = count →
    s.addJob .shuntingLoad s.code cars cargo wage = .ok (id, t) →
    t.addOverflow cargo rest = .ok s' → Folds s cargo count ceiling (.created id rest) s'

theorem folds {cargo : Cargo} {count : Nat} {folded : Folded}
    (h : s.fold cargo count ceiling = .ok (folded, s')) :
    s.Folds cargo count ceiling folded s' := by
  rw [fold] at h
  split at h
  · rename_i before load after hsplit
    obtain ⟨⟨load', rest⟩, hadd, h⟩ := Faulty.bind_eq_ok_iff.1 h
    obtain ⟨t, hrest, h⟩ := Faulty.bind_eq_ok_iff.1 h
    cases h
    obtain ⟨hqueue, hload, hfirst⟩ := append_of_splitFirst? hsplit
    obtain ⟨-, rfl, rfl⟩ := Job.addCars_eq_ok_iff.1 hadd
    have hsum := Nat.add_sub_of_le (Nat.min_le_left (load.cars + count) (max ceiling load.cars))
    have hmerged := Folds.merged hqueue hload hfirst rfl hsum hrest
    exact hmerged
  · rename_i hsplit
    obtain ⟨wage, -, h⟩ := Faulty.bind_eq_ok_iff.1 h
    obtain ⟨⟨id, t⟩, hjob, h⟩ := Faulty.bind_eq_ok_iff.1 h
    obtain ⟨u, hrest, h⟩ := Faulty.bind_eq_ok_iff.1 h
    cases h
    exact .created (splitFirst?_eq_none_iff.1 hsplit) rfl
      (Nat.add_sub_of_le (Nat.min_le_left _ _)) hjob hrest

/-- Folded output joins a load, or makes one. -/
theorem fold_change {cargo : Cargo} {count : Nat} {folded : Folded}
    (h : s.fold cargo count ceiling = .ok (folded, s')) : s.Change ceiling s' := by
  cases folds h with
  | merged hqueue hload _ hcars _ hrest =>
    obtain ⟨overflow, rfl⟩ := addOverflow_eq_ok hrest
    exact .filled _ _ _ cargo _ rfl rfl hload (by omega) (by omega) hqueue rfl
  | created _ hcars _ hjob hrest =>
    obtain ⟨overflow, rfl⟩ := addOverflow_eq_ok hrest
    obtain ⟨rfl, rfl⟩ := addJob_eq_ok hjob
    exact .queued .shuntingLoad s.code _ cargo _ rfl rfl (by omega) rfl

end Station

/-! ## Changes of a network -/

namespace Network

/-- A small step of upkeep. -/
inductive Upkeep (net net' : Network) : Prop
  /-- Random numbers are drawn. -/
  | drawn (generator : Generator) : net' = { net with generator } → Upkeep net net'
  /-- A station changes. -/
  | changed {code : StationCode} {s s' : Station} : net.station? code = some s →
      s.Change net.config.maxCars s' → net' = net.modifyStation code (fun _ => s') →
      Upkeep net net'
  /-- The decision about a job is carried out. -/
  | assigned {place : Place} {j : Job} : net.jobAt? place = some j →
      net' = net.modifyJobAt place (·.after (net.decision j)) → Upkeep net net'

/-- `net'` comes from `net` by upkeep. -/
abbrev Upkept : Network → Network → Prop := ReflTransGen Upkeep

/-- A small step of upkeep that touches one station only. -/
inductive UpkeepAt (code : StationCode) (net net' : Network) : Prop
  /-- Random numbers are drawn. -/
  | drawn (generator : Generator) : net' = { net with generator } → UpkeepAt code net net'
  /-- The station changes. -/
  | changed {s s' : Station} : net.station? code = some s →
      s.Change net.config.maxCars s' → net' = net.modifyStation code (fun _ => s') →
      UpkeepAt code net net'

/-- `net'` comes from `net` by upkeep of one station. -/
abbrev UpkeptAt (code : StationCode) : Network → Network → Prop := ReflTransGen (UpkeepAt code)

/-- Every station stands under its own code. -/
def Filed (net : Network) : Prop := ∀ code s, net.station? code = some s → s.code = code

variable {net net' : Network} {code : StationCode} {s s' : Station}

theorem Filed.modifyStation {f : Station → Station} (hf : net.Filed)
    (hcode : ∀ s, net.station? code = some s → (f s).code = code) :
    (net.modifyStation code f).Filed := by
  intro c t ht
  rcases station?_modifyStation_eq_some ht with ht | ⟨u, rfl, hu, rfl⟩
  · exact hf c t ht
  · exact hcode u hu

theorem Filed.modifyJobAt (hf : net.Filed) (place : Place) (f : Job → Job) :
    (net.modifyJobAt place f).Filed :=
  hf.modifyStation fun s hs => hf place.1 s hs

theorem Upkeep.config_eq (h : net.Upkeep net') : net'.config = net.config := by
  cases h with
  | drawn _ h => rw [h]
  | changed _ _ h => rw [h]; rfl
  | assigned _ h => rw [h]; rfl

theorem Upkept.config_eq (h : net.Upkept net') : net'.config = net.config := by
  induction h with
  | refl => rfl
  | tail _ h ih => exact h.config_eq.trans ih

/-- Upkeep neither adds nor takes away a station. -/
theorem Upkeep.keys_eq (h : net.Upkeep net') : net'.stations.keys = net.stations.keys := by
  cases h with
  | drawn _ he => rw [he]
  | changed _ _ he => rw [he, modifyStation, Table.keys_modify]
  | assigned _ he => rw [he, modifyJobAt, modifyStation, Table.keys_modify]

theorem Upkept.keys_eq (h : net.Upkept net') : net'.stations.keys = net.stations.keys := by
  induction h with
  | refl => rfl
  | tail _ h ih => exact h.keys_eq.trans ih

theorem Upkeep.filed (h : net.Upkeep net') (hf : net.Filed) : net'.Filed := by
  cases h with
  | drawn _ h => exact h ▸ hf
  | changed hs hch h => exact h ▸ hf.modifyStation fun _ _ => hch.code_eq.trans (hf _ _ hs)
  | assigned _ h => exact h ▸ hf.modifyJobAt _ _

theorem Upkept.filed (h : net.Upkept net') (hf : net.Filed) : net'.Filed := by
  induction h with
  | refl => exact hf
  | tail _ h ih => exact h.filed ih

theorem UpkeepAt.upkeep (h : net.UpkeepAt code net') : net.Upkeep net' := by
  cases h with
  | drawn generator he => exact .drawn generator he
  | changed hs hch he => exact .changed hs hch he

theorem UpkeptAt.upkept (h : net.UpkeptAt code net') : net.Upkept net' :=
  ReflTransGen.mono (fun _ _ h => h.upkeep) _ _ h

/-- Upkeep of one station leaves the others alone. -/
theorem UpkeptAt.station?_eq {c : StationCode} (h : net.UpkeptAt code net') (hc : c ≠ code) :
    net'.station? c = net.station? c := by
  induction h with
  | refl => rfl
  | tail _ h ih =>
    rw [← ih]
    cases h with
    | drawn _ he => rw [he]; rfl
    | changed _ _ he => rw [he, station?_modifyStation_of_ne hc]

/-- The changes of a station, one after the other, make up one change of the network. -/
theorem upkeptAt_of_changes (hs : net.station? code = some s)
    (h : ReflTransGen (Station.Change net.config.maxCars) s s') :
    net.UpkeptAt code (net.modifyStation code fun _ => s') := by
  induction h with
  | refl =>
    have hsame : (net.modifyStation code fun _ => s) = net :=
      (modifyStation_congr hs (f := fun _ => s) (g := id) rfl).trans (modifyStation_id net code)
    rw [hsame]
  | @tail t u _ hch ih =>
    refine ih.tail (.changed (station?_modifyStation_self hs _) hch ?_)
    rw [modifyStation, modifyStation, modifyStation, Table.modify_modify]

theorem upkeptAt_of_change (hs : net.station? code = some s) (h : s.Change net.config.maxCars s') :
    net.UpkeptAt code (net.modifyStation code fun _ => s') := upkeptAt_of_changes hs (.single h)

theorem putStation_upkeptAt {s₀ : Station} (hf : net.Filed) (hs : net.station? code = some s₀)
    (hch : ReflTransGen (Station.Change net.config.maxCars) s₀ s) :
    net.UpkeptAt code (net.putStation s) := by
  -- No change moves the station to another code, so it is put back where it was found.
  have hcode : s.code = code := by
    refine Eq.trans ?_ (hf code s₀ hs)
    clear hs
    induction hch with
    | refl => rfl
    | tail _ h ih => exact h.code_eq.trans ih
  subst hcode
  rw [putStation_eq_modifyStation hs]
  exact upkeptAt_of_changes hs hch

/-! ### New jobs -/

/-- A job is created in two steps: the cars above the ceiling are put aside, and the job is queued
    with the others. -/
theorem exists_of_createJob {kind : JobKind} {destination : StationCode} {cars : Nat}
    {cargo : Cargo} {wage : Nat} {id : JobId}
    (h : net.createJob code kind destination cars cargo wage = .ok (id, net')) :
    ∃ s t u, net.station? code = some s ∧
      s.addOverflow cargo (cars - net.config.maxCars) = .ok t ∧
      t.addJob kind destination (min cars net.config.maxCars) cargo wage = .ok (id, u) ∧
      net' = net.modifyStation code fun _ => u := by
  rw [createJob] at h
  cases hs : net.station? code with
  | none => simp [hs] at h
  | some s =>
    rw [hs] at h
    obtain ⟨t, ht, h⟩ := Faulty.bind_eq_ok_iff.1 h
    obtain ⟨⟨id, u⟩, hu, h⟩ := Faulty.bind_eq_ok_iff.1 h
    cases h
    refine ⟨s, t, u, rfl, ht, hu, ?_⟩
    rw [modifyStation, ← Table.insert_eq_modify hs]

theorem createJob_eq_ok {kind : JobKind} {destination : StationCode} {cars : Nat} {cargo : Cargo}
    {wage : Nat} {id : JobId}
    (h : net.createJob code kind destination cars cargo wage = .ok (id, net')) :
    ∃ s overflow, net.station? code = some s ∧ id = JobId.of s.code kind s.nextNumber ∧
      net' = net.modifyStation code fun _ => { s with
        overflow
        nextNumber := s.nextNumber + 1
        queue := s.queue ++ [Job.queued id kind s.code destination
          (min cars net.config.maxCars) cargo wage] } := by
  obtain ⟨s, t, u, hs, ht, hu, rfl⟩ := exists_of_createJob h
  obtain ⟨overflow, rfl⟩ := Station.addOverflow_eq_ok ht
  obtain ⟨rfl, rfl⟩ := Station.addJob_eq_ok hu
  exact ⟨s, overflow, hs, rfl, rfl⟩

theorem createJob_upkeptAt {kind : JobKind} {destination : StationCode} {cars : Nat} {cargo : Cargo}
    {wage : Nat} {id : JobId}
    (h : net.createJob code kind destination cars cargo wage = .ok (id, net')) :
    net.UpkeptAt code net' := by
  obtain ⟨s, overflow, hs, rfl, rfl⟩ := createJob_eq_ok h
  exact upkeptAt_of_change hs
    (.queued kind destination _ cargo wage rfl rfl (Nat.min_le_right _ _) rfl)

/-- A load made from nothing is a new job within the ceiling, after a draw. -/
theorem exists_createJob_of_seedLoad {cargo : Cargo} {id : JobId}
    (h : net.seedLoad code cargo = .ok (id, net')) :
    ∃ generator cars wage, cars ≤ net.config.maxCars ∧ { net with generator }.createJob code
      .shuntingLoad code cars cargo wage = .ok (id, net') := by
  rw [seedLoad] at h
  obtain ⟨wage, -, h⟩ := Faulty.bind_eq_ok_iff.1 h
  exact ⟨_, _, wage, Nat.min_le_right _ _, h⟩

theorem seedLoad_upkeptAt {cargo : Cargo} {id : JobId}
    (h : net.seedLoad code cargo = .ok (id, net')) : net.UpkeptAt code net' := by
  obtain ⟨generator, cars, wage, -, hjob⟩ := exists_createJob_of_seedLoad h
  exact .head (.drawn generator rfl) (createJob_upkeptAt hjob)

/-- A processor is added where there is a station; a generative one brings a load along. -/
theorem addProcessor_eq_ok {p : Processor} {id : Option JobId}
    (h : net.addProcessor code p = .ok (id, net')) :
    (net.station? code = none ∧ net' = net) ∨ ∃ s, net.station? code = some s ∧
      ((¬ p.isGenerative ∧ net' = net.modifyStation code (·.addProcessor p)) ∨
        p.isGenerative ∧ ∃ load, (net.modifyStation code (·.addProcessor p)).seedLoad code
          p.output = .ok (load, net')) := by
  rw [addProcessor] at h
  cases hs : net.station? code with
  | none =>
    rw [hs] at h
    cases h
    exact .inl ⟨rfl, rfl⟩
  | some s =>
    rw [hs] at h
    refine .inr ⟨s, rfl, ?_⟩
    simp only at h
    split at h
    · rename_i hg
      obtain ⟨⟨load, n⟩, hseed, h⟩ := Faulty.bind_eq_ok_iff.1 h
      cases h
      exact .inr ⟨hg, load, hseed⟩
    · rename_i hg
      cases h
      exact .inl ⟨hg, rfl⟩

theorem addProcessor_upkeptAt {p : Processor} {id : Option JobId}
    (h : net.addProcessor code p = .ok (id, net')) : net.UpkeptAt code net' := by
  rcases addProcessor_eq_ok h with ⟨-, rfl⟩ | ⟨s, hs, hadded⟩
  · exact .refl
  · have hadd : net.UpkeptAt code (net.modifyStation code (·.addProcessor p)) := by
      rw [modifyStation_congr hs (g := fun _ => s.addProcessor p) rfl]
      exact upkeptAt_of_change hs (.kept rfl rfl rfl)
    rcases hadded with ⟨-, rfl⟩ | ⟨-, load, hseed⟩
    · exact hadd
    · exact hadd.trans (seedLoad_upkeptAt hseed)

/-! ### Dispatch -/

theorem foldAt_upkeptAt {s₀ : Station} {cargo : Cargo} {count : Nat} {d d' : Dispatch}
    (hf : net.Filed) (hs : net.station? code = some s₀)
    (hch : ReflTransGen (Station.Change net.config.maxCars) s₀ s)
    (h : net.foldAt s cargo count d = .ok (d', net')) : net.UpkeptAt code net' := by
  obtain ⟨⟨folded, s'⟩, hfold, h⟩ := Faulty.bind_eq_ok_iff.1 h
  cases h
  exact putStation_upkeptAt hf hs (hch.tail (Station.fold_change hfold))

/-- A load goes on to the destination that is drawn, if there is any. -/
theorem forward_eq_ok {p : Processor} {load : Job} {d d' : Dispatch}
    (h : net.forward s p load d = .ok (d', net')) :
    (∃ generator, net.generator.pick p.destinations = (none, generator) ∧ d' = d ∧
      net' = { net with generator }) ∨
    ∃ target generator id, net.generator.pick p.destinations = (some target, generator) ∧
      d' = d.create id ∧ { net with generator }.createJob s.code .freight target load.cars
        load.cargo load.wage = .ok (id, net') := by
  rw [forward] at h
  rcases hpick : net.generator.pick p.destinations with ⟨_ | target, generator⟩
  · rw [hpick] at h
    cases h
    exact .inl ⟨generator, rfl, rfl, rfl⟩
  · rw [hpick] at h
    obtain ⟨⟨id, n⟩, hjob, h⟩ := Faulty.bind_eq_ok_iff.1 h
    cases h
    exact .inr ⟨target, generator, id, rfl, rfl, hjob⟩

theorem forward_upkeptAt {p : Processor} {load : Job} {d d' : Dispatch}
    (h : net.forward s p load d = .ok (d', net')) : net.UpkeptAt s.code net' := by
  rcases forward_eq_ok h with ⟨generator, -, -, rfl⟩ | ⟨target, generator, id, -, -, hjob⟩
  · exact .single (.drawn generator rfl)
  · exact .head (.drawn generator rfl) (createJob_upkeptAt hjob)

theorem replenish_eq_ok {p : Processor} {d d' : Dispatch}
    (h : net.replenish s p d = .ok (d', net')) :
    (¬ p.isGenerative ∧ d' = d ∧ net' = net) ∨
      p.isGenerative ∧ ∃ id, d' = d.create id ∧ net.seedLoad s.code p.output = .ok (id, net') := by
  rw [replenish] at h
  split at h
  · rename_i hg
    obtain ⟨⟨id, n⟩, hseed, h⟩ := Faulty.bind_eq_ok_iff.1 h
    cases h
    exact .inr ⟨hg, id, rfl, hseed⟩
  · rename_i hg
    cases h
    exact .inl ⟨hg, rfl, rfl⟩

theorem replenish_upkeptAt {p : Processor} {d d' : Dispatch}
    (h : net.replenish s p d = .ok (d', net')) : net.UpkeptAt s.code net' := by
  rcases replenish_eq_ok h with ⟨-, -, rfl⟩ | ⟨-, id, -, hseed⟩
  · exact .refl
  · exact seedLoad_upkeptAt hseed

/-- What waits for room at a station is folded into its queue, if there is any. -/
theorem drainOverflow_eq_ok {cargo : Cargo} {d d' : Dispatch}
    (h : net.drainOverflow code cargo d = .ok (d', net')) :
    (net.station? code = none ∧ d' = d ∧ net' = net) ∨ ∃ s, net.station? code = some s ∧
      ((s.overflowOf cargo = 0 ∧ d' = d ∧ net' = net.putStation (s.takeOverflow cargo).2) ∨
        s.overflowOf cargo ≠ 0 ∧
          net.foldAt (s.takeOverflow cargo).2 cargo (s.overflowOf cargo) d = .ok (d', net')) := by
  rw [drainOverflow] at h
  rcases hs : net.station? code with _ | s
  · rw [hs] at h
    cases h
    exact .inl ⟨rfl, rfl, rfl⟩
  · rw [hs] at h
    refine .inr ⟨s, rfl, ?_⟩
    simp only at h
    split at h
    · rename_i hzero
      cases h
      exact .inl ⟨hzero, rfl, rfl⟩
    · rename_i hwaits
      exact .inr ⟨hwaits, h⟩

theorem drainOverflow_upkeptAt {cargo : Cargo} {d d' : Dispatch} (hf : net.Filed)
    (h : net.drainOverflow code cargo d = .ok (d', net')) : net.UpkeptAt code net' := by
  rcases drainOverflow_eq_ok h with ⟨-, -, rfl⟩ | ⟨s, hs, hdrained⟩
  · exact .refl
  · have hch : s.Change net.config.maxCars (s.takeOverflow cargo).2 := .kept rfl rfl rfl
    rcases hdrained with ⟨-, -, rfl⟩ | ⟨-, hfold⟩
    · exact putStation_upkeptAt hf hs (.single hch)
    · exact foldAt_upkeptAt hf hs (.single hch) hfold

/-- How the cargo of a finished job takes effect, case by case. -/
inductive Dispatched (net : Network) (j : Job) : Dispatch → Network → Prop
  /-- The destination is outside the network. -/
  | lost : net.station? j.destination = none → Dispatched net j .none net
  /-- Nothing is made of the delivery, at least not yet. -/
  | delivered {s s' : Station} : net.station? j.destination = some s →
    j.kind = .shuntingUnload → s.intake j.cargo j.cars = .ok (none, s') →
    Dispatched net j .none (net.putStation s')
  | produced {s s' : Station} {made : Cargo × Nat} {d : Dispatch} {net' : Network} :
    net.station? j.destination = some s → j.kind = .shuntingUnload →
    s.intake j.cargo j.cars = .ok (some made, s') →
    net.foldAt s' made.1 made.2 .none = .ok (d, net') → Dispatched net j d net'
  | arrived {s s' : Station} {wage : Nat} {id : JobId} : net.station? j.destination = some s →
    j.kind = .freight → Count.mul j.cars unloadWagePerCar = .ok wage →
    s.addJob .shuntingUnload s.code j.cars j.cargo wage = .ok (id, s') →
    Dispatched net j (Dispatch.none.create id) (net.putStation s')
  /-- The load has no producer that could send it on. -/
  | stranded {s : Station} {d : Dispatch} {net' : Network} :
    net.station? j.destination = some s → j.kind = .shuntingLoad → s.producerOf? j.cargo = none →
    net.drainOverflow s.code j.cargo .none = .ok (d, net') → Dispatched net j d net'
  /-- The load is forwarded, the stock is replenished, and the overflow is drained. -/
  | shipped {s : Station} {p : Processor} {d₁ d₂ d : Dispatch} {n₁ n₂ net' : Network} :
    net.station? j.destination = some s → j.kind = .shuntingLoad →
    s.producerOf? j.cargo = some p → net.forward s p j .none = .ok (d₁, n₁) →
    n₁.replenish s p d₁ = .ok (d₂, n₂) → n₂.drainOverflow s.code j.cargo d₂ = .ok (d, net') →
    Dispatched net j d net'
  | hauled {s : Station} : net.station? j.destination = some s → j.kind = .logistics →
    Dispatched net j .none net

theorem dispatched {j : Job} {d : Dispatch} (h : net.dispatch j = .ok (d, net')) :
    net.Dispatched j d net' := by
  rw [dispatch] at h
  cases hs : net.station? j.destination with
  | none =>
    rw [hs] at h
    cases h
    exact .lost hs
  | some s =>
    rw [hs] at h
    simp only at h
    cases hk : j.kind with
    | shuntingUnload =>
      rw [hk] at h
      obtain ⟨⟨made?, s'⟩, hin, h⟩ := Faulty.bind_eq_ok_iff.1 h
      cases made? with
      | none =>
        cases h
        exact .delivered hs hk hin
      | some made => exact .produced hs hk hin h
    | freight =>
      rw [hk] at h
      obtain ⟨wage, hwage, h⟩ := Faulty.bind_eq_ok_iff.1 h
      obtain ⟨⟨id, s'⟩, hjob, h⟩ := Faulty.bind_eq_ok_iff.1 h
      cases h
      exact .arrived hs hk hwage hjob
    | shuntingLoad =>
      rw [hk] at h
      simp only at h
      cases hp : s.producerOf? j.cargo with
      | none =>
        rw [hp] at h
        exact .stranded hs hk hp h
      | some p =>
        rw [hp] at h
        obtain ⟨⟨d₁, n₁⟩, hfwd, h⟩ := Faulty.bind_eq_ok_iff.1 h
        obtain ⟨⟨d₂, n₂⟩, hrep, h⟩ := Faulty.bind_eq_ok_iff.1 h
        exact .shipped hs hk hp hfwd hrep h
    | logistics =>
      rw [hk] at h
      cases h
      exact .hauled hs hk

/-- The cargo of a finished job takes effect by upkeep of its destination alone. -/
theorem dispatch_upkeptAt {j : Job} {d : Dispatch} (hf : net.Filed)
    (hcars : j.cars ≤ net.config.maxCars) (h : net.dispatch j = .ok (d, net')) :
    net.UpkeptAt j.destination net' := by
  cases dispatched h with
  | lost | hauled => exact .refl
  | delivered hs _ hin => exact putStation_upkeptAt hf hs (.single (Station.intake_change hin))
  | produced hs _ hin hfold =>
    exact foldAt_upkeptAt hf hs (.single (Station.intake_change hin)) hfold
  | arrived hs _ _ hjob =>
    exact putStation_upkeptAt hf hs (.single (Station.addJob_change hjob hcars))
  | stranded hs _ _ hdrain =>
    rw [← hf _ _ hs]
    exact drainOverflow_upkeptAt hf hdrain
  | @shipped s p d₁ d₂ d n₁ n₂ _ hs _ _ hfwd hrep hdrain =>
    rw [← hf _ s hs]
    have hsent : net.UpkeptAt s.code n₂ := (forward_upkeptAt hfwd).trans (replenish_upkeptAt hrep)
    exact hsent.trans (drainOverflow_upkeptAt (hsent.upkept.filed hf) hdrain)

/-! ### Re-validation -/

theorem visit_upkept (net : Network) (v : JobKind × Place) : net.Upkept (net.visit v).2 := by
  rcases visit_snd_cases net v with h | ⟨j, hj, -, h⟩
  · rw [h]
  · exact .single (.assigned hj h)

theorem Later.upkept (h : net.Later net') : net.Upkept net' := by
  induction h with
  | refl => exact .refl
  | tail _ hv ih =>
    obtain ⟨v, rfl⟩ := hv
    exact ih.trans (visit_upkept _ v)

theorem revalidate_upkept (net : Network) : net.Upkept net.revalidate.2 :=
  net.revalidate_later.upkept

end Network

end RailFreight
