import RailFreight.Proofs.Supply

/-!
# Ledgers of loads

Loads are queued by users, seeded by processors that make their cargo from nothing, and made by
folding output into a queue; they leave when they are finished, and what waited for room on them
is folded in again. Each of these touches one cargo at one station, and of that cargo a few
numbers only: how many loads of it are queued, how many of them run to another station or are
still unclaimed, and how many cars wait in the overflow. Together with the processors that make
the cargo they are its *ledger* at the station.

A ledger is a view of the network. What every function does to the network is told here once as
what it does to the ledgers, and what an operation can do to a ledger is a short list
(`Ledger.Turn`). Laws about loads are laws about ledgers then.

* `Station.fold_ledger`, `Station.intake_ledger`, `Network.drainOverflow_ledger`,
  `Network.dispatch_ledger`: what the functions do to the ledgers;
* `Network.perform_ledger`: what an operation does to a ledger, while loads run from their
  station to itself.
-/

namespace RailFreight

/-! ## Ledgers -/

/-- Whether the job is a load of the cargo. -/
def Job.isLoadOf (j : Job) (cargo : Cargo) : Bool := j.kind = .shuntingLoad && j.cargo = cargo

/-- Whether the job is a load of the cargo that runs to another station than `code`. -/
def Job.isStrayOf (j : Job) (code : StationCode) (cargo : Cargo) : Bool :=
  j.isLoadOf cargo && !decide (j.destination = code)

/-- What there is of a cargo at a station. -/
structure Ledger where
  /-- How many loads of the cargo are queued. -/
  loads : Nat
  /-- How many of them run to another station. -/
  strays : Nat
  /-- How many of them nobody has claimed. -/
  unclaimed : Nat
  /-- How many cars wait for room on a load. -/
  waiting : Nat
  /-- Of each processor that makes the cargo, in order, whether it is generative. -/
  makers : List Bool

namespace Ledger

/-- The ledger of a cargo that was never there. -/
def blank : Ledger := ⟨0, 0, 0, 0, []⟩

/-- One more load, from the station to itself. -/
def addLoad (l : Ledger) : Ledger := { l with loads := l.loads + 1, unclaimed := l.unclaimed + 1 }

/-- Output joins an unclaimed load or makes one; `waiting` cars wait for room afterwards. -/
def fold (l : Ledger) (waiting : Nat) : Ledger :=
  { (if l.unclaimed = 0 then l.addLoad else l) with waiting }

/-- The first of the makers brings the next load, if it is generative. -/
def replenish (l : Ledger) : Ledger := if l.makers.head? = some true then l.addLoad else l

/-- One more maker, which brings a load along if it is generative. -/
def addMaker (l : Ledger) (generative : Bool) : Ledger :=
  let l := { l with makers := l.makers ++ [generative] }
  if generative then l.addLoad else l

/-- What waited is folded in, if anything did. -/
inductive Drained (l : Ledger) : Ledger → Prop
  | dry : l.waiting = 0 → Drained l l
  | folded (waiting : Nat) : l.waiting ≠ 0 → Drained l (l.fold waiting)

/-- What an operation does to the ledger of a cargo at a station. -/
inductive Turn (code : StationCode) (x : Cargo) : Operation → Ledger → Ledger → Prop
  | kept {op : Operation} {l : Ledger} : Turn code x op l l
  | replaced {minCars maxCars : Nat} {l : Ledger} :
    Turn code x (.addStation code minCars maxCars) l .blank
  | equipped {p : Processor} {l : Ledger} : p.output = x →
    Turn code x (.addProcessor code p) l (l.addMaker p.isGenerative)
  | queued {destination : StationCode} {cars wage : Nat} {l : Ledger} (waiting : Nat) :
    Turn code x (.createJob code .shuntingLoad destination cars x wage) l
      { l.addLoad with waiting }
  | claimed {action : Action} {user : User} {id : JobId} {l : Ledger} (unclaimed : Nat) :
    unclaimed ≤ l.unclaimed → Turn code x (.request action user id) l { l with unclaimed }
  /-- A processor that is not generative makes output of a delivery. -/
  | made {user : User} {id : JobId} {l : Ledger} (waiting : Nat) : false ∈ l.makers →
    Turn code x (.request .finish user id) l (l.fold waiting)
  /-- A claimed load leaves, the makers bring the next one, and what waited is folded in. -/
  | shipped {user : User} {id : JobId} {l l' : Ledger} (loads : Nat) : l.loads = loads + 1 →
    l.unclaimed ≤ loads → { l with loads }.replenish.Drained l' →
    Turn code x (.request .finish user id) l l'

@[simp] theorem fold_strays (l : Ledger) (waiting : Nat) : (l.fold waiting).strays = l.strays := by
  rw [fold]
  split <;> rfl

/-- What waited is folded in again, so it does not show afterwards. -/
theorem fold_of_taken (l : Ledger) (waiting : Nat) :
    { l with waiting := 0 }.fold waiting = l.fold waiting := by
  rw [fold, fold]
  split <;> rfl

theorem replenish_strays (l : Ledger) : l.replenish.strays = l.strays := by
  rw [replenish]
  split <;> rfl

theorem addMaker_strays (l : Ledger) (generative : Bool) :
    (l.addMaker generative).strays = l.strays := by
  cases generative <;> rfl

theorem Drained.strays_eq {l l' : Ledger} (h : l.Drained l') : l'.strays = l.strays := by
  cases h with
  | dry => rfl
  | folded waiting => exact l.fold_strays waiting

/-- No operation makes a load run to another station. -/
theorem Turn.strays_eq_zero {code : StationCode} {x : Cargo} {op : Operation} {l l' : Ledger}
    (h : Turn code x op l l') (hl : l.strays = 0) : l'.strays = 0 := by
  cases h with
  | kept | claimed | queued => exact hl
  | replaced => rfl
  | equipped => rwa [addMaker_strays]
  | made waiting => rwa [fold_strays]
  | shipped loads _ _ hd => rwa [hd.strays_eq, replenish_strays]

end Ledger

/-- The ledger of a cargo at the station. -/
def Station.ledger (s : Station) (x : Cargo) : Ledger where
  loads := s.queue.countP (·.isLoadOf x)
  strays := s.queue.countP (·.isStrayOf s.code x)
  unclaimed := s.queue.countP (·.isMergeableLoad x)
  waiting := s.overflowOf x
  makers := (s.processors.filter (·.output = x)).map Processor.isGenerative

/-- The ledger of a cargo at the station of that code; it is blank where there is no station. -/
def Network.ledger (net : Network) (code : StationCode) (x : Cargo) : Ledger :=
  (net.station? code).elim .blank (·.ledger x)

/-! ## Jobs in a queue -/

/-- A position splits a list into what is before it, what is there, and what is behind it. -/
theorem exists_eq_append_of_getElem? {α : Type} {xs : List α} {i : Nat} {x : α}
    (h : xs[i]? = some x) : ∃ before after, xs = before ++ x :: after ∧
      xs.eraseIdx i = before ++ after ∧ ∀ f, xs.modify i f = before ++ f x :: after := by
  obtain ⟨hi, rfl⟩ := List.getElem?_eq_some_iff.1 h
  refine ⟨xs.take i, xs.drop (i + 1), ?_, List.eraseIdx_eq_take_drop_succ xs i, fun f => ?_⟩
  · rw [← List.drop_eq_getElem_cons hi, List.take_append_drop]
  · exact List.modify_eq_take_cons_drop hi

namespace Job

variable {j : Job} {x : Cargo}

theorem isLoadOf_iff : j.isLoadOf x ↔ j.kind = .shuntingLoad ∧ j.cargo = x := by
  simp [isLoadOf]

theorem isMergeableLoad_iff :
    j.isMergeableLoad x ↔ j.isLoadOf x ∧ ¬ j.isReserved ∧ ¬ j.isActive := by
  simp [isMergeableLoad, isLoadOf, and_assoc]

end Job

/-! ## Stations -/

namespace Station

variable {s s' : Station} {cargo x : Cargo} {count cars wage : Nat} {kind : JobKind}
  {destination : StationCode} {id : JobId}

theorem untracked_ledger (s : Station) (x : Cargo) : s.untracked.ledger x = s.ledger x := by
  simp only [ledger, untracked, List.countP_map]
  rfl

/-- The unclaimed loads are loads. -/
theorem unclaimed_le_loads (s : Station) (x : Cargo) :
    (s.ledger x).unclaimed ≤ (s.ledger x).loads :=
  List.countP_mono_left fun _ _ h => (Job.isMergeableLoad_iff.1 h).1

theorem addProcessor_ledger (s : Station) (p : Processor) (x : Cargo) :
    (s.addProcessor p).ledger x = { s.ledger x with
      makers := (s.ledger x).makers ++ if p.output = x then [p.isGenerative] else [] } := by
  simp only [ledger, addProcessor, overflowOf, List.filter_append, List.map_append]
  split <;> rename_i hp <;> simp [hp]

theorem addOverflow_ledger (h : s.addOverflow cargo count = .ok s') (x : Cargo) :
    s'.ledger x = { s.ledger x with
      waiting := (s.ledger x).waiting + cargo.only count x } := by
  rw [addOverflow] at h
  split at h
  · rename_i hzero
    cases h
    rw [hzero, Cargo.only_zero]
    rfl
  · obtain ⟨overflow, hadd, h⟩ := Faulty.bind_eq_ok_iff.1 h
    cases h
    simp only [ledger, overflowOf, Stock.add_amount hadd]

theorem takeOverflow_ledger (s : Station) (cargo x : Cargo) :
    (s.takeOverflow cargo).2.ledger x =
      if x = cargo then { s.ledger x with waiting := 0 } else s.ledger x := by
  have htaken := Stock.erase_amount s.overflow cargo x
  rw [Cargo.only] at htaken
  by_cases hx : x = cargo
  · subst hx
    rw [if_pos rfl] at htaken ⊢
    have hnone : Stock.amount (s.overflow.erase x) x = 0 := by omega
    simp only [ledger, takeOverflow, overflowOf, hnone]
  · rw [if_neg hx] at htaken ⊢
    simp only [ledger, takeOverflow, overflowOf, ← htaken, Nat.add_zero]

/-- Nothing is taken where nothing waits. -/
theorem takeOverflow_ledger_of_eq_zero (h : s.overflowOf cargo = 0) (x : Cargo) :
    (s.takeOverflow cargo).2.ledger x = s.ledger x := by
  rw [takeOverflow_ledger]
  split
  · rename_i hx
    have hwaiting : (s.ledger x).waiting = 0 := hx ▸ h
    rw [← hwaiting]
  · rfl

/-- A new load to the station itself. -/
theorem addJob_ledger_of_load (h : s.addJob .shuntingLoad s.code cars cargo wage = .ok (id, s'))
    (x : Cargo) : s'.ledger x = if x = cargo then (s.ledger x).addLoad else s.ledger x := by
  obtain ⟨-, rfl⟩ := addJob_eq_ok h
  split <;> rename_i hx <;>
    simp [ledger, overflowOf, Ledger.addLoad, Job.isLoadOf, Job.isStrayOf, Job.isMergeableLoad,
      Job.isReserved, Job.isActive, Job.queued, hx, eq_comm]

/-- A new job that is no load. -/
theorem addJob_ledger_of_ne (h : s.addJob kind destination cars cargo wage = .ok (id, s'))
    (hkind : kind ≠ .shuntingLoad) (x : Cargo) : s'.ledger x = s.ledger x := by
  obtain ⟨-, rfl⟩ := addJob_eq_ok h
  simp [ledger, overflowOf, Job.isLoadOf, Job.isStrayOf, Job.isMergeableLoad, Job.queued, hkind]

/-- Output that is folded into a queue joins an unclaimed load of its cargo, or makes one. -/
theorem fold_ledger {ceiling : Nat} {folded : Folded}
    (h : s.fold cargo count ceiling = .ok (folded, s')) :
    (∃ waiting, s'.ledger cargo = (s.ledger cargo).fold waiting) ∧
      ∀ x, x ≠ cargo → s'.ledger x = s.ledger x := by
  cases folds h with
  | @merged before after load cars rest _ hqueue hload _ _ _ hrest =>
    -- More cars on a load do not show in the ledger.
    have hsame : ∀ x, Station.ledger
        { s with queue := before ++ { load with cars } :: after } x = s.ledger x := by
      intro x
      simp only [ledger, hqueue, List.countP_append, List.countP_cons]
      rfl
    refine ⟨⟨(s.ledger cargo).waiting + rest, ?_⟩, fun x hx => ?_⟩
    · have hsome : (s.ledger cargo).unclaimed ≠ 0 := by
        refine Nat.ne_of_gt (List.countP_pos_iff.2 ⟨load, ?_, hload⟩)
        rw [hqueue]
        exact List.mem_append_right _ List.mem_cons_self
      rw [addOverflow_ledger hrest, hsame, Ledger.fold, if_neg hsome, Cargo.only, if_pos rfl]
    · rw [addOverflow_ledger hrest, hsame, Cargo.only, if_neg hx]
      rfl
  | @created cars rest _ _ _ _ hall _ _ hjob hrest =>
    refine ⟨⟨(s.ledger cargo).waiting + rest, ?_⟩, fun x hx => ?_⟩
    · have hnone : (s.ledger cargo).unclaimed = 0 := List.countP_eq_zero.2 hall
      rw [addOverflow_ledger hrest, addJob_ledger_of_load hjob, if_pos rfl, Ledger.fold,
        if_pos hnone, Cargo.only, if_pos rfl]
      rfl
    · rw [addOverflow_ledger hrest, addJob_ledger_of_load hjob, if_neg hx, Cargo.only, if_neg hx]
      rfl

/-- The buffer of a processor does not matter to what it makes. -/
theorem makers_set {i : Nat} {p r : Processor} (hp : s.processors[i]? = some p)
    (hr : r = { p with buffer := r.buffer }) (x : Cargo) :
    ((s.processors.set i r).filter (·.output = x)).map Processor.isGenerative =
      (s.processors.filter (·.output = x)).map Processor.isGenerative := by
  have houtput : r.output = p.output := by rw [hr]
  have hgenerative : r.isGenerative = p.isGenerative := by
    rw [hr]
    rfl
  obtain ⟨hi, rfl⟩ := List.getElem?_eq_some_iff.1 hp
  conv_rhs => rw [← List.take_append_drop i s.processors, List.drop_eq_getElem_cons hi]
  rw [List.set_eq_take_append_cons_drop, if_pos hi]
  simp only [List.filter_append, List.filter_cons, List.map_append, houtput]
  split <;> simp [hgenerative]

/-- What is made of a delivery is the output of a processor that is not generative. -/
theorem exists_maker_of_takesIn {made : Cargo × Nat} (h : s.TakesIn cargo count (some made) s') :
    ∃ p ∈ s.processors, p.output = made.1 ∧ p.isGenerative = false := by
  generalize hproduced : some made = produced at h
  cases h with
  | lost => cases hproduced
  | @accepted _ _ units p q r hacc hdelivery hproduction =>
    obtain ⟨hp, -⟩ := acceptor?_eq_some hacc
    obtain ⟨hq, -⟩ := Processor.accumulate_eq_ok hdelivery
    obtain ⟨hunits, hr, -⟩ := Processor.tryProduce_amount hproduction
    split at hproduced
    · cases hproduced
    · rename_i hsome
      obtain rfl := Option.some.inj hproduced
      refine ⟨p, List.mem_of_getElem? hp, by rw [hr, hq], ?_⟩
      by_contra hg
      rw [Bool.not_eq_false] at hg
      refine hsome (Bool.or_eq_true_iff.2 (.inl (decide_eq_true ?_)))
      rw [hunits, if_pos]
      rw [hq]
      exact hg

/-- A delivery leaves all ledgers as they are; what is made of it has a maker that is not
    generative. -/
theorem intake_ledger {produced : Option (Cargo × Nat)}
    (h : s.intake cargo count = .ok (produced, s')) :
    (∀ x, s'.ledger x = s.ledger x) ∧
      ∀ made, produced = some made → false ∈ (s.ledger made.1).makers := by
  have htaken := takesIn h
  refine ⟨?_, fun made hmade => ?_⟩
  · cases htaken with
    | lost => exact fun _ => rfl
    | @accepted _ _ _ p _ r hacc hdelivery hproduction =>
      obtain ⟨hp, -⟩ := acceptor?_eq_some hacc
      obtain ⟨hq, -⟩ := Processor.accumulate_eq_ok hdelivery
      obtain ⟨-, hr, -⟩ := Processor.tryProduce_amount hproduction
      have hsame : r = { p with buffer := r.buffer } := by rw [hr, hq]
      intro x
      simp only [ledger, overflowOf, makers_set hp hsame]
  · obtain ⟨p, hp, houtput, hg⟩ := exists_maker_of_takesIn (hmade ▸ htaken)
    exact List.mem_map.2 ⟨p, List.mem_filter.2 ⟨hp, decide_eq_true houtput⟩, hg⟩

/-- The first maker of a cargo is its producer. -/
theorem head?_makers (s : Station) (x : Cargo) :
    (s.ledger x).makers.head? = (s.producerOf? x).map Processor.isGenerative := by
  rw [ledger, List.head?_map, List.head?_filter, producerOf?]

end Station

/-! ## Networks -/

/-- How the cargo of a finished job shows in the ledger of a cargo at a station. -/
inductive Ledger.Dispatched (j : Job) (code : StationCode) (x : Cargo) : Ledger → Ledger → Prop
  | kept {l : Ledger} : (j.isLoadOf x → code ≠ j.destination) → Dispatched j code x l l
  | made {l : Ledger} (waiting : Nat) : ¬ j.isLoadOf x → false ∈ l.makers →
    Dispatched j code x l (l.fold waiting)
  | shipped {l l' : Ledger} : j.isLoadOf x → code = j.destination → l.replenish.Drained l' →
    Dispatched j code x l l'

/-- A job that is finished was in a queue before; there it counts, if it is a load. -/
theorem Ledger.Dispatched.turn {j : Job} {origin code : StationCode} {x : Cargo} {l l' : Ledger}
    (h : Dispatched j code x l l') (hhome : j.isLoadOf x → j.destination = origin)
    (hunclaimed : l.unclaimed ≤ l.loads) (user : User) (id : JobId) :
    Turn code x (.request .finish user id)
      { l with loads := l.loads + if origin = code ∧ j.isLoadOf x then 1 else 0 } l' := by
  cases h with
  | kept hother =>
    rw [if_neg fun h => hother h.2 (h.1.symm.trans (hhome h.2).symm)]
    exact .kept
  | made waiting hother hmakers =>
    rw [if_neg fun h => hother h.2]
    exact .made waiting hmakers
  | shipped hload hc hdrained =>
    rw [if_pos ⟨(hc.trans (hhome hload)).symm, hload⟩]
    exact .shipped l.loads rfl hunclaimed hdrained

namespace Network

variable {net net' : Network} {code : StationCode} {s : Station} {cargo : Cargo} {id : JobId}
  {cars wage : Nat} {kind : JobKind} {destination : StationCode} {p : Processor} {load j : Job}
  {d d' : Dispatch} {place : Place}

theorem ledger_empty (config : Config) (code : StationCode) (x : Cargo) :
    (Network.empty config).ledger code x = .blank := by
  rw [ledger, show (Network.empty config).station? code = none from Table.get?_empty code]
  rfl

theorem ledger_of_station? (hs : net.station? code = some s) (x : Cargo) :
    net.ledger code x = s.ledger x := by
  rw [ledger, hs, Option.elim_some]

theorem ledger_unclaimed_le (net : Network) (code : StationCode) (x : Cargo) :
    (net.ledger code x).unclaimed ≤ (net.ledger code x).loads := by
  rw [ledger]
  cases net.station? code with
  | none => exact Nat.le_refl _
  | some s => exact s.unclaimed_le_loads x

theorem ledger_modifyStation (hs : net.station? code = some s) (f : Station → Station)
    (c : StationCode) (x : Cargo) : (net.modifyStation code f).ledger c x =
      if code = c then (f s).ledger x else net.ledger c x := by
  rw [ledger, station?_modifyStation]
  split
  · rename_i hc
    rw [← hc, hs, Option.map_some, Option.elim_some]
  · rfl

theorem ledger_putStation (net : Network) (s : Station) (c : StationCode) (x : Cargo) :
    (net.putStation s).ledger c x = if s.code = c then s.ledger x else net.ledger c x := by
  rw [ledger, station?_putStation]
  split <;> rfl

/-- A station that takes the place of one with the same ledger does not show. -/
theorem ledger_putStation_of_eq {s' : Station} {x : Cargo} (hs : net.station? code = some s)
    (hcode : s'.code = code) (hsame : s'.ledger x = s.ledger x) (c : StationCode) :
    (net.putStation s').ledger c x = net.ledger c x := by
  rw [ledger_putStation, hcode]
  split
  · rename_i hc
    rw [hsame, ← hc, ledger_of_station? hs]
  · rfl

/-- The tracks of the jobs do not show in the ledgers. -/
theorem Alike.ledger_eq (h : net.Alike net') (code : StationCode) (x : Cargo) :
    net'.ledger code x = net.ledger code x := by
  have hu : ∀ n : Network, n.ledger code x =
      ((n.station? code).map Station.untracked).elim .blank (·.ledger x) := by
    intro n
    rw [ledger]
    cases n.station? code with
    | none => rfl
    | some s => exact (s.untracked_ledger x).symm
  rw [hu, hu, h.untracked_eq]

/-! ### New jobs -/

/-- A new load from a station to itself; what is above the ceiling waits. -/
theorem createJob_ledger_of_load (hf : net.Filed)
    (h : net.createJob code .shuntingLoad code cars cargo wage = .ok (id, net'))
    (c : StationCode) (x : Cargo) : net'.ledger c x =
      if code = c ∧ x = cargo then { (net.ledger c x).addLoad with
        waiting := (net.ledger c x).waiting + (cars - net.config.maxCars) }
      else net.ledger c x := by
  obtain ⟨s, t, u, hs, ht, hu, rfl⟩ := exists_of_createJob h
  have hcode : t.code = code := by
    obtain ⟨overflow, rfl⟩ := Station.addOverflow_eq_ok ht
    exact hf code s hs
  subst hcode
  rw [ledger_modifyStation hs]
  by_cases hc : t.code = c
  · subst hc
    rw [if_pos rfl, ledger_of_station? hs, Station.addJob_ledger_of_load hu,
      Station.addOverflow_ledger ht, Cargo.only]
    by_cases hx : x = cargo
    · simp only [hx, and_self, if_true]
      rfl
    · simp only [hx, and_false, if_false]
      rfl
  · rw [if_neg hc, if_neg fun h => hc h.1]

theorem createJob_ledger_of_ne (hkind : kind ≠ .shuntingLoad) (hcars : cars ≤ net.config.maxCars)
    (h : net.createJob code kind destination cars cargo wage = .ok (id, net'))
    (c : StationCode) (x : Cargo) : net'.ledger c x = net.ledger c x := by
  obtain ⟨s, hs, rfl⟩ := createJob_eq_ok_of_le hcars h
  rw [ledger_modifyStation hs]
  split
  · rename_i hc
    subst hc
    rw [ledger_of_station? hs]
    simp [Station.ledger, Station.overflowOf, Job.isLoadOf, Job.isStrayOf, Job.isMergeableLoad,
      Job.queued, hkind]
  · rfl

theorem seedLoad_ledger (hf : net.Filed) (h : net.seedLoad code cargo = .ok (id, net'))
    (c : StationCode) (x : Cargo) : net'.ledger c x =
      if code = c ∧ x = cargo then (net.ledger c x).addLoad else net.ledger c x := by
  obtain ⟨generator, cars, wage, hcars, hjob⟩ := exists_createJob_of_seedLoad h
  have hfdrawn : Filed { net with generator } := hf
  rw [createJob_ledger_of_load hfdrawn hjob, show cars - net.config.maxCars = 0 from
    Nat.sub_eq_zero_of_le hcars]
  rfl

/-- A generative processor brings a load of its output along. -/
theorem addProcessor_ledger {seeded : Option JobId} (hf : net.Filed)
    (h : net.addProcessor code p = .ok (seeded, net')) (c : StationCode) (x : Cargo) :
    net'.ledger c x = if (net.station? code).isSome ∧ code = c ∧ p.output = x then
      (net.ledger c x).addMaker p.isGenerative else net.ledger c x := by
  rcases addProcessor_eq_ok h with ⟨hs, rfl⟩ | ⟨s, hs, hadded⟩
  · rw [hs, if_neg fun h => absurd h.1 nofun]
  have hf' : (net.modifyStation code (·.addProcessor p)).Filed :=
    hf.modifyStation fun t ht => hf code t ht
  have hadd := ledger_modifyStation hs (·.addProcessor p) c x
  rw [hs, Option.isSome_some]
  simp only [true_and]
  by_cases hcx : code = c ∧ p.output = x
  · obtain ⟨rfl, rfl⟩ := hcx
    rw [if_pos rfl, Station.addProcessor_ledger, if_pos rfl, ← ledger_of_station? hs] at hadd
    rw [if_pos ⟨rfl, rfl⟩]
    rcases hadded with ⟨hg, rfl⟩ | ⟨hg, load, hseed⟩
    · rw [hadd, Ledger.addMaker, if_neg hg, Bool.eq_false_iff.2 hg]
    · rw [seedLoad_ledger hf' hseed, if_pos ⟨rfl, rfl⟩, hadd, Ledger.addMaker, if_pos hg, hg]
  · have hsame : (net.modifyStation code (·.addProcessor p)).ledger c x = net.ledger c x := by
      rw [hadd]
      split
      · rename_i hc
        subst hc
        rw [Station.addProcessor_ledger, if_neg fun hx => hcx ⟨rfl, hx⟩, List.append_nil,
          ledger_of_station? hs]
      · rfl
    rw [if_neg hcx]
    rcases hadded with ⟨-, rfl⟩ | ⟨-, load, hseed⟩
    · exact hsame
    · rw [seedLoad_ledger hf' hseed, if_neg fun h => hcx ⟨h.1, h.2.symm⟩, hsame]

/-! ### Dispatch -/

/-- A load that goes on as freight does not show in the ledgers. -/
theorem forward_ledger (hcars : load.cars ≤ net.config.maxCars)
    (h : net.forward s p load d = .ok (d', net')) (c : StationCode) (x : Cargo) :
    net'.ledger c x = net.ledger c x := by
  rcases forward_eq_ok h with ⟨generator, -, -, rfl⟩ | ⟨target, generator, id, -, -, hjob⟩
  · rfl
  · have hne : JobKind.freight ≠ .shuntingLoad := by decide
    have hwithin : load.cars ≤ { net with generator }.config.maxCars := hcars
    exact createJob_ledger_of_ne hne hwithin hjob c x

theorem replenish_ledger (hf : net.Filed) (h : net.replenish s p d = .ok (d', net'))
    (c : StationCode) (x : Cargo) : net'.ledger c x =
      if p.isGenerative ∧ s.code = c ∧ x = p.output then (net.ledger c x).addLoad
      else net.ledger c x := by
  rcases replenish_eq_ok h with ⟨hg, -, rfl⟩ | ⟨hg, id, -, hseed⟩
  · rw [if_neg fun h => hg h.1]
  · rw [seedLoad_ledger hf hseed]
    simp only [hg, true_and]

/-- Output is folded into the queue of a station that takes the place of another one. Where the
    two have the same ledger, and it is not that of the output, it stays as it is. -/
theorem foldAt_ledger {count : Nat} (h : net.foldAt s cargo count d = .ok (d', net')) :
    (∃ waiting, net'.ledger s.code cargo = (s.ledger cargo).fold waiting) ∧
      ∀ c x, (s.code = c → x ≠ cargo ∧ s.ledger x = net.ledger c x) →
        net'.ledger c x = net.ledger c x := by
  obtain ⟨⟨folded, s'⟩, hfold, h⟩ := Faulty.bind_eq_ok_iff.1 h
  cases h
  have hcode := (Station.fold_change hfold).code_eq
  obtain ⟨⟨waiting, hfolded⟩, hothers⟩ := Station.fold_ledger hfold
  refine ⟨⟨waiting, ?_⟩, fun c x hsame => ?_⟩
  · rw [← hcode, ledger_putStation, if_pos rfl, hfolded]
  · rw [ledger_putStation, hcode]
    split
    · rename_i hc
      obtain ⟨hx, hsame⟩ := hsame hc
      rw [hothers x hx, hsame]
    · rfl

/-- What waits for room at a station is folded into its queue, and no other ledger changes. -/
theorem drainOverflow_ledger (hf : net.Filed)
    (h : net.drainOverflow code cargo d = .ok (d', net')) (c : StationCode) (x : Cargo) :
    if code = c ∧ x = cargo then (net.ledger c x).Drained (net'.ledger c x)
    else net'.ledger c x = net.ledger c x := by
  rcases drainOverflow_eq_ok h with ⟨hs, -, rfl⟩ | ⟨s, hs, hdrained⟩
  · split
    · rename_i hcx
      rw [← hcx.1, ledger, hs]
      exact .dry rfl
    · rfl
  have hcode : (s.takeOverflow cargo).2.code = code := hf code s hs
  have htaken := s.takeOverflow_ledger cargo
  rcases hdrained with ⟨hzero, -, rfl⟩ | ⟨hwaits, hdrained⟩
  · rw [ledger_putStation_of_eq hs hcode (s.takeOverflow_ledger_of_eq_zero hzero x)]
    split
    · rename_i hcx
      refine .dry ?_
      rw [← hcx.1, hcx.2, ledger_of_station? hs]
      exact hzero
    · rfl
  · obtain ⟨⟨waiting, hfolded⟩, hothers⟩ := foldAt_ledger hdrained
    split
    · rename_i hcx
      obtain ⟨rfl, rfl⟩ := hcx
      rw [hcode, htaken, if_pos rfl, Ledger.fold_of_taken, ← ledger_of_station? hs] at hfolded
      rw [hfolded]
      refine .folded waiting ?_
      rw [ledger_of_station? hs]
      exact hwaits
    · rename_i hcx
      refine hothers c x fun hc => ?_
      rw [hcode] at hc
      have hx : x ≠ cargo := fun hx => hcx ⟨hc, hx⟩
      rw [htaken, if_neg hx, ← hc, ledger_of_station? hs]
      exact ⟨hx, rfl⟩

/-- What the cargo of a finished job does at its destination. A load that arrives in the network
    is replaced by its makers, and what waited for room on it is folded in. -/
theorem dispatch_ledger (hf : net.Filed) (hcars : j.cars ≤ net.config.maxCars)
    (hhome : j.kind = .shuntingLoad → (net.station? j.destination).isSome)
    (h : net.dispatch j = .ok (d, net')) (c : StationCode) (x : Cargo) :
    Ledger.Dispatched j c x (net.ledger c x) (net'.ledger c x) := by
  have hother : ∀ {kind : JobKind}, j.kind = kind → kind ≠ .shuntingLoad → ¬ j.isLoadOf x :=
    fun hk hne hload => hne (hk ▸ (Job.isLoadOf_iff.1 hload).1)
  cases dispatched h with
  | lost hs =>
    refine .kept fun hload => ?_
    have hsome := hhome (Job.isLoadOf_iff.1 hload).1
    rw [hs] at hsome
    exact absurd hsome nofun
  | hauled _ hk => exact .kept fun hload => absurd hload (hother hk (by decide))
  | @delivered s s' hs hk hin =>
    obtain ⟨hsame, -⟩ := Station.intake_ledger hin
    have hchange : s.Change net.config.maxCars s' := Station.intake_change hin
    have hcode : s'.code = j.destination := hchange.code_eq.trans (hf _ s hs)
    rw [ledger_putStation_of_eq hs hcode (hsame x)]
    exact .kept fun hload => absurd hload (hother hk (by decide))
  | @produced s s' made _ _ hs hk hin hfold =>
    obtain ⟨hsame, hmakers⟩ := Station.intake_ledger hin
    obtain ⟨cursor, processors, rfl⟩ := Station.intake_eq_ok hin
    obtain ⟨⟨waiting, hfolded⟩, hothers⟩ := foldAt_ledger hfold
    by_cases hcx : s.code = c ∧ x = made.1
    · obtain ⟨rfl, rfl⟩ := hcx
      have hmakers := hmakers made rfl
      rw [hsame, ← ledger_of_station? (hf _ s hs ▸ hs)] at hfolded
      rw [hfolded]
      refine .made waiting (hother hk (by decide)) ?_
      rwa [ledger_of_station? (hf _ s hs ▸ hs)]
    · rw [hothers c x fun hc => ⟨fun hx => hcx ⟨hc, hx⟩, by
        rw [hsame, ← hc, ledger_of_station? (hf _ s hs ▸ hs)]⟩]
      exact .kept fun hload => absurd hload (hother hk (by decide))
  | @arrived s s' _ _ hs hk _ hjob =>
    have hcode : s'.code = j.destination :=
      (Station.addJob_change hjob hcars).code_eq.trans (hf _ s hs)
    rw [ledger_putStation_of_eq hs hcode (Station.addJob_ledger_of_ne hjob (by decide) x)]
    exact .kept fun hload => absurd hload (hother hk (by decide))
  | @stranded s _ _ hs hk hp hdrain =>
    have hdrained := drainOverflow_ledger hf hdrain c x
    rw [hf _ s hs] at hdrained
    split at hdrained
    · rename_i hcx
      obtain ⟨rfl, rfl⟩ := hcx
      refine .shipped (Job.isLoadOf_iff.2 ⟨hk, rfl⟩) rfl ?_
      rw [Ledger.replenish, ledger_of_station? hs, Station.head?_makers, hp, if_neg nofun,
        ← ledger_of_station? hs]
      exact hdrained
    · rename_i hcx
      rw [hdrained]
      refine .kept fun hload hc => hcx ⟨hc.symm, (Job.isLoadOf_iff.1 hload).2.symm⟩
  | @shipped s p d₁ d₂ d n₁ n₂ _ hs hk hp hfwd hrep hdrain =>
    have hfn₁ : n₁.Filed := (forward_upkeptAt hfwd).upkept.filed hf
    have hfn₂ : n₂.Filed := (replenish_upkeptAt hrep).upkept.filed hfn₁
    have hdrained := drainOverflow_ledger hfn₂ hdrain c x
    have hreplenished := replenish_ledger hfn₁ hrep c x
    rw [forward_ledger hcars hfwd, Station.output_of_producerOf? hp, hf _ s hs] at hreplenished
    rw [hf _ s hs] at hdrained
    split at hdrained
    · rename_i hcx
      obtain ⟨rfl, rfl⟩ := hcx
      refine .shipped (Job.isLoadOf_iff.2 ⟨hk, rfl⟩) rfl ?_
      have hnext : n₂.ledger j.destination j.cargo =
          (net.ledger j.destination j.cargo).replenish := by
        rw [hreplenished, Ledger.replenish, ledger_of_station? hs, Station.head?_makers, hp]
        simp
      rwa [← hnext]
    · rename_i hcx
      rw [hdrained, hreplenished, if_neg fun h => hcx h.2]
      refine .kept fun hload hc => hcx ⟨hc.symm, (Job.isLoadOf_iff.1 hload).2.symm⟩

/-! ### Operations -/

/-- A job that becomes claimed is no unclaimed load any more; the rest of the ledgers stays. -/
theorem modifyJobAt_ledger {f : Job → Job} (hj : net.jobAt? place = some j)
    (hload : ∀ x, (f j).isLoadOf x = j.isLoadOf x)
    (hdestination : (f j).destination = j.destination)
    (hclaimed : ∀ x, (f j).isMergeableLoad x = false) (c : StationCode) (x : Cargo) :
    ∃ unclaimed ≤ (net.ledger c x).unclaimed,
      (net.modifyJobAt place f).ledger c x = { net.ledger c x with unclaimed } := by
  obtain ⟨s, hs, hi⟩ := jobAt?_eq_some_iff.1 hj
  rw [modifyJobAt, ledger_modifyStation hs]
  split
  · rename_i hc
    rw [← hc, ledger_of_station? hs]
    obtain ⟨before, after, hqueue, -, hmodify⟩ := exists_eq_append_of_getElem? hi
    refine ⟨(before ++ after).countP (·.isMergeableLoad x), ?_, ?_⟩
    · rw [Station.ledger, hqueue]
      simp only [List.countP_append, List.countP_cons]
      omega
    · simp only [Station.ledger, hmodify]
      simp only [hqueue, List.countP_append, List.countP_cons, hload, hclaimed, Job.isStrayOf,
        hdestination]
      rfl
  · exact ⟨_, Nat.le_refl _, rfl⟩

/-- An active job that is taken out of its queue is missing in the ledger of its cargo, if it is a
    load. -/
theorem removeJobAt_ledger (hj : net.jobAt? place = some j) (ha : j.isActive)
    (hhome : j.kind = .shuntingLoad → j.destination = place.1) (hf : net.Filed)
    (c : StationCode) (x : Cargo) :
    net.ledger c x = { (net.removeJobAt place).ledger c x with
      loads := ((net.removeJobAt place).ledger c x).loads +
        if place.1 = c ∧ j.isLoadOf x then 1 else 0 } := by
  obtain ⟨s, hs, hi⟩ := jobAt?_eq_some_iff.1 hj
  have hremoved := ledger_modifyStation hs (fun s => { s with queue := s.queue.eraseIdx place.2 })
    c x
  rw [removeJobAt, hremoved]
  by_cases hc : place.1 = c
  · subst hc
    obtain ⟨before, after, hqueue, herase, -⟩ := exists_eq_append_of_getElem? hi
    have hstray : j.isStrayOf s.code x = false := by
      rw [Job.isStrayOf, hf _ s hs, Bool.and_eq_false_iff, Bool.not_eq_false', decide_eq_true_eq]
      exact (Bool.eq_false_or_eq_true (j.isLoadOf x)).elim
        (fun h => .inr (hhome (Job.isLoadOf_iff.1 h).1)) .inl
    have hmergeable : j.isMergeableLoad x = false := by
      rw [Job.isMergeableLoad, ha, Bool.not_true, Bool.and_false]
    rw [if_pos rfl, ledger_of_station? hs]
    simp only [Station.ledger, herase]
    simp only [hqueue, List.countP_append, List.countP_cons, hstray, hmergeable, true_and,
      Nat.add_assoc]
    rfl
  · rw [if_neg hc, if_neg fun h => hc h.1]
    rfl

/-- Loads are created to run from a station to itself, and other jobs within the ceiling. -/
def KeepsLoadsHome (net : Network) : Operation → Prop
  | .createJob origin kind destination cars _ _ =>
    if kind = .shuntingLoad then destination = origin else cars ≤ net.config.maxCars
  | _ => True

/-- Where no load of its cargo runs to another station, a load goes home. -/
theorem destination_eq_of_strays (hf : net.Filed) (hj : net.jobAt? place = some j)
    (hk : j.kind = .shuntingLoad) (hhome : (net.ledger place.1 j.cargo).strays = 0) :
    j.destination = place.1 := by
  obtain ⟨s, hs, hi⟩ := jobAt?_eq_some_iff.1 hj
  rw [ledger_of_station? hs] at hhome
  have hstray := List.countP_eq_zero.1 hhome j (List.mem_of_getElem? hi)
  simpa [Job.isStrayOf, Job.isLoadOf, hk, hf _ s hs] using hstray

/-- A finished job leaves its queue, and its cargo takes effect at its destination. -/
theorem granted_finish_ledger {user : User} (hsafe : net.Safe) (hj : net.jobAt? place = some j)
    (ha : j.isActive) (hhome : (net.ledger place.1 j.cargo).strays = 0)
    (hd : (net.removeJobAt place).dispatch j = .ok (d, net')) (c : StationCode) (x : Cargo) :
    Ledger.Turn c x (.request .finish user id) (net.ledger c x) (net'.ledger c x) := by
  have hdestination := fun hk => destination_eq_of_strays hsafe.filed hj hk hhome
  have hremoved := hsafe.removeJobAt hj
  have hcars : j.cars ≤ (net.removeJobAt place).config.maxCars :=
    (hsafe.fits_of_mem (mem_jobs_of_jobAt? hj)).cars_le
  have hfound : j.kind = .shuntingLoad →
      ((net.removeJobAt place).station? j.destination).isSome := by
    intro hk
    obtain ⟨s, hs, -⟩ := jobAt?_eq_some_iff.1 hj
    rw [hdestination hk, removeJobAt, station?_modifyStation_self hs]
    rfl
  rw [removeJobAt_ledger hj ha hdestination hsafe.filed c x]
  exact (dispatch_ledger hremoved.filed hcars hfound hd c x).turn
    (fun hload => hdestination (Job.isLoadOf_iff.1 hload).1)
    ((net.removeJobAt place).ledger_unclaimed_le c x) user id

/-- What an operation does to a ledger, while loads run from their station to itself. -/
theorem perform_ledger {op : Operation} {outcome : Outcome} (hsafe : net.Safe)
    (hhome : ∀ code x, (net.ledger code x).strays = 0) (hallowed : net.KeepsLoadsHome op)
    (hp : net.perform op = .ok (outcome, net')) (c : StationCode) (x : Cargo) :
    Ledger.Turn c x op (net.ledger c x) (net'.ledger c x) := by
  have hsettled := fun n : Network => (revalidate_later n).alike.ledger_eq c x
  cases op with
  | addStation code minCars maxCars =>
    cases hp
    rw [addStation, ledger_putStation]
    split
    · rename_i hc
      subst hc
      exact .replaced
    · exact .kept
  | addProcessor code p =>
    obtain ⟨⟨seeded, n⟩, hadd, hp⟩ := Faulty.bind_eq_ok_iff.1 hp
    cases hp
    rw [addProcessor_ledger hsafe.filed hadd]
    split
    · rename_i hcx
      obtain ⟨-, rfl, houtput⟩ := hcx
      exact .equipped houtput
    · exact .kept
  | createJob origin kind destination cars cargo wage =>
    obtain ⟨⟨id, n⟩, hjob, hp⟩ := Faulty.bind_eq_ok_iff.1 hp
    cases hp
    rw [KeepsLoadsHome] at hallowed
    split at hallowed
    · rename_i hkind
      subst hkind hallowed
      rw [createJob_ledger_of_load hsafe.filed hjob]
      split
      · rename_i hcx
        obtain ⟨rfl, rfl⟩ := hcx
        exact .queued _
      · exact .kept
    · rename_i hkind
      rw [createJob_ledger_of_ne hkind hallowed hjob]
      exact .kept
  | revalidate =>
    cases hp
    rw [hsettled]
    exact .kept
  | request action user id =>
    cases perform_request hp with
    | refused => exact .kept
    | @granted place j _ _ _ hcause hj _ _ hgranted =>
      cases hgranted with
      | reserve =>
        obtain ⟨unclaimed, hle, hclaimed⟩ := modifyJobAt_ledger (f := (·.reserve user)) hj
          (fun _ => rfl) rfl (fun _ => by simp [Job.isMergeableLoad, Job.isReserved, Job.reserve])
          c x
        rw [hclaimed]
        exact .claimed unclaimed hle
      | @take track ht =>
        obtain ⟨unclaimed, hle, hclaimed⟩ := modifyJobAt_ledger (f := (·.activate track)) hj
          (fun _ => rfl) rfl (fun _ => by simp [Job.isMergeableLoad, Job.isActive, Job.activate])
          c x
        rw [hsettled, hclaimed]
        exact .claimed unclaimed hle
      | finish hd =>
        rw [hsettled]
        exact granted_finish_ledger hsafe hj (refusal?_finish_eq_none_iff.1 hcause).1 (hhome _ _) hd
          c x

end Network

/-- What no operation changes about ledgers holds of every ledger of a run that keeps loads at
    home, if it holds of the blank ones. In such a run all loads run from their station to
    itself. -/
theorem Run.ledger {Allowed : Network → Operation → Prop} {P : Ledger → Prop} {config : Config}
    {history : List Event} {net : Network} (h : Run Allowed config history net)
    (hallowed : ∀ n op, Allowed n op → n.KeepsLoadsHome op) (hblank : P .blank)
    (hturn : ∀ code x n op l l', Allowed n op → Ledger.Turn code x op l l' → P l → P l')
    (code : StationCode) (x : Cargo) : (net.ledger code x).strays = 0 ∧ P (net.ledger code x) := by
  induction h generalizing code x with
  | start =>
    rw [Network.ledger_empty]
    exact ⟨rfl, hblank⟩
  | @step history net net' op outcome hrun hop hp ih =>
    have hwent := Network.perform_ledger hrun.reachable.safe (fun c y => (ih c y).1)
      (hallowed net op hop) hp code x
    exact ⟨hwent.strays_eq_zero (ih code x).1, hturn code x net op _ _ hop hwent (ih code x).2⟩

end RailFreight
