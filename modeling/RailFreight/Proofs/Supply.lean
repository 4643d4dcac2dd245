import RailFreight.Network.Audit
import RailFreight.Proofs.Draws
import RailFreight.Proofs.Progress

/-!
# Supply

A station gets the cargo that its processors need as freight. What goes there is decided when
a load is finished: the first processor of its station that makes the cargo names the
destinations, and the generator draws one of them. The audit looks at all processors instead,
and takes a cargo to be shipped to a station as soon as any processor that makes it names the
station. So in a network that was built and not worked yet the two agree where the first
processor that makes a cargo names all that the others name, and else the audit may pass over a
station that never gets what it needs.

* `Network.Carries`: what the jobs carry and where to, and what new jobs add to it;
* `Network.mem_supplyGaps_iff`: what the audit reports;
* `Network.sendsOn_iff`, `Network.ships_iff`: where a load goes on to, and so its cargo;
* `Run.unreported_iff_and_ships_iff`: what the audit looks at, and what is shipped;
* `rivalRun_not_shipped`: a need that is neither reported nor met.
-/

namespace RailFreight

/-! ## What jobs carry -/

/-- Every job in the queue is of a kind, with a cargo and for a destination that `P` allows. -/
def Station.Carries (P : JobKind → Cargo → StationCode → Prop) (s : Station) : Prop :=
  ∀ j ∈ s.queue, P j.kind j.cargo j.destination

namespace Network

/-- Every station is as `Q` says. -/
def Every (Q : Station → Prop) (net : Network) : Prop :=
  ∀ code s, net.station? code = some s → Q s

/-- Every job is of a kind, with a cargo and for a destination that `P` allows. -/
abbrev Carries (P : JobKind → Cargo → StationCode → Prop) (net : Network) : Prop :=
  net.Every (Station.Carries P)

/-- No cargo waits for room on a load. -/
abbrev NoneWaits (net : Network) : Prop := net.Every fun s => ∀ x, s.overflowOf x = 0

end Network

variable {P : JobKind → Cargo → StationCode → Prop} {cargo : Cargo} {cars wage count : Nat}
  {kind : JobKind} {destination : StationCode}

/-- Cars that are folded into a queue are for the station itself. -/
theorem Station.fold_carries {s s' : Station} {ceiling : Nat} {folded : Folded}
    (hloads : ∀ cargo code, P .shuntingLoad cargo code) (h : s.Carries P)
    (hfold : s.fold cargo count ceiling = .ok (folded, s')) : s'.Carries P := by
  cases folds hfold with
  | merged hqueue _ _ _ _ hrest =>
    obtain ⟨overflow, rfl⟩ := addOverflow_eq_ok hrest
    rw [Carries, hqueue, List.forall_mem_append, List.forall_mem_cons] at h
    exact List.forall_mem_append.2 ⟨h.1, List.forall_mem_cons.2 h.2⟩
  | created _ _ _ hjob hrest =>
    obtain ⟨overflow, rfl⟩ := addOverflow_eq_ok hrest
    obtain ⟨-, rfl⟩ := addJob_eq_ok hjob
    exact List.forall_mem_append.2 ⟨h, List.forall_mem_singleton.2 (hloads _ _)⟩

namespace Network

variable {net net' : Network} {code : StationCode} {s : Station} {p : Processor} {load : Job}
  {d d' : Dispatch} {id : JobId}

namespace Every

variable {Q : Station → Prop} {f : Station → Station}

theorem modifyStation (h : net.Every Q)
    (hf : ∀ s, net.station? code = some s → Q s → Q (f s)) :
    (net.modifyStation code f).Every Q := by
  intro c t ht
  rcases station?_modifyStation_eq_some ht with ht | ⟨s, rfl, hs, rfl⟩
  · exact h c t ht
  · exact hf s hs (h code s hs)

theorem putStation (h : net.Every Q) (hs : Q s) : (net.putStation s).Every Q := by
  intro c t ht
  rw [station?_putStation] at ht
  split at ht
  · obtain rfl := Option.some.inj ht
    exact hs
  · exact h c t ht

end Every

theorem Carries.of_mem {j : Job} (h : net.Carries P) (hj : j ∈ net.jobs) :
    P j.kind j.cargo j.destination := by
  obtain ⟨code, s, hs, hj⟩ := mem_jobs_iff.1 hj
  exact h code s hs j hj

/-! ### New jobs -/

/-- A job within the ceiling is queued with all its cars, and nothing is put aside. -/
theorem createJob_eq_ok_of_le (hcars : cars ≤ net.config.maxCars)
    (h : net.createJob code kind destination cars cargo wage = .ok (id, net')) :
    ∃ s, net.station? code = some s ∧ net' = net.modifyStation code fun _ => { s with
      nextNumber := s.nextNumber + 1
      queue := s.queue ++ [Job.queued id kind s.code destination cars cargo wage] } := by
  obtain ⟨s, t, u, hs, ht, hu, rfl⟩ := exists_of_createJob h
  rw [Station.addOverflow, if_pos (Nat.sub_eq_zero_of_le hcars)] at ht
  obtain rfl := Except.ok.inj ht
  obtain ⟨-, rfl⟩ := Station.addJob_eq_ok hu
  refine ⟨s, hs, ?_⟩
  rw [Nat.min_eq_left hcars]

theorem createJob_carries (h : net.Carries P) (hnew : P kind cargo destination)
    (hjob : net.createJob code kind destination cars cargo wage = .ok (id, net')) :
    net'.Carries P := by
  obtain ⟨s, overflow, hs, -, rfl⟩ := createJob_eq_ok hjob
  exact h.modifyStation fun _ _ _ =>
    List.forall_mem_append.2 ⟨h code s hs, List.forall_mem_singleton.2 hnew⟩

theorem createJob_noneWaits (h : net.NoneWaits) (hcars : cars ≤ net.config.maxCars)
    (hjob : net.createJob code kind destination cars cargo wage = .ok (id, net')) :
    net'.NoneWaits := by
  obtain ⟨s, hs, rfl⟩ := createJob_eq_ok_of_le hcars hjob
  exact h.modifyStation fun _ _ _ => h code s hs

theorem seedLoad_carries (hloads : ∀ cargo code, P .shuntingLoad cargo code) (h : net.Carries P)
    (hseed : net.seedLoad code cargo = .ok (id, net')) : net'.Carries P := by
  obtain ⟨generator, cars, wage, -, hjob⟩ := exists_createJob_of_seedLoad hseed
  have hdrawn : Carries P { net with generator } := h
  exact createJob_carries hdrawn (hloads cargo code) hjob

theorem seedLoad_noneWaits (h : net.NoneWaits) (hseed : net.seedLoad code cargo = .ok (id, net')) :
    net'.NoneWaits := by
  obtain ⟨generator, cars, wage, hcars, hjob⟩ := exists_createJob_of_seedLoad hseed
  have hdrawn : NoneWaits { net with generator } := h
  exact createJob_noneWaits hdrawn hcars hjob

/-! ### Dispatch -/

/-- A load goes on to a destination of its producer. -/
theorem forward_carries (h : net.Carries P)
    (hsent : ∀ target ∈ p.destinations, P .freight load.cargo target)
    (hfwd : net.forward s p load d = .ok (d', net')) : net'.Carries P := by
  rcases forward_eq_ok hfwd with ⟨generator, -, -, rfl⟩ | ⟨target, generator, id, hpick, -, hjob⟩
  · exact h
  · have hdrawn : Carries P { net with generator } := h
    exact createJob_carries hdrawn (hsent target (Generator.mem_of_pick hpick)) hjob

theorem forward_noneWaits (h : net.NoneWaits) (hcars : load.cars ≤ net.config.maxCars)
    (hfwd : net.forward s p load d = .ok (d', net')) : net'.NoneWaits := by
  rcases forward_eq_ok hfwd with ⟨generator, -, -, rfl⟩ | ⟨target, generator, id, -, -, hjob⟩
  · exact h
  · have hdrawn : NoneWaits { net with generator } := h
    exact createJob_noneWaits hdrawn hcars hjob

theorem replenish_carries (hloads : ∀ cargo code, P .shuntingLoad cargo code) (h : net.Carries P)
    (hrep : net.replenish s p d = .ok (d', net')) : net'.Carries P := by
  rcases replenish_eq_ok hrep with ⟨-, -, rfl⟩ | ⟨-, id, -, hseed⟩
  · exact h
  · exact seedLoad_carries hloads h hseed

theorem replenish_noneWaits (h : net.NoneWaits) (hrep : net.replenish s p d = .ok (d', net')) :
    net'.NoneWaits := by
  rcases replenish_eq_ok hrep with ⟨-, -, rfl⟩ | ⟨-, id, -, hseed⟩
  · exact h
  · exact seedLoad_noneWaits h hseed

theorem drainOverflow_carries (hloads : ∀ cargo code, P .shuntingLoad cargo code)
    (h : net.Carries P) (hdrain : net.drainOverflow code cargo d = .ok (d', net')) :
    net'.Carries P := by
  rcases drainOverflow_eq_ok hdrain with ⟨-, -, rfl⟩ | ⟨s, hs, hdrained⟩
  · exact h
  · have htaken : (s.takeOverflow cargo).2.Carries P := h code s hs
    rcases hdrained with ⟨-, -, rfl⟩ | ⟨-, hfolded⟩
    · exact h.putStation htaken
    · obtain ⟨⟨folded, t⟩, hfold, hput⟩ := Faulty.bind_eq_ok_iff.1 hfolded
      cases hput
      exact h.putStation (Station.fold_carries hloads htaken hfold)

/-- Where no cargo waits for room, there is none to be folded into a queue. -/
theorem NoneWaits.exists_drainOverflow (h : net.NoneWaits) (code : StationCode) (cargo : Cargo)
    (d : Dispatch) : ∃ net', net.drainOverflow code cargo d = .ok (d, net') := by
  rw [drainOverflow]
  rcases hs : net.station? code with _ | s
  · exact ⟨net, rfl⟩
  · refine ⟨_, if_pos ?_⟩
    exact h code s hs cargo

/-! ## The audit of the processors -/

/-- Some processor of the station needs the cargo. -/
def Needs (net : Network) (station : StationCode) (cargo : Cargo) : Prop :=
  ∃ s ∈ net.stationList, s.code = station ∧ ∃ p ∈ s.processors, cargo ∈ p.inputs

instance (net : Network) (station : StationCode) (cargo : Cargo) :
    Decidable (net.Needs station cargo) :=
  inferInstanceAs (Decidable (∃ s ∈ net.stationList, s.code = station ∧
    ∃ p ∈ s.processors, cargo ∈ p.inputs))

/-- The audit reports what is needed somewhere, if no processor that makes it names the station
    among its destinations. -/
theorem mem_supplyGaps_iff {station : StationCode} :
    ⟨station, cargo⟩ ∈ net.supplyGaps ↔ net.Needs station cargo ∧
      ∀ s ∈ net.stationList, ∀ p ∈ s.processors, p.output = cargo → station ∉ p.destinations := by
  have hneeds : (⟨station, cargo⟩ ∈ net.stationList.flatMap fun s =>
      s.processors.flatMap fun p => p.inputs.map (SupplyGap.mk s.code)) ↔
        net.Needs station cargo := by
    simp only [Needs, List.mem_flatMap, List.mem_map, SupplyGap.mk.injEq]
    constructor
    · rintro ⟨s, hs, p, hp, x, hx, hcode, rfl⟩
      exact ⟨s, hs, hcode, p, hp, hx⟩
    · rintro ⟨s, hs, hcode, p, hp, hx⟩
      exact ⟨s, hs, p, hp, cargo, hx, hcode, rfl⟩
  rw [supplyGaps, List.mem_eraseDups, List.mem_filter, hneeds]
  simp [supplies]

/-! ## Routes -/

/-- With some generator, the load goes on as freight to the station when it is finished. -/
def SendsOn (net : Network) (load : Job) (station : StationCode) : Prop :=
  ∃ generator d net', { net with generator }.dispatch load = .ok (d, net') ∧
    ∃ k ∈ net'.jobs, k.id ∈ d.created ∧ k.kind = .freight ∧ k.cargo = load.cargo ∧
      k.destination = station

/-- Some load of the cargo goes on as freight to the station when it is finished at a station of
    the network. -/
def Ships (net : Network) (cargo : Cargo) (station : StationCode) : Prop :=
  ∃ load : Job, load.kind = .shuntingLoad ∧ load.cargo = cargo ∧
    (net.station? load.destination).isSome ∧ net.SendsOn load station

/-- Where there are only loads, freight to a station comes of the first processor that makes its
    cargo. -/
theorem SendsOn.exists_producer {station : StationCode}
    (hloads : net.Carries fun kind _ _ => kind = .shuntingLoad) (hkind : load.kind = .shuntingLoad)
    (h : net.SendsOn load station) :
    ∃ s p, net.station? load.destination = some s ∧ s.producerOf? load.cargo = some p ∧
      station ∈ p.destinations := by
  obtain ⟨generator, d, net', hd, k, hk, -, hfreight, hcargo, hstation⟩ := h
  by_contra hnone
  push Not at hnone
  let P (kind : JobKind) (cargo : Cargo) (destination : StationCode) : Prop :=
    kind = .freight → cargo = load.cargo → destination ≠ station
  have hP : ∀ cargo code, P .shuntingLoad cargo code := fun _ _ h => absurd h nofun
  have hbefore : Carries P { net with generator } := by
    intro code s hs j hj
    rw [hloads code s hs j hj]
    exact hP _ _
  -- The new freight would be the first one for the station.
  suffices hafter : net'.Carries P from hafter.of_mem hk hfreight hcargo hstation
  cases dispatched hd with
  | lost => exact hbefore
  | delivered _ hother | produced _ hother | arrived _ hother | hauled _ hother =>
    exact absurd (hkind.symm.trans hother) nofun
  | stranded _ _ _ hdrain => exact drainOverflow_carries hP hbefore hdrain
  | @shipped s p _ _ _ _ _ _ hs _ hp hfwd hrep hdrain =>
    have hsent : ∀ target ∈ p.destinations, P .freight load.cargo target := by
      rintro target htarget - - rfl
      exact hnone _ _ hs hp htarget
    exact drainOverflow_carries hP (replenish_carries hP (forward_carries hbefore hsent hfwd) hrep)
      hdrain

/-- A load is sent on as freight to the destination that is drawn. -/
theorem exists_forward_of_pick {target : StationCode} {generator : Generator} (d : Dispatch)
    (hpick : net.generator.pick p.destinations = (some target, generator))
    (hs : (net.station? s.code).isSome) (hnumber : net.numberOf s.code + 1 < Count.limit)
    (hcars : load.cars ≤ net.config.maxCars) :
    ∃ id net', net.forward s p load d = .ok (d.create id, net') ∧
      ∃ k ∈ net'.jobs, k.id = id ∧ k.kind = .freight ∧ k.cargo = load.cargo ∧
        k.destination = target := by
  let n : Network := { net with generator }
  have hwithin : load.cars ≤ n.config.maxCars := hcars
  have hjob : ∃ id net', n.createJob s.code .freight target load.cars load.cargo load.wage =
      .ok (id, net') :=
    exists_createJob .freight target load.cargo load.wage hs hnumber hwithin
  obtain ⟨id, net', hjob⟩ := hjob
  refine ⟨id, net', ?_, ?_⟩
  · rw [forward, hpick]
    exact Faulty.bind_eq_ok_iff.2 ⟨_, hjob, rfl⟩
  · obtain ⟨t, ht, rfl⟩ := createJob_eq_ok_of_le hwithin hjob
    refine ⟨Job.queued id .freight t.code target load.cars load.cargo load.wage, ?_, rfl, rfl, rfl,
      rfl⟩
    exact mem_jobs_iff.2 ⟨s.code, _, station?_modifyStation_self ht _,
      List.mem_append_right _ List.mem_cons_self⟩

/-- Upkeep keeps every job, with its id, its kind, its cargo and its destination. -/
theorem Upkept.exists_mem_jobs {j : Job} (hf : net.Filed) (h : net.Upkept net')
    (hj : j ∈ net.jobs) : ∃ k ∈ net'.jobs, k.id = j.id ∧ k.kind = j.kind ∧ k.cargo = j.cargo ∧
      k.destination = j.destination := by
  induction h with
  | refl => exact ⟨j, hj, rfl, rfl, rfl, rfl⟩
  | @tail n n' hups hup ih =>
    obtain ⟨k, hk, hid, hkind, hcargo, hdestination⟩ := ih
    obtain ⟨code, hk⟩ := mem_jobs_iff_queueOf.1 hk
    obtain ⟨kept, fresh, hqueue, hkept, -⟩ := (hup.extends (Upkept.filed hups hf)).queueOf code
    obtain ⟨l, hl, htended⟩ := exists_of_forall₂_mem hkept.flip hk
    refine ⟨l, mem_jobs_iff_queueOf.2 ⟨code, hqueue ▸ List.mem_append_left _ hl⟩, ?_⟩
    rw [htended.same]
    exact ⟨hid, hkind, hcargo, hdestination⟩

/-- A finished load goes on to the destination that is drawn from those of the first processor
    that makes its cargo. -/
theorem exists_dispatch_of_pick {station : StationCode} {generator : Generator} (hf : net.Filed)
    (hnone : net.NoneWaits) (hwage : net.config.maxCars * foldedWagePerCar < Count.limit)
    (hnumber : net.numberOf load.destination + 2 < Count.limit)
    (hkind : load.kind = .shuntingLoad) (hcars : load.cars ≤ net.config.maxCars)
    (hs : net.station? load.destination = some s) (hp : s.producerOf? load.cargo = some p)
    (hpick : net.generator.pick p.destinations = (some station, generator)) :
    ∃ d net', net.dispatch load = .ok (d, net') ∧
      ∃ k ∈ net'.jobs, k.id ∈ d.created ∧ k.kind = .freight ∧ k.cargo = load.cargo ∧
        k.destination = station := by
  have hcode := hf _ s hs
  have hfound : ∀ {n : Network}, net.Upkept n → (n.station? s.code).isSome := fun hup => by
    rw [← mem_keys_iff, hup.keys_eq, mem_keys_iff, hcode, hs]
    rfl
  rw [← hcode] at hnumber
  obtain ⟨id, n₁, hfwd, k, hk, hid, hkind', hcargo, hstation⟩ :=
    exists_forward_of_pick .none hpick (hfound .refl) (by omega) hcars
  have hup₁ := (forward_upkeptAt hfwd).upkept
  obtain ⟨ids₁, -, hlength₁, hout₁⟩ := forward_handsOut hf hfwd
  have hnumber₁ := hout₁.number_le s.code
  obtain ⟨d, n₂, hrep⟩ := exists_replenish p (Dispatch.none.create id) (hfound hup₁)
    (by rwa [hup₁.config_eq]) (by omega)
  have hup₂ := (replenish_upkeptAt hrep).upkept
  obtain ⟨ids₂, hids₂, -, -⟩ := replenish_handsOut (hup₁.filed hf) hrep
  have hnone₂ := replenish_noneWaits (forward_noneWaits hnone hcars hfwd) hrep
  obtain ⟨n₃, hdrain⟩ := hnone₂.exists_drainOverflow s.code load.cargo d
  have hrest : n₁.Upkept n₃ :=
    hup₂.trans (drainOverflow_upkeptAt (hup₂.filed (hup₁.filed hf)) hdrain).upkept
  -- The freight is there after the forwarding, and nothing that follows takes it away.
  obtain ⟨l, hl, hlid, hlkind, hlcargo, hlstation⟩ := hrest.exists_mem_jobs (hup₁.filed hf) hk
  refine ⟨d, n₃, ?_, l, hl, ?_, hlkind.trans hkind', hlcargo.trans hcargo,
    hlstation.trans hstation⟩
  · rw [dispatch, hs]
    simp only [hkind, hp]
    exact Faulty.bind_eq_ok_iff.2 ⟨(Dispatch.none.create id, n₁), hfwd,
      Faulty.bind_eq_ok_iff.2 ⟨(d, n₂), hrep, hdrain⟩⟩
  · rw [hlid, hid, hids₂]
    exact List.mem_append_left _ (List.mem_append_right _ (List.mem_singleton_self id))

/-- In a network that was not worked yet, a load goes on to the destinations of the first
    processor that makes its cargo, and to no others. -/
theorem sendsOn_iff {station : StationCode} (hf : net.Filed) (hnone : net.NoneWaits)
    (hloads : net.Carries fun kind _ _ => kind = .shuntingLoad)
    (hwage : net.config.maxCars * foldedWagePerCar < Count.limit)
    (hnumber : net.numberOf load.destination + 2 < Count.limit)
    (hlists : ∀ s ∈ net.stationList, ∀ p ∈ s.processors, p.destinations.length ≤ UInt32.size)
    (hkind : load.kind = .shuntingLoad) (hcars : load.cars ≤ net.config.maxCars) :
    net.SendsOn load station ↔ ∃ s p, net.station? load.destination = some s ∧
      s.producerOf? load.cargo = some p ∧ station ∈ p.destinations := by
  refine ⟨fun h => h.exists_producer hloads hkind, ?_⟩
  rintro ⟨s, p, hs, hp, hstation⟩
  have hlength := hlists s (mem_stationList_iff.2 ⟨_, hs⟩) p (List.mem_of_find?_eq_some hp)
  obtain ⟨generator, hpick⟩ := Generator.exists_pick hstation hlength
  let n : Network := { net with generator }
  have hdrawn : n.generator.pick p.destinations = (some station, _) := Prod.ext hpick rfl
  have hf : n.Filed := hf
  have hnone : n.NoneWaits := hnone
  have hwage : n.config.maxCars * foldedWagePerCar < Count.limit := hwage
  have hnumber : n.numberOf load.destination + 2 < Count.limit := hnumber
  have hcars : load.cars ≤ n.config.maxCars := hcars
  have hs : n.station? load.destination = some s := hs
  exact ⟨generator, exists_dispatch_of_pick hf hnone hwage hnumber hkind hcars hs hp hdrawn⟩

/-- A cargo is shipped to the stations that the first processors that make it name. -/
theorem ships_iff {station : StationCode} (hf : net.Filed) (hnone : net.NoneWaits)
    (hloads : net.Carries fun kind _ _ => kind = .shuntingLoad)
    (hwage : net.config.maxCars * foldedWagePerCar < Count.limit)
    (hnumber : ∀ code, net.numberOf code + 2 < Count.limit)
    (hlists : ∀ s ∈ net.stationList, ∀ p ∈ s.processors, p.destinations.length ≤ UInt32.size) :
    net.Ships cargo station ↔ ∃ s ∈ net.stationList, ∃ p, s.producerOf? cargo = some p ∧
      station ∈ p.destinations := by
  constructor
  · rintro ⟨load, hkind, rfl, -, hsends⟩
    obtain ⟨s, p, hs, hp, hstation⟩ := hsends.exists_producer hloads hkind
    exact ⟨s, mem_stationList_iff.2 ⟨_, hs⟩, p, hp, hstation⟩
  · rintro ⟨s, hs, p, hp, hstation⟩
    obtain ⟨code, hs⟩ := mem_stationList_iff.1 hs
    -- A full load that is finished at this station.
    let load :=
      Job.queued (.of code .shuntingLoad 0) .shuntingLoad code code net.config.maxCars cargo 0
    refine ⟨load, rfl, rfl, hs ▸ rfl, ?_⟩
    exact (sendsOn_iff hf hnone hloads hwage (hnumber code) hlists rfl (Nat.le_refl _)).2
      ⟨s, p, hs, hp, hstation⟩

end Network

/-! ## Networks that were built -/

/-- The operations that build a network. -/
def Builds (_ : Network) : Operation → Prop
  | .addStation .. | .addProcessor .. => True
  | _ => False

namespace Network

variable {net net' : Network} {code : StationCode} {p : Processor} {seeded : Option JobId}

theorem Every.addStation {Q : Station → Prop} (h : net.Every Q) (minCars maxCars : Nat)
    (hnew : Q (Station.new code minCars maxCars)) : (net.addStation code minCars maxCars).Every Q :=
  h.putStation hnew

/-- A processor that is added brings nothing but a load along. -/
theorem addProcessor_carries (hloads : ∀ cargo code, P .shuntingLoad cargo code)
    (h : net.Carries P) (hadd : net.addProcessor code p = .ok (seeded, net')) : net'.Carries P := by
  have hadded : (net.modifyStation code (·.addProcessor p)).Carries P :=
    h.modifyStation fun _ _ hs => hs
  rcases addProcessor_eq_ok hadd with ⟨-, rfl⟩ | ⟨s, -, ⟨-, rfl⟩ | ⟨-, load, hseed⟩⟩
  · exact h
  · exact hadded
  · exact seedLoad_carries hloads hadded hseed

theorem addProcessor_noneWaits (h : net.NoneWaits)
    (hadd : net.addProcessor code p = .ok (seeded, net')) : net'.NoneWaits := by
  have hadded : (net.modifyStation code (·.addProcessor p)).NoneWaits :=
    h.modifyStation fun _ _ hs => hs
  rcases addProcessor_eq_ok hadd with ⟨-, rfl⟩ | ⟨s, -, ⟨-, rfl⟩ | ⟨-, load, hseed⟩⟩
  · exact h
  · exact hadded
  · exact seedLoad_noneWaits hadded hseed

end Network

/-- While a network is built there are only loads in it, and nothing waits for room. -/
theorem Run.built {config : Config} {history : List Event} {net : Network}
    (h : Run Builds config history net) :
    net.Carries (fun kind _ _ => kind = .shuntingLoad) ∧ net.NoneWaits := by
  induction h with
  | start =>
    exact ⟨fun code s hs => absurd ((Table.get?_empty code).symm.trans hs) nofun,
      fun code s hs => absurd ((Table.get?_empty code).symm.trans hs) nofun⟩
  | @step history net net' op outcome _ hbuilds hp ih =>
    obtain ⟨hloads, hnone⟩ := ih
    cases op with
    | addStation code minCars maxCars =>
      cases hp
      exact ⟨hloads.addStation minCars maxCars (List.forall_mem_nil _),
        hnone.addStation minCars maxCars fun _ => rfl⟩
    | addProcessor code p =>
      obtain ⟨⟨seeded, n⟩, hadd, hp⟩ := Faulty.bind_eq_ok_iff.1 hp
      cases hp
      exact ⟨Network.addProcessor_carries (fun _ _ => rfl) hloads hadd,
        Network.addProcessor_noneWaits hnone hadd⟩
    | createJob | revalidate | request => exact hbuilds.elim

/-- In a network that was built and not worked yet, the audit passes over a need when any
    processor that makes the cargo names the station. The cargo is shipped there when the first
    processor of some station that makes it does so. The two agree unless a station has several
    processors for the cargo, and only later ones name the station. -/
theorem Run.unreported_iff_and_ships_iff {config : Config} {history : List Event} {net : Network}
    (h : Run Builds config history net) (hwage : config.maxCars * foldedWagePerCar < Count.limit)
    (hnumber : ∀ code, net.numberOf code + 2 < Count.limit)
    (hlists : ∀ s ∈ net.stationList, ∀ p ∈ s.processors, p.destinations.length ≤ UInt32.size)
    {station : StationCode} {cargo : Cargo} (hneeds : net.Needs station cargo) :
    (⟨station, cargo⟩ ∉ net.supplyGaps ↔ ∃ s ∈ net.stationList, ∃ p ∈ s.processors,
      p.output = cargo ∧ station ∈ p.destinations) ∧
    (net.Ships cargo station ↔ ∃ s ∈ net.stationList, ∃ p, s.producerOf? cargo = some p ∧
      station ∈ p.destinations) := by
  obtain ⟨hloads, hnone⟩ := h.built
  have hwage' : net.config.maxCars * foldedWagePerCar < Count.limit := by
    rwa [h.reachable.config_eq]
  refine ⟨?_, Network.ships_iff h.reachable.safe.filed hnone hloads hwage' hnumber hlists⟩
  rw [Network.mem_supplyGaps_iff]
  simp [hneeds]

/-- A run in which a mine gets two processors that make coal, the first one for the steel mill
    and the second one for a rival, and one of these two needs coal. -/
def rivalRun (consumer : StationCode) : List Operation :=
  [.addStation .cm 1 3, .addStation .sm 1 3, .addStation .gf 1 3,
    .addProcessor .cm (.generative .coal [.sm]), .addProcessor .cm (.generative .coal [.gf]),
    .addProcessor consumer (.ofBlueprint (Table.empty.insert .coal 1) .nothing [])]

/-- The run builds a network without a fault, of which any test tells. -/
theorem exists_built_rivalRun (consumer : StationCode) (test : Network → Bool)
    (h : ((Network.empty {}).performAll (rivalRun consumer)).toOption.any test) :
    ∃ history net, history.map Event.operation = (rivalRun consumer).reverse ∧
      Run Builds {} history net ∧ test net := by
  obtain ⟨net, hnet, -, htest⟩ := exists_reachable {} (rivalRun consumer) test h
  have hbuilds : ∀ op ∈ rivalRun consumer, ∀ n, Builds n op := by
    intro op hop n
    simp only [rivalRun, List.mem_cons, List.not_mem_nil, or_false] at hop
    rcases hop with rfl | rfl | rfl | rfl | rfl | rfl <;> trivial
  obtain ⟨history, hoperations, hrun⟩ := Run.start.performAll hbuilds hnet
  rw [List.append_nil] at hrun
  exact ⟨history, net, hoperations, hrun, htest⟩

/-- The steel mill needs coal, and gets it from the first processor of the mine. -/
theorem rivalRun_unreported_iff_and_ships_iff :
    ∃ history net, history.map Event.operation = (rivalRun .sm).reverse ∧
      Run Builds {} history net ∧ net.Needs .sm .coal ∧
      (⟨.sm, .coal⟩ ∉ net.supplyGaps ↔ ∃ s ∈ net.stationList, ∃ p ∈ s.processors,
        p.output = .coal ∧ .sm ∈ p.destinations) ∧
      (net.Ships .coal .sm ↔ ∃ s ∈ net.stationList, ∃ p, s.producerOf? .coal = some p ∧
        .sm ∈ p.destinations) := by
  obtain ⟨history, net, hoperations, hrun, htest⟩ := exists_built_rivalRun .sm
    (fun net => net.Needs .sm .coal ∧
      (∀ code ∈ StationCode.all, net.numberOf code + 2 < Count.limit) ∧
      ∀ s ∈ net.stationList, ∀ p ∈ s.processors, p.destinations.length ≤ UInt32.size)
    (by decide +kernel)
  obtain ⟨hneeds, hnumber, hlists⟩ := of_decide_eq_true htest
  exact ⟨history, net, hoperations, hrun, hneeds, hrun.unreported_iff_and_ships_iff (by decide)
    (fun code => hnumber code code.mem_all) hlists hneeds⟩

/-- The rival needs coal, and the second processor of the mine names it, so nothing is reported.
    But all coal of the mine goes on to the steel mill. -/
theorem rivalRun_not_shipped :
    ∃ history net, history.map Event.operation = (rivalRun .gf).reverse ∧
      Run Builds {} history net ∧ net.Needs .gf .coal ∧ ⟨.gf, .coal⟩ ∉ net.supplyGaps ∧
      ¬ net.Ships .coal .gf := by
  obtain ⟨history, net, hoperations, hrun, htest⟩ := exists_built_rivalRun .gf
    (fun net => net.Needs .gf .coal ∧ SupplyGap.mk .gf .coal ∉ net.supplyGaps ∧
      ∀ s ∈ net.stationList, ∀ p ∈ s.producerOf? .coal, StationCode.gf ∉ p.destinations)
    (by decide +kernel)
  obtain ⟨hneeds, hunreported, hfirst⟩ := of_decide_eq_true htest
  refine ⟨history, net, hoperations, hrun, hneeds, hunreported, ?_⟩
  rintro ⟨load, hkind, hcargo, -, hsends⟩
  obtain ⟨s, p, hs, hp, hstation⟩ := hsends.exists_producer hrun.built.1 hkind
  exact hfirst s (Network.mem_stationList_iff.2 ⟨_, hs⟩) p (hcargo ▸ hp) hstation

end RailFreight
