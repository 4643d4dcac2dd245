import RailFreight.Network.Standard
import RailFreight.Proofs.Progress

/-!
# How long counts last

The cars in a network and the numbers of its jobs grow slowly: a request adds at most one load
that is made from nothing, and hands out at most three numbers. The standard network starts with
few of either. So a count can leave its range only after a very long run of requests, and before
that none of them meets a fault.

* `Network.Headroom`: room for what a number of requests can add;
* `Network.Headroom.exists_perform`: a request meets no fault, and uses up the room of one;
* `Network.Headroom.exists_performAll`: so do many;
* `Network.exists_standard`: what the standard network starts with;
* `requests_meet_no_fault`: how many requests to the standard network meet no fault.
-/

namespace RailFreight

namespace Network

variable {config : Config} {net net' : Network} {code : StationCode} {place : Place} {j : Job}
  {user : User} {id : JobId} {action : Action} {k : Nat}

/-! ## Requests -/

/-- There is room for the cars and the jobs that `k` requests can add. -/
structure Headroom (net : Network) (k : Nat) : Prop where
  cars : net.totalCars + k * net.config.maxCars < Count.limit
  number : ∀ code, net.numberOf code + k * 3 < Count.limit

theorem totalCars_removeJobAt (hj : net.jobAt? place = some j) :
    (net.removeJobAt place).totalCars + j.cars = net.totalCars := by
  rw [totalCars, totalCars, ← j.sum_carsOf, ← Finset.sum_add_distrib]
  exact Finset.sum_congr rfl fun x _ => amountOf_removeJobAt hj

/-- A granted request hands out at most three numbers of a station. -/
theorem granted_numberOf_le (hf : net.Filed) (hj : net.jobAt? place = some j)
    (hgranted : net.Granted user place j action net') (code : StationCode) :
    net'.numberOf code ≤ net.numberOf code + 3 := by
  cases hgranted with
  | reserve =>
    have hout := (handsOut_modifyJobAt (f := (·.reserve user)) hj fun _ => rfl).number_le code
    exact hout.trans (Nat.add_le_add_left (Nat.zero_le 3) _)
  | @take track =>
    have hout := (handsOut_modifyJobAt (f := (·.activate track)) hj fun _ => rfl).trans
      (revalidate_later _).alike.handsOut
    exact (hout.number_le code).trans (Nat.add_le_add_left (Nat.zero_le 3) _)
  | @finish d n hd =>
    obtain ⟨hdispatched, hlength⟩ := dispatch_handsOut (hf.removeJobAt place) hd
    have hnumber := hdispatched.number_le code
    have hsettled := (revalidate_later n).alike.handsOut.number_le code
    rw [numberOf_removeJobAt] at hnumber
    rw [List.length_nil] at hsettled
    omega

namespace Headroom

theorem mono {l : Nat} (h : net.Headroom k) (hl : l ≤ k) : net.Headroom l where
  cars := by
    have hcars := h.cars
    have hle := Nat.mul_le_mul_right net.config.maxCars hl
    omega
  number code := by
    have hnumber := h.number code
    omega

/-- With room for one request more, a request meets no fault, and the room for the others is
    left. -/
theorem exists_perform (h : net.Headroom (k + 1)) (hsafe : net.Safe) (hnumbered : net.Numbered)
    (hwage : net.config.maxCars * foldedWagePerCar < Count.limit) (action : Action) (user : User)
    (id : JobId) :
    ∃ outcome net', net.perform (.request action user id) = .ok (outcome, net') ∧
      net'.Headroom k := by
  have hcars := h.cars
  rw [Nat.succ_mul] at hcars
  have hdispatch : ∀ place j, net.jobAt? place = some j → j.id = id →
      ∃ d n, (net.removeJobAt place).dispatch j = .ok (d, n) := by
    intro place j hj _
    have hremoved := totalCars_removeJobAt hj
    refine exists_dispatch (hsafe.removeJobAt hj).filed
      (hsafe.fits_of_mem (mem_jobs_of_jobAt? hj)).cars_le hwage ?_ fun code => ?_
    · show _ + net.config.maxCars < _
      omega
    · have hnumber := h.number code
      rw [numberOf_removeJobAt]
      omega
  obtain ⟨outcome, net', hp⟩ := exists_perform_request hsafe hnumbered action user id hdispatch
  refine ⟨outcome, net', hp, ?_⟩
  have hconfig := hsafe.perform_config_eq hp
  cases perform_request hp with
  | refused => exact h.mono (Nat.le_succ k)
  | granted _ _ hj _ _ hgranted =>
    have htotal := granted_totalCars_le hsafe.filed hj hgranted
    refine ⟨by rw [hconfig]; omega, fun code => ?_⟩
    have hnumber := h.number code
    have hgrown := granted_numberOf_le hsafe.filed hj hgranted code
    omega

/-- With room for all of them, no request meets a fault. -/
theorem exists_performAll {requests : List (Action × User × JobId)}
    (h : net.Headroom requests.length) (hsafe : net.Safe) (hnumbered : net.Numbered)
    (hwage : net.config.maxCars * foldedWagePerCar < Count.limit) :
    ∃ net', net.performAll (requests.map fun r => .request r.1 r.2.1 r.2.2) = .ok net' := by
  induction requests generalizing net with
  | nil => exact ⟨net, rfl⟩
  | cons r requests ih =>
    obtain ⟨outcome, n, hp, hroom⟩ := h.exists_perform hsafe hnumbered hwage r.1 r.2.1 r.2.2
    have hwage' : n.config.maxCars * foldedWagePerCar < Count.limit := by
      rwa [hsafe.perform_config_eq hp]
    obtain ⟨net', hrest⟩ := ih hroom (hsafe.perform hp) (hnumbered.perform hsafe hp) hwage'
    refine ⟨net', ?_⟩
    rw [performAll, List.map_cons, List.foldlM_cons]
    exact Faulty.bind_eq_ok_iff.2 ⟨n, Faulty.bind_eq_ok_iff.2 ⟨_, hp, rfl⟩, hrest⟩

end Headroom

/-! ## The standard network -/

/-- Loads that stations make from nothing have fewer cars than `top`. -/
def Ranged (net : Network) (top : Nat) : Prop :=
  ∀ code s, net.station? code = some s → s.minCars < s.maxCars ∧ s.maxCars ≤ top

namespace Ranged

variable {top : Nat}

theorem modifyStation {f : Station → Station} (h : net.Ranged top)
    (hf : ∀ s, net.station? code = some s →
      (f s).minCars = s.minCars ∧ (f s).maxCars = s.maxCars) :
    (net.modifyStation code f).Ranged top := by
  intro c t ht
  rcases station?_modifyStation_eq_some ht with ht | ⟨s, rfl, hs, rfl⟩
  · exact h c t ht
  · rw [(hf s hs).1, (hf s hs).2]
    exact h code s hs

theorem addStation {lo hi : Nat} (h : net.Ranged top) (hlo : lo < hi) (hhi : hi ≤ top) :
    (net.addStation code lo hi).Ranged top := by
  intro c t ht
  rw [Network.addStation, station?_putStation] at ht
  split at ht
  · obtain rfl := Option.some.inj ht
    exact ⟨hlo, hhi⟩
  · exact h c t ht

theorem seedLoad {cargo : Cargo} (h : net.Ranged top)
    (hseed : net.seedLoad code cargo = .ok (id, net')) : net'.Ranged top := by
  obtain ⟨generator, cars, wage, -, hjob⟩ := exists_createJob_of_seedLoad hseed
  obtain ⟨s, overflow, hs, -, rfl⟩ := createJob_eq_ok hjob
  have h : { net with generator }.Ranged top := h
  refine h.modifyStation fun u hu => ?_
  obtain rfl := Option.some.inj (hs.symm.trans hu)
  exact ⟨rfl, rfl⟩

theorem addProcessor {p : Processor} {seeded : Option JobId} (h : net.Ranged top)
    (hadd : net.addProcessor code p = .ok (seeded, net')) : net'.Ranged top := by
  rcases addProcessor_eq_ok hadd with ⟨-, rfl⟩ | ⟨s, -, ⟨-, rfl⟩ | ⟨-, load, hseed⟩⟩
  · exact h
  · exact h.modifyStation fun _ _ => ⟨rfl, rfl⟩
  · exact (h.modifyStation (f := (·.addProcessor p)) fun _ _ => ⟨rfl, rfl⟩).seedLoad hseed

theorem seedCars_lt (h : net.Ranged top) (hs : (net.station? code).isSome) :
    net.seedCars code < top := by
  obtain ⟨s, hs⟩ := Option.isSome_iff_exists.1 hs
  obtain ⟨hlo, hhi⟩ := h code s hs
  rw [seedCars, hs]
  exact Nat.lt_of_le_of_lt (Nat.min_le_left _ _)
    (Nat.lt_of_lt_of_le (net.generator.range_lt hlo) hhi)

end Ranged

theorem exists_addProcessor (code : StationCode) (p : Processor)
    (hwage : net.config.maxCars * foldedWagePerCar < Count.limit)
    (hnumber : net.numberOf code + 1 < Count.limit) :
    ∃ seeded net', net.addProcessor code p = .ok (seeded, net') := by
  rw [addProcessor]
  rcases hs : net.station? code with _ | s
  · exact ⟨_, _, rfl⟩
  simp only
  split
  · have hsome : ((net.modifyStation code (·.addProcessor p)).station? code).isSome := by
      rw [station?_modifyStation_self hs]
      rfl
    have hnumber' :
        (net.modifyStation code (·.addProcessor p)).numberOf code + 1 < Count.limit := by
      rwa [numberOf_modifyStation (·.addProcessor p) fun _ => rfl]
    obtain ⟨load, net', hseed⟩ := exists_seedLoad p.output hsome hwage hnumber'
    exact ⟨_, _, Faulty.bind_eq_ok_iff.2 ⟨_, hseed, rfl⟩⟩
  · exact ⟨_, _, rfl⟩

/-- An empty processor brings at most one load along, of fewer cars than the ranges allow. -/
theorem addProcessor_totalCars_le {top : Nat} {p : Processor} {seeded : Option JobId}
    (h : net.Ranged (top + 1)) (hempty : ∀ x, p.buffered x = 0)
    (hadd : net.addProcessor code p = .ok (seeded, net')) :
    net'.totalCars ≤ net.totalCars + if p.isGenerative then top else 0 := by
  have hamount := fun x => addProcessor_amountOf (x := x) hadd
  rcases hs : net.station? code with _ | s
  · have hsame : net'.totalCars = net.totalCars :=
      Finset.sum_congr rfl fun x _ => by
        have hamount := hamount x
        simp only [hs] at hamount
        omega
    rw [hsame]
    exact Nat.le_add_right _ _
  · have hsum : net'.totalCars = net.totalCars +
        ∑ x, if p.isGenerative then p.output.only (net.seedCars code) x else 0 := by
      rw [totalCars, totalCars, ← Finset.sum_add_distrib]
      refine Finset.sum_congr rfl fun x _ => ?_
      have hamount := hamount x
      simp only [hs, hempty x, Nat.cast_zero, zero_add] at hamount
      omega
    rw [hsum]
    refine Nat.add_le_add_left ?_ _
    split
    · rw [Cargo.sum_only]
      exact Nat.le_of_lt_succ (h.seedCars_lt (by rw [hs]; rfl))
    · rw [Finset.sum_const_zero]

/-- Empty processors are added without a fault while there are numbers for their loads. -/
theorem exists_addProcessors (top : Nat) {ps : List (StationCode × Processor)}
    (hreach : Reachable config net) (h : net.Ranged (top + 1))
    (hempty : ∀ e ∈ ps, ∀ x, e.2.buffered x = 0)
    (hwage : config.maxCars * foldedWagePerCar < Count.limit)
    (hnumber : ∀ code, net.numberOf code + ps.length < Count.limit) :
    ∃ net', net.addProcessors ps = .ok net' ∧ Reachable config net' ∧
      net'.totalCars ≤ net.totalCars + top * ps.countP (·.2.isGenerative) ∧
      ∀ code, net'.numberOf code ≤ net.numberOf code + ps.length := by
  induction ps generalizing net with
  | nil => exact ⟨net, rfl, hreach, Nat.le_refl _, fun _ => Nat.le_refl _⟩
  | cons e ps ih =>
    obtain ⟨code, p⟩ := e
    obtain ⟨hfirst, hempty⟩ := List.forall_mem_cons.1 hempty
    simp only [List.length_cons] at hnumber
    have hnext := hnumber code
    have hwage' : net.config.maxCars * foldedWagePerCar < Count.limit := by
      rwa [hreach.config_eq]
    obtain ⟨seeded, n, hadd⟩ := exists_addProcessor code p hwage' (by omega)
    have hout := addProcessor_handsOut hreach.safe.filed hadd
    have htotal := addProcessor_totalCars_le h hfirst hadd
    have hgrown : ∀ c, n.numberOf c ≤ net.numberOf c + 1 := fun c =>
      (hout.number_le c).trans (Nat.add_le_add_left (by cases seeded <;> simp) _)
    have hperform : net.perform (.addProcessor code p) = .ok (.processorAdded seeded, n) :=
      Faulty.bind_eq_ok_iff.2 ⟨_, hadd, rfl⟩
    obtain ⟨net', hrest, hreach', htotal', hgrown'⟩ := ih (hreach.step hperform)
      (h.addProcessor hadd) hempty fun c => by
        have hnumber := hnumber c
        have hgrown := hgrown c
        omega
    refine ⟨net', Faulty.bind_eq_ok_iff.2 ⟨_, hadd, hrest⟩, hreach', ?_, fun c => ?_⟩
    · rw [List.countP_cons, Nat.mul_add]
      split_ifs at htotal ⊢ <;> omega
    · have hfirst := hgrown c
      have hlast := hgrown' c
      rw [List.length_cons]
      omega

/-- New stations bring no cars, and start with the first number. -/
theorem bare_addStations (ranges : List (StationCode × Nat × Nat)) (top : Nat)
    (hranges : ∀ r ∈ ranges, r.2.1 < r.2.2 ∧ r.2.2 ≤ top) (hreach : Reachable config net)
    (h : net.Ranged top) (hcars : net.totalCars = 0) (hnumber : ∀ code, net.numberOf code = 1) :
    let net' := ranges.foldl (fun net (code, lo, hi) => net.addStation code lo hi) net
    Reachable config net' ∧ net'.Ranged top ∧ net'.totalCars = 0 ∧
      ∀ code, net'.numberOf code = 1 := by
  induction ranges generalizing net with
  | nil => exact ⟨hreach, h, hcars, hnumber⟩
  | cons r ranges ih =>
    obtain ⟨code, lo, hi⟩ := r
    obtain ⟨⟨hlo, hhi⟩, hranges⟩ := List.forall_mem_cons.1 hranges
    have hperform : net.perform (.addStation code lo hi) =
      .ok (.stationAdded, net.addStation code lo hi) := rfl
    refine ih hranges (hreach.step hperform) (h.addStation hlo hhi) ?_ fun c => ?_
    · have hle : (net.addStation code lo hi).totalCars ≤ net.totalCars :=
        Finset.sum_le_sum fun x _ => Nat.le.intro (net.amountOf_addStation (x := x) code lo hi)
      exact Nat.le_zero.1 (hcars ▸ hle)
    · have hnumber := hnumber c
      show (net.addStation code lo hi).numberOf c = 1
      rw [numberOf] at hnumber
      rw [numberOf, Network.addStation, station?_putStation]
      split
      · rfl
      · exact hnumber

/-- The standard network has few cars, and has handed out few numbers. -/
theorem exists_standard (hmax : config.maxCars ≤ 4294967) :
    ∃ net, standard config = .ok net ∧ Reachable config net ∧ net.totalCars ≤ 242 ∧
      ∀ code, net.numberOf code ≤ 40 := by
  have hlimit : Count.limit = 4294967296 := rfl
  have hwage : config.maxCars * foldedWagePerCar < Count.limit := by
    rw [foldedWagePerCar, hlimit]
    omega
  have hstart : Reachable config (empty config) := ⟨[], .start⟩
  have hnone : (empty config).totalCars = 0 := Finset.sum_eq_zero fun x _ => rfl
  obtain ⟨hreach, hranged, hcars, hnumber⟩ := bare_addStations carRanges 12 (by decide) hstart
    (fun code s hs => absurd ((Table.get?_empty code).symm.trans hs) nofun) hnone fun _ => rfl
  have hempty : ∀ e ∈ standardProcessors, ∀ x, e.2.buffered x = 0 := by
    intro e he x
    rcases List.mem_append.1 he with he | he
    · obtain ⟨⟨code, output, destinations⟩, -, rfl⟩ := List.mem_map.1 he
      rfl
    · obtain ⟨⟨code, needs, output, destinations⟩, -, rfl⟩ := List.mem_map.1 he
      rfl
  have hlength : standardProcessors.length = 39 := rfl
  have hcount : standardProcessors.countP (·.2.isGenerative) = 22 := by decide
  obtain ⟨net, hnet, hreach', htotal, hgrown⟩ :=
    exists_addProcessors 11 hreach hranged hempty hwage fun code => by
      rw [hnumber, hlength, hlimit]
      decide
  have halike := net.revalidate_later.alike
  have hperform : net.perform .revalidate =
    .ok (.revalidated net.revalidate.1, net.revalidate.2) := rfl
  refine ⟨net.revalidate.2, Faulty.bind_eq_ok_iff.2 ⟨net, hnet, rfl⟩, hreach'.step hperform, ?_,
    fun code => ?_⟩
  · have hsame : net.revalidate.2.totalCars = net.totalCars :=
      Finset.sum_congr rfl fun x _ => halike.amountOf_eq x
    rw [hcount, hcars] at htotal
    omega
  · have hsame := halike.handsOut.number_le code
    have hgrown := hgrown code
    rw [hnumber, hlength] at hgrown
    rw [List.length_nil] at hsame
    omega

/-- Only jobs that nobody has claimed fall back into the queue. -/
theorem not_claimed_of_despawn (h : net.decision j = .despawn) : ¬ j.isReserved ∧ ¬ j.isActive := by
  have hd := net.decided j
  rw [h] at hd
  cases hd with
  | despawn ha _ _ hr => exact ⟨hr, ha⟩

end Network

/-- The standard network is built without a fault, and so many requests to it meet none, whoever
    makes them, for whatever jobs, in whatever order. No decision lets a job that is reserved or
    active fall back into the queue. -/
theorem requests_meet_no_fault (config : Config) (hmax : config.maxCars ≤ 4294967)
    (requests : List (Action × User × JobId))
    (hlength : requests.length * max config.maxCars 3 + 300 < Count.limit) :
    (∃ net net', Network.standard config = .ok net ∧
      net.performAll (requests.map fun r => .request r.1 r.2.1 r.2.2) = .ok net') ∧
    ∀ (net : Network) (j : Job), net.decision j = .despawn → ¬ j.isReserved ∧ ¬ j.isActive := by
  refine ⟨?_, fun _ _ => Network.not_claimed_of_despawn⟩
  obtain ⟨net, hnet, hreach, hcars, hnumber⟩ := Network.exists_standard hmax
  have hloads := Nat.mul_le_mul_left requests.length (Nat.le_max_left config.maxCars 3)
  have hnumbers := Nat.mul_le_mul_left requests.length (Nat.le_max_right config.maxCars 3)
  have hroom : net.Headroom requests.length := by
    refine ⟨by rw [hreach.config_eq]; omega, fun code => ?_⟩
    have hnumber := hnumber code
    omega
  have hwage : net.config.maxCars * foldedWagePerCar < Count.limit := by
    have hlimit : Count.limit = 4294967296 := rfl
    rw [hreach.config_eq, foldedWagePerCar, hlimit]
    omega
  obtain ⟨net', hrun⟩ := hroom.exists_performAll hreach.safe hreach.numbered hwage
  exact ⟨net, net', hnet, hrun⟩

/-- One user takes a load of the standard network through, another one asks for it in between. -/
theorem four_requests_meet_no_fault :
    (∃ net net', Network.standard {} = .ok net ∧
      net.performAll ([(.reserve, User.bob, JobId.of .csw .shuntingLoad 1),
        (.take, User.eve, JobId.of .csw .shuntingLoad 1),
        (.take, User.bob, JobId.of .csw .shuntingLoad 1),
        (.finish, User.bob, JobId.of .csw .shuntingLoad 1)].map fun r =>
          .request r.1 r.2.1 r.2.2) = .ok net') ∧
    ∀ (net : Network) (j : Job), net.decision j = .despawn → ¬ j.isReserved ∧ ¬ j.isActive :=
  requests_meet_no_fault {} (by decide) _ (by decide)

end RailFreight
