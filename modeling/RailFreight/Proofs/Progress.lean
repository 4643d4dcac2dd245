import RailFreight.Proofs.Totals

/-!
# Work without faults

A request meets a fault only when a count leaves its range: with unique ids every job is located,
and a station that works on a finished job is in the network. The counts are the amounts of cargo
in buffers, in overflows and on loads, the wages, and the numbers of the jobs. So a finished job
takes effect without a fault when there is room for its cars and for one more load, when the
highest wage fits, and when its destination has three more numbers to hand out.

* `Processor.exists_tryProduce`, `Station.exists_intake`, `Station.exists_fold`: production;
* `Network.exists_createJob`, `Network.exists_dispatch`: new jobs, and what a finished job does;
* `Network.exists_perform_request`: a request is answered when the job that it finishes, if it
  does, takes effect without a fault.
-/

namespace RailFreight

/-- Two steps have a result when the first one has it, and the second one has one on it. -/
theorem Faulty.exists_bind {α β : Type} {x : Faulty α} {f : α → Faulty β} {a : α}
    (hx : x = .ok a) (hf : ∃ b, f a = .ok b) : ∃ b, (x >>= f) = .ok b := by
  obtain ⟨b, hb⟩ := hf
  exact ⟨b, Faulty.bind_eq_ok_iff.2 ⟨a, hx, hb⟩⟩

/-- The wage for folded output is the highest one. -/
theorem Cargo.baseWage_le (cargo : Cargo) : cargo.baseWage ≤ foldedWagePerCar := by
  rw [baseWage]
  cases cargo.tier <;> decide

theorem Cargo.only_le (cargo : Cargo) (count : Nat) (x : Cargo) : cargo.only count x ≤ count := by
  rw [only]
  split
  · exact Nat.le_refl _
  · exact Nat.zero_le _

/-! ## Production -/

theorem Stock.exists_add {s : Stock} {cargo : Cargo} {count : Nat}
    (h : s.amount cargo + count < Count.limit) : ∃ s', s.add cargo count = .ok s' :=
  ⟨_, Faulty.bind_eq_ok_iff.2 ⟨_, Count.add_eq_ok_iff.2 ⟨h, rfl⟩, rfl⟩⟩

namespace Processor

variable {p : Processor}

/-- Units are taken from a buffer that has enough of everything that they need. -/
theorem exists_consume {units : Nat} {buffer : Stock} {needs : List (Cargo × Nat)}
    (hasc : Ascending needs) (henough : ∀ e ∈ needs, units * perUnit e.2 ≤ buffer.amount e.1)
    (hlt : ∀ x, buffer.amount x < Count.limit) :
    ∃ buffer', consume units buffer needs = .ok buffer' := by
  induction needs generalizing buffer with
  | nil => exact ⟨buffer, rfl⟩
  | cons e needs ih =>
    obtain ⟨cargo, need⟩ := e
    obtain ⟨hfirst, hasc⟩ := List.pairwise_cons.1 hasc
    obtain ⟨hneed, henough⟩ := List.forall_mem_cons.1 henough
    rw [consume]
    rcases hget : buffer.get? cargo with _ | held
    · exact ih hasc henough hlt
    have hheld : buffer.amount cargo = held := by
      rw [Stock.amount, Table.getD, hget, Option.getD_some]
    have hlimit := hlt cargo
    simp only [hheld] at hneed hlimit
    -- The keys ascend, so what is taken now leaves enough of the cargo that comes later.
    have hlater : ∀ e ∈ needs, units * perUnit e.2 ≤
        Stock.amount (buffer.insert cargo (held - units * perUnit need)) e.1 := by
      intro e he
      have hne : e.1 ≠ cargo := fun h => Nat.lt_irrefl _ (h ▸ hfirst e he)
      rw [Stock.amount_insert, if_neg hne]
      exact henough e he
    have hlt' : ∀ x, Stock.amount (buffer.insert cargo (held - units * perUnit need)) x <
        Count.limit := by
      intro x
      rw [Stock.amount_insert]
      split
      · omega
      · exact hlt x
    obtain ⟨buffer', hrest⟩ := ih hasc hlater hlt'
    exact ⟨buffer', Faulty.bind_eq_ok_iff.2 ⟨_, Count.mul_eq_ok_iff.2 ⟨by omega, rfl⟩,
      Faulty.bind_eq_ok_iff.2 ⟨_, Count.sub_eq_ok_iff.2 ⟨hneed, rfl⟩, hrest⟩⟩⟩

/-- A processor produces as many units as its buffer is enough for. -/
theorem exists_tryProduce (h : ∀ x, p.buffered x < Count.limit) :
    ∃ units q, p.tryProduce = .ok (units, q) := by
  rw [tryProduce]
  split
  · exact ⟨0, p, rfl⟩
  · have henough : ∀ e ∈ p.blueprint.entries, p.affordable * perUnit e.2 ≤ p.buffered e.1 := by
      intro e he
      have hle : p.affordable ≤ p.buffered e.1 / perUnit e.2 :=
        List.min?_getD_le_of_mem (List.mem_map_of_mem he)
      exact (Nat.le_div_iff_mul_le (Nat.lt_of_lt_of_le Nat.one_pos (Nat.le_max_right _ _))).1 hle
    obtain ⟨buffer, hconsumed⟩ := exists_consume p.blueprint.ascending henough h
    exact ⟨_, _, Faulty.bind_eq_ok_iff.2 ⟨buffer, hconsumed, rfl⟩⟩

end Processor

namespace Station

variable {s : Station} {cargo : Cargo} {count ceiling : Nat}

theorem exists_addOverflow (h : s.overflowOf cargo + count < Count.limit) :
    ∃ s', s.addOverflow cargo count = .ok s' := by
  rw [addOverflow]
  split
  · exact ⟨s, rfl⟩
  · obtain ⟨overflow, hadded⟩ := Stock.exists_add h
    exact ⟨_, Faulty.bind_eq_ok_iff.2 ⟨overflow, hadded, rfl⟩⟩

theorem exists_addJob (kind : JobKind) (destination : StationCode) (cars : Nat) (cargo : Cargo)
    (wage : Nat) (h : s.nextNumber + 1 < Count.limit) :
    ∃ id s', s.addJob kind destination cars cargo wage = .ok (id, s') :=
  ⟨_, _, Faulty.bind_eq_ok_iff.2 ⟨_, Count.add_eq_ok_iff.2 ⟨h, rfl⟩, rfl⟩⟩

/-- A delivery is taken in when there is room for it besides what is at the station. -/
theorem exists_intake (cargo : Cargo) (h : s.totalCars + count < Count.limit) :
    ∃ produced s', s.intake cargo count = .ok (produced, s') := by
  rw [intake]
  split
  · exact ⟨none, s, rfl⟩
  rcases hacc : s.acceptor? cargo with _ | ⟨i, p⟩
  · exact ⟨none, _, rfl⟩
  have hbuffered : ∀ x, p.buffered x ≤ s.totalCars := by
    intro x
    have hmem := List.mem_of_getElem? (acceptor?_eq_some hacc).1
    have hle : p.buffered x ≤ (s.processors.map (·.buffered x)).sum :=
      List.le_sum_of_mem (List.mem_map_of_mem hmem)
    have htotal := s.amountOf_le_totalCars x
    rw [amountOf] at htotal
    omega
  have hdelivery : p.buffer.amount cargo + count < Count.limit :=
    Nat.lt_of_le_of_lt (Nat.add_le_add_right (hbuffered cargo) count) h
  obtain ⟨buffer, hadded⟩ := Stock.exists_add hdelivery
  have hq : p.accumulate cargo count = .ok { p with buffer } :=
    Faulty.bind_eq_ok_iff.2 ⟨buffer, hadded, rfl⟩
  have hlt : ∀ x, { p with buffer }.buffered x < Count.limit := by
    intro x
    have hsum := (Processor.accumulate_eq_ok hq).2 x
    have hle := hbuffered x
    have honly := cargo.only_le count x
    omega
  obtain ⟨units, q, hproduced⟩ := Processor.exists_tryProduce hlt
  exact ⟨_, _, Faulty.bind_eq_ok_iff.2 ⟨_, hq, Faulty.bind_eq_ok_iff.2 ⟨_, hproduced, rfl⟩⟩⟩

/-- Output is folded into the queue when there is room for it, the wage of a full load fits, and
    there is a number for a new load. -/
theorem exists_fold (hroom : s.amountOf cargo + count < Count.limit)
    (hwage : ceiling * foldedWagePerCar < Count.limit) (hnumber : s.nextNumber + 1 < Count.limit) :
    ∃ folded s', s.fold cargo count ceiling = .ok (folded, s') := by
  rw [amountOf] at hroom
  rw [fold]
  rcases hsplit : splitFirst? (·.isMergeableLoad cargo) s.queue with _ | ⟨before, load, after⟩
  · have hwage : min count ceiling * foldedWagePerCar < Count.limit :=
      Nat.lt_of_le_of_lt (Nat.mul_le_mul_right _ (Nat.min_le_right _ _)) hwage
    obtain ⟨id, t, hjob⟩ := exists_addJob .shuntingLoad s.code (min count ceiling) cargo _ hnumber
    have hover : t.overflowOf cargo + (count - min count ceiling) < Count.limit := by
      obtain ⟨-, rfl⟩ := addJob_eq_ok hjob
      show s.overflowOf cargo + _ < _
      omega
    obtain ⟨u, hu⟩ := exists_addOverflow hover
    rw [hsplit]
    exact ⟨_, u, Faulty.bind_eq_ok_iff.2 ⟨_, Count.mul_eq_ok_iff.2 ⟨hwage, rfl⟩,
      Faulty.bind_eq_ok_iff.2 ⟨_, hjob, Faulty.bind_eq_ok_iff.2 ⟨u, hu, rfl⟩⟩⟩⟩
  · obtain ⟨hqueue, hload, -⟩ := append_of_splitFirst? hsplit
    have hcars : load.cars ≤ (s.queue.map (·.carsOf cargo)).sum := by
      have hcargo : load.cargo = cargo := by
        simp only [Job.isMergeableLoad, Bool.and_eq_true, decide_eq_true_eq] at hload
        exact hload.1.1.2
      have hmem : load ∈ s.queue := by simp [hqueue]
      have hself : load.carsOf cargo = load.cars := if_pos hcargo.symm
      exact hself ▸ List.le_sum_of_mem (List.mem_map_of_mem (f := (·.carsOf cargo)) hmem)
    let filled : Job := { load with cars := min (load.cars + count) (max ceiling load.cars) }
    have hadd : load.addCars count ceiling = .ok (filled, load.cars + count - filled.cars) :=
      Job.addCars_eq_ok_iff.2 ⟨by omega, rfl, rfl⟩
    have hover : { s with queue := before ++ filled :: after }.overflowOf cargo +
        (load.cars + count - filled.cars) < Count.limit := by
      show s.overflowOf cargo + _ < _
      omega
    obtain ⟨u, hu⟩ := exists_addOverflow hover
    rw [hsplit]
    exact ⟨_, u, Faulty.bind_eq_ok_iff.2 ⟨_, hadd, Faulty.bind_eq_ok_iff.2 ⟨u, hu, rfl⟩⟩⟩

end Station

namespace Network

variable {net net' : Network} {code : StationCode} {s : Station} {j : Job} {cargo : Cargo}
  {count : Nat} {id : JobId} {user : User} {action : Action}

/-! ## New jobs -/

/-- A job within the ceiling is created at any station that has a number for it. -/
theorem exists_createJob (kind : JobKind) (destination : StationCode) {cars : Nat} (cargo : Cargo)
    (wage : Nat) (hs : (net.station? code).isSome) (hnumber : net.numberOf code + 1 < Count.limit)
    (hcars : cars ≤ net.config.maxCars) :
    ∃ id net', net.createJob code kind destination cars cargo wage = .ok (id, net') := by
  obtain ⟨s, hs⟩ := Option.isSome_iff_exists.1 hs
  rw [numberOf, hs, Option.elim_some] at hnumber
  obtain ⟨id, t, hjob⟩ :=
    s.exists_addJob kind destination (min cars net.config.maxCars) cargo wage hnumber
  have hnone : s.addOverflow cargo (cars - net.config.maxCars) = .ok s :=
    if_pos (Nat.sub_eq_zero_of_le hcars)
  rw [createJob, hs]
  exact ⟨_, _, Faulty.bind_eq_ok_iff.2 ⟨s, hnone, Faulty.bind_eq_ok_iff.2 ⟨_, hjob, rfl⟩⟩⟩

theorem exists_seedLoad (cargo : Cargo) (hs : (net.station? code).isSome)
    (hwage : net.config.maxCars * foldedWagePerCar < Count.limit)
    (hnumber : net.numberOf code + 1 < Count.limit) :
    ∃ id net', net.seedLoad code cargo = .ok (id, net') := by
  have hlt : cargo.baseWage * net.seedCars code < Count.limit := by
    refine Nat.lt_of_le_of_lt ?_ hwage
    rw [Nat.mul_comm]
    exact Nat.mul_le_mul (net.seedCars_le code) cargo.baseWage_le
  let drawn := ((net.station? code).map fun s => (s.minCars, s.maxCars)).getD (1, 1)
  let n : Network := { net with generator := (net.generator.range drawn.1 drawn.2).2 }
  have hjob : ∃ id net', n.createJob code .shuntingLoad code (net.seedCars code) cargo
      (cargo.baseWage * net.seedCars code) = .ok (id, net') :=
    exists_createJob .shuntingLoad code cargo _ hs hnumber (net.seedCars_le code)
  obtain ⟨id, net', hjob⟩ := hjob
  rw [seedLoad]
  exact ⟨id, net', Faulty.bind_eq_ok_iff.2 ⟨_, Count.mul_eq_ok_iff.2 ⟨hlt, rfl⟩, hjob⟩⟩

/-! ## Dispatch -/

theorem exists_forward (p : Processor) (load : Job) (d : Dispatch)
    (hs : (net.station? s.code).isSome) (hnumber : net.numberOf s.code + 1 < Count.limit)
    (hcars : load.cars ≤ net.config.maxCars) :
    ∃ d' net', net.forward s p load d = .ok (d', net') := by
  rw [forward]
  rcases net.generator.pick p.destinations with ⟨_ | target, generator⟩
  · exact ⟨_, _, rfl⟩
  · have hjob : ∃ id net', { net with generator }.createJob s.code .freight target load.cars
        load.cargo load.wage = .ok (id, net') :=
      exists_createJob .freight target load.cargo load.wage hs hnumber hcars
    obtain ⟨id, net', hjob⟩ := hjob
    exact ⟨_, _, Faulty.bind_eq_ok_iff.2 ⟨_, hjob, rfl⟩⟩

theorem exists_replenish (p : Processor) (d : Dispatch) (hs : (net.station? s.code).isSome)
    (hwage : net.config.maxCars * foldedWagePerCar < Count.limit)
    (hnumber : net.numberOf s.code + 1 < Count.limit) :
    ∃ d' net', net.replenish s p d = .ok (d', net') := by
  rw [replenish]
  split
  · obtain ⟨id, net', hseed⟩ := exists_seedLoad p.output hs hwage hnumber
    exact ⟨_, _, Faulty.bind_eq_ok_iff.2 ⟨_, hseed, rfl⟩⟩
  · exact ⟨_, _, rfl⟩

theorem exists_foldAt (d : Dispatch) (hroom : s.amountOf cargo + count < Count.limit)
    (hwage : net.config.maxCars * foldedWagePerCar < Count.limit)
    (hnumber : s.nextNumber + 1 < Count.limit) :
    ∃ d' net', net.foldAt s cargo count d = .ok (d', net') := by
  obtain ⟨folded, s', hfold⟩ := Station.exists_fold hroom hwage hnumber
  exact ⟨_, _, Faulty.bind_eq_ok_iff.2 ⟨_, hfold, rfl⟩⟩

/-- What waits for room is folded into the queue when all that is at the station has room. -/
theorem exists_drainOverflow (d : Dispatch)
    (hroom : ∀ s, net.station? code = some s → s.amountOf cargo < Count.limit)
    (hwage : net.config.maxCars * foldedWagePerCar < Count.limit)
    (hnumber : net.numberOf code + 1 < Count.limit) :
    ∃ d' net', net.drainOverflow code cargo d = .ok (d', net') := by
  rw [drainOverflow]
  rcases hs : net.station? code with _ | s
  · exact ⟨_, _, rfl⟩
  · rw [numberOf, hs, Option.elim_some] at hnumber
    have htaken := s.takeOverflow_amountOf cargo cargo
    have hheld : cargo.only (s.overflowOf cargo) cargo = (s.takeOverflow cargo).1 := if_pos rfl
    have hroom := hroom s hs
    simp only
    split
    · exact ⟨_, _, rfl⟩
    · exact exists_foldAt d (by omega) hwage hnumber

/-- A load is sent on, replaced and topped up without a fault. -/
theorem exists_ship (p : Processor) {load : Job} (hf : net.Filed)
    (hs : net.station? s.code = some s) (hcars : load.cars ≤ net.config.maxCars)
    (hwage : net.config.maxCars * foldedWagePerCar < Count.limit)
    (hroom : net.totalCars + load.cars + net.config.maxCars < Count.limit)
    (hnumber : net.numberOf s.code + 3 < Count.limit) :
    ∃ d₁ n₁ d₂ n₂ d n₃, net.forward s p load .none = .ok (d₁, n₁) ∧
      n₁.replenish s p d₁ = .ok (d₂, n₂) ∧ n₂.drainOverflow s.code load.cargo d₂ = .ok (d, n₃) := by
  have hkeys : ∀ {n : Network}, net.Upkept n → (n.station? s.code).isSome := fun hup => by
    rw [← mem_keys_iff, hup.keys_eq, mem_keys_iff, hs]
    rfl
  obtain ⟨d₁, n₁, hfwd⟩ := exists_forward p load .none (hkeys .refl) (by omega) hcars
  have hup₁ := (forward_upkeptAt hfwd).upkept
  obtain ⟨ids₁, -, hids₁, hout₁⟩ := forward_handsOut hf hfwd
  have hnumber₁ := hout₁.number_le s.code
  obtain ⟨d₂, n₂, hrep⟩ := exists_replenish p d₁ (hkeys hup₁) (by rwa [hup₁.config_eq])
    (by omega)
  have hup₂ : net.Upkept n₂ := hup₁.trans (replenish_upkeptAt hrep).upkept
  obtain ⟨ids₂, -, hids₂, hout₂⟩ := replenish_handsOut (hup₁.filed hf) hrep
  have hnumber₂ := hout₂.number_le s.code
  -- What is at the station now was in the network before, or on the load, or is the new load.
  have hroom₂ : ∀ t, n₂.station? s.code = some t → t.amountOf load.cargo < Count.limit := by
    intro t ht
    have hle := amountOf_le ht load.cargo
    have htotal := net.amountOf_le_totalCars load.cargo
    have hforwarded := (forward_amountOf (x := load.cargo) hfwd).1
    have hreplenished := replenish_amountOf (x := load.cargo) hrep
    have hload := load.cargo.only_le load.cars load.cargo
    have hseed : (if p.isGenerative then p.output.only (n₁.seedCars s.code) load.cargo else 0) ≤
        net.config.maxCars := by
      rw [← hup₁.config_eq]
      split
      · exact (p.output.only_le _ _).trans (n₁.seedCars_le s.code)
      · exact Nat.zero_le _
    rw [Job.carsOf] at hforwarded
    omega
  obtain ⟨d, n₃, hdrain⟩ := exists_drainOverflow d₂ hroom₂ (by rwa [hup₂.config_eq]) (by omega)
  exact ⟨d₁, n₁, d₂, n₂, d, n₃, hfwd, hrep, hdrain⟩

/-- The cargo of a finished job takes effect without a fault when there is room for its cars and
    for one more load. -/
theorem exists_dispatch (hf : net.Filed) (hcars : j.cars ≤ net.config.maxCars)
    (hwage : net.config.maxCars * foldedWagePerCar < Count.limit)
    (hroom : net.totalCars + j.cars + net.config.maxCars < Count.limit)
    (hnumber : ∀ code, net.numberOf code + 3 < Count.limit) :
    ∃ d net', net.dispatch j = .ok (d, net') := by
  rw [dispatch]
  rcases hs : net.station? j.destination with _ | s
  · exact ⟨_, _, rfl⟩
  have hcode := hf _ s hs
  have htotal := totalCars_le hs
  have hnext : s.nextNumber + 3 < Count.limit := by
    have hnumber := hnumber j.destination
    rwa [numberOf, hs, Option.elim_some] at hnumber
  cases hk : j.kind with
  | shuntingUnload =>
    have hdelivery : s.totalCars + j.cars < Count.limit := by omega
    obtain ⟨produced, s', hin⟩ := s.exists_intake j.cargo hdelivery
    have hleft := Station.intake_totalCars_le hin
    rcases produced with _ | ⟨output, units⟩
    · exact ⟨_, _, Faulty.bind_eq_ok_iff.2 ⟨_, hin, rfl⟩⟩
    · have hmade := s'.amountOf_le_totalCars output
      have hnext' : s'.nextNumber + 1 < Count.limit := by
        obtain ⟨cursor, processors, rfl⟩ := Station.intake_eq_ok hin
        show s.nextNumber + 1 < _
        omega
      have hroom' : s'.amountOf output + units < Count.limit := by
        rw [Option.elim_some] at hleft
        omega
      obtain ⟨d, net', hfold⟩ := exists_foldAt .none hroom' hwage hnext'
      exact ⟨d, net', Faulty.bind_eq_ok_iff.2 ⟨_, hin, hfold⟩⟩
  | freight =>
    have hlt : j.cars * unloadWagePerCar < Count.limit :=
      Nat.lt_of_le_of_lt (Nat.mul_le_mul hcars (by decide)) hwage
    obtain ⟨id, s', hjob⟩ := s.exists_addJob .shuntingUnload s.code j.cars j.cargo
      (j.cars * unloadWagePerCar) (by omega)
    exact ⟨_, _, Faulty.bind_eq_ok_iff.2 ⟨_, Count.mul_eq_ok_iff.2 ⟨hlt, rfl⟩,
      Faulty.bind_eq_ok_iff.2 ⟨_, hjob, rfl⟩⟩⟩
  | shuntingLoad =>
    have hnumber := hnumber s.code
    rcases hp : s.producerOf? j.cargo with _ | p
    · have hroom : ∀ t, net.station? s.code = some t → t.amountOf j.cargo < Count.limit := by
        intro t ht
        have hle := amountOf_le ht j.cargo
        have hamount := net.amountOf_le_totalCars j.cargo
        omega
      obtain ⟨d, net', hdrain⟩ := exists_drainOverflow .none hroom hwage (by omega)
      refine ⟨d, net', ?_⟩
      simp only [hp]
      exact hdrain
    · obtain ⟨d₁, n₁, d₂, n₂, d, net', hfwd, hrep, hdrain⟩ :=
        exists_ship p hf (hcode.symm ▸ hs) hcars hwage hroom hnumber
      refine ⟨d, net', ?_⟩
      simp only [hp]
      exact Faulty.bind_eq_ok_iff.2 ⟨_, hfwd, Faulty.bind_eq_ok_iff.2 ⟨_, hrep, hdrain⟩⟩
  | logistics => exact ⟨_, _, rfl⟩

/-! ## Requests -/

theorem exists_report (hnumbered : net.Numbered) (hf : net.Filed) (r : Revalidation)
    (notified : List StationCode) : ∃ t, net.report r notified = .ok t :=
  Faulty.exists_bind (hnumbered.jobsOf_eq hf _) <| Faulty.exists_bind (hnumbered.jobsOf_eq hf _) <|
    Faulty.exists_bind (hnumbered.jobsOf_eq hf _) ⟨_, rfl⟩

theorem exists_reportMerged (hnumbered : net.Numbered) (hf : net.Filed) (t : Transition)
    (ids : List JobId) : ∃ t', net.reportMerged t ids = .ok t' := by
  induction ids generalizing t with
  | nil => exact ⟨t, rfl⟩
  | cons id ids ih =>
    rw [reportMerged]
    split
    · exact ih t
    · exact Faulty.exists_bind (hnumbered.job?_eq_find? hf id) (ih _)

theorem exists_reserve (hsafe : net.Safe) (hnumbered : net.Numbered) (user : User) (id : JobId) :
    ∃ reply, net.reserve user id = .ok reply := by
  have hjob := hnumbered.job?_eq_find? hsafe.filed id
  rw [reserve]
  rcases hfind : net.jobs.find? (·.id = id) with _ | j <;> rw [hfind] at hjob
  · exact Faulty.exists_bind hjob ⟨_, rfl⟩
  obtain ⟨place, -, -, hmodify, -⟩ := exists_jobAt?_of_job? hjob
  refine Faulty.exists_bind hjob ?_
  simp only
  split
  · exact ⟨_, rfl⟩
  · split
    · exact ⟨_, rfl⟩
    · exact Faulty.exists_bind (hmodify _) ⟨_, rfl⟩

theorem exists_take (hsafe : net.Safe) (hnumbered : net.Numbered) (user : User) (id : JobId) :
    ∃ reply, net.take user id = .ok reply := by
  have hjob := hnumbered.job?_eq_find? hsafe.filed id
  rw [take]
  rcases hfind : net.jobs.find? (·.id = id) with _ | j <;> rw [hfind] at hjob
  · exact Faulty.exists_bind hjob ⟨_, rfl⟩
  obtain ⟨place, hj, -, hmodify, -⟩ := exists_jobAt?_of_job? hjob
  refine Faulty.exists_bind hjob ?_
  simp only
  split
  · exact ⟨_, rfl⟩
  split
  · exact ⟨_, rfl⟩
  split
  · exact ⟨_, rfl⟩
  split
  · exact ⟨_, rfl⟩
  rename_i track _
  -- The ids are still unique when the job has been activated and the tracks re-validated.
  let n := net.modifyJobAt place (·.activate track)
  have hfiled : n.Filed := hsafe.filed.modifyJobAt place _
  have hactivated : n.Numbered := hnumbered.modifyJobAt hj fun _ => rfl
  have hnumbered' := hactivated.upkept hfiled n.revalidate_upkept
  have hfiled' := n.revalidate_upkept.filed hfiled
  refine Faulty.exists_bind (hmodify _) ?_
  obtain ⟨t, ht⟩ := exists_report hnumbered' hfiled' _ _
  refine Faulty.exists_bind ht ?_
  split
  · exact ⟨_, rfl⟩
  · exact Faulty.exists_bind (hnumbered'.job?_eq_find? hfiled' id) ⟨_, rfl⟩

theorem exists_finish (hsafe : net.Safe) (hnumbered : net.Numbered) (user : User) (id : JobId)
    (hdispatch : ∀ place j, net.jobAt? place = some j → j.id = id →
      ∃ d n, (net.removeJobAt place).dispatch j = .ok (d, n)) :
    ∃ reply, net.finish user id = .ok reply := by
  have hjob := hnumbered.job?_eq_find? hsafe.filed id
  rw [finish]
  rcases hfind : net.jobs.find? (·.id = id) with _ | j <;> rw [hfind] at hjob
  · exact Faulty.exists_bind hjob ⟨_, rfl⟩
  obtain ⟨place, hj, hid, -, hremove⟩ := exists_jobAt?_of_job? hjob
  refine Faulty.exists_bind hjob ?_
  simp only
  split
  · exact ⟨_, rfl⟩
  split
  · exact ⟨_, rfl⟩
  obtain ⟨d, n, hd⟩ := hdispatch place j hj hid
  have hremoved := hsafe.removeJobAt hj
  have hcars := (hsafe.fits_of_mem (mem_jobs_of_jobAt? hj)).cars_le
  have hup : (net.removeJobAt place).Upkept n.revalidate.2 :=
    (dispatch_upkeptAt hremoved.filed hcars hd).upkept.trans (revalidate_upkept n)
  have hnumbered' := (hnumbered.removeJobAt hj).upkept hremoved.filed hup
  have hfiled' := hup.filed hremoved.filed
  refine Faulty.exists_bind hremove (Faulty.exists_bind hd ?_)
  obtain ⟨t, ht⟩ := exists_report hnumbered' hfiled' _ _
  refine Faulty.exists_bind ht ?_
  obtain ⟨t', ht'⟩ := exists_reportMerged hnumbered' hfiled' _ _
  exact Faulty.exists_bind ht' (Faulty.exists_bind (hnumbered'.jobsOf_eq hfiled' _) ⟨_, rfl⟩)

/-- A request is answered, unless the cargo of the job that it finishes meets a fault. -/
theorem exists_perform_request (hsafe : net.Safe) (hnumbered : net.Numbered) (action : Action)
    (user : User) (id : JobId)
    (hdispatch : ∀ place j, net.jobAt? place = some j → j.id = id →
      ∃ d n, (net.removeJobAt place).dispatch j = .ok (d, n)) :
    ∃ outcome net', net.perform (.request action user id) = .ok (outcome, net') := by
  cases action with
  | reserve =>
    obtain ⟨reply, hreply⟩ := exists_reserve hsafe hnumbered user id
    exact ⟨_, _, Faulty.bind_eq_ok_iff.2 ⟨reply, hreply, rfl⟩⟩
  | take =>
    obtain ⟨reply, hreply⟩ := exists_take hsafe hnumbered user id
    exact ⟨_, _, Faulty.bind_eq_ok_iff.2 ⟨reply, hreply, rfl⟩⟩
  | finish =>
    obtain ⟨reply, hreply⟩ := exists_finish hsafe hnumbered user id hdispatch
    exact ⟨_, _, Faulty.bind_eq_ok_iff.2 ⟨reply, hreply, rfl⟩⟩

end Network

end RailFreight
