import RailFreight.Proofs.Ledger

/-!
# Overflow

Cargo above the ceiling waits at a station until some load of it is finished there, and is folded
into the queue then. It comes there in three ways: with a load that is created too large, with
output that joins a load, and with output that makes a load of its own. In each of them a load of
the cargo is in the queue afterwards. The finish of a load takes one away, but what waits is folded
in right after that, and either joins another load or makes one. So as long as loads run from their
station to itself, cargo never waits in vain.

* `Ledger.Backed`, `Ledger.Turn.backed`: where cargo waits there is a load of it;
* `Station.Topped`: cargo waits for want of room only;
* `Network.finish_topped`: the finish of a load folds in what there is room for;
* `Run.overflow_backed`: cargo that waits has a load whose finish folds it in.
-/

namespace RailFreight

/-! ## Backed ledgers -/

namespace Ledger

variable {code : StationCode} {x : Cargo} {op : Operation} {l l' : Ledger}

/-- Where cargo waits for room, there is a load of it. -/
structure Backed (l : Ledger) : Prop where
  unclaimed_le : l.unclaimed ≤ l.loads
  loads_ne : l.waiting ≠ 0 → l.loads ≠ 0

theorem addLoad_backed (h : l.unclaimed ≤ l.loads) : l.addLoad.Backed :=
  ⟨Nat.succ_le_succ h, fun _ => Nat.succ_ne_zero _⟩

/-- Output joins a load or makes one. -/
theorem fold_backed (h : l.unclaimed ≤ l.loads) (waiting : Nat) : (l.fold waiting).Backed := by
  rw [fold]
  split
  · exact ⟨Nat.succ_le_succ h, fun _ => Nat.succ_ne_zero _⟩
  · rename_i hsome
    refine ⟨h, fun _ => ?_⟩
    show l.loads ≠ 0
    omega

theorem replenish_unclaimed_le (h : l.unclaimed ≤ l.loads) :
    l.replenish.unclaimed ≤ l.replenish.loads := by
  rw [replenish]
  split
  · exact Nat.succ_le_succ h
  · exact h

theorem Backed.addMaker (h : l.Backed) (generative : Bool) : (l.addMaker generative).Backed := by
  cases generative with
  | true => exact addLoad_backed h.unclaimed_le
  | false => exact ⟨h.unclaimed_le, h.loads_ne⟩

/-- Every operation keeps a ledger backed. A load that is finished takes nothing away that cargo
    could wait for in vain, because all that waits is folded in at once. -/
theorem Turn.backed (h : Turn code x op l l') (hl : l.Backed) : l'.Backed := by
  cases h with
  | kept => exact hl
  | replaced => exact ⟨Nat.le_refl 0, absurd rfl⟩
  | equipped => exact hl.addMaker _
  | queued waiting => exact ⟨Nat.succ_le_succ hl.unclaimed_le, fun _ => Nat.succ_ne_zero _⟩
  | claimed unclaimed hle => exact ⟨hle.trans hl.unclaimed_le, hl.loads_ne⟩
  | made waiting => exact fold_backed hl.unclaimed_le waiting
  | shipped loads _ hunclaimed hd =>
    have hle := replenish_unclaimed_le (l := { l with loads }) hunclaimed
    cases hd with
    | dry hdry => exact ⟨hle, fun hwaits => absurd hdry hwaits⟩
    | folded waiting => exact fold_backed hle waiting

end Ledger

/-! ## Room on loads -/

/-- The cargo waits for want of room only: if any of it waits, some load of it that nobody has
    claimed is full. -/
def Station.Topped (s : Station) (cargo : Cargo) (ceiling : Nat) : Prop :=
  s.overflowOf cargo ≠ 0 → ∃ k ∈ s.queue, k.isMergeableLoad cargo ∧ ceiling ≤ k.cars

namespace Station

variable {s s' : Station} {cargo : Cargo} {count ceiling : Nat}

theorem untracked_topped_iff : s.untracked.Topped cargo ceiling ↔ s.Topped cargo ceiling := by
  simp only [Topped, untracked, List.mem_map, exists_exists_and_eq_and]
  rfl

theorem addOverflow_spec (h : s.addOverflow cargo count = .ok s') :
    s'.overflowOf cargo = s.overflowOf cargo + count ∧ s'.queue = s.queue := by
  have hwaiting := congrArg Ledger.waiting (addOverflow_ledger h cargo)
  obtain ⟨overflow, rfl⟩ := addOverflow_eq_ok h
  rw [Cargo.only, if_pos rfl] at hwaiting
  exact ⟨hwaiting, rfl⟩

/-- Output that is folded into a queue fills a load before any of it waits. -/
theorem fold_topped {folded : Folded} (h : s.fold cargo count ceiling = .ok (folded, s'))
    (hnone : s.overflowOf cargo = 0) :
    s'.overflowOf cargo ≤ count ∧ s'.Topped cargo ceiling := by
  cases folds h with
  | @merged before after load cars rest _ _ hload _ hcars hsum hrest =>
    obtain ⟨hwaiting, hqueue⟩ := addOverflow_spec hrest
    have hrest : s'.overflowOf cargo = 0 + rest := hnone ▸ hwaiting
    refine ⟨by omega, fun hwaits => ⟨{ load with cars }, ?_, hload, ?_⟩⟩
    · rw [hqueue]
      exact List.mem_append_right _ List.mem_cons_self
    · show ceiling ≤ cars
      omega
  | @created cars rest wage id _ _ _ hcars hsum hjob hrest =>
    obtain ⟨-, rfl⟩ := addJob_eq_ok hjob
    obtain ⟨hwaiting, hqueue⟩ := addOverflow_spec hrest
    have hrest : s'.overflowOf cargo = 0 + rest := hnone ▸ hwaiting
    refine ⟨by omega, fun hwaits =>
      ⟨Job.queued id .shuntingLoad s.code s.code cars cargo wage, ?_, ?_, ?_⟩⟩
    · rw [hqueue]
      exact List.mem_append_right _ List.mem_cons_self
    · simp [Job.isMergeableLoad, Job.isReserved, Job.isActive, Job.queued]
    · show ceiling ≤ cars
      omega

end Station

namespace Network

variable {net net' : Network} {code : StationCode} {s : Station} {cargo : Cargo} {j : Job}
  {d d' : Dispatch} {user : User}

/-- What waits at a station is folded in as far as there is room. -/
theorem drainOverflow_topped (hf : net.Filed) (hs : net.station? code = some s)
    (h : net.drainOverflow code cargo d = .ok (d', net')) :
    ∃ s', net'.station? code = some s' ∧ s'.overflowOf cargo ≤ s.overflowOf cargo ∧
      s'.Topped cargo net.config.maxCars := by
  have hcode : (s.takeOverflow cargo).2.code = code := hf code s hs
  have htaken : (s.takeOverflow cargo).2.overflowOf cargo = 0 := by
    have hledger := congrArg Ledger.waiting (s.takeOverflow_ledger cargo cargo)
    rwa [if_pos rfl] at hledger
  rcases drainOverflow_eq_ok h with ⟨hnone, -⟩ | ⟨t, ht, hdrained⟩
  · exact absurd (hs.symm.trans hnone) nofun
  obtain rfl := Option.some.inj (hs.symm.trans ht)
  rcases hdrained with ⟨-, -, rfl⟩ | ⟨-, hfolded⟩
  · refine ⟨_, by rw [station?_putStation, if_pos hcode], ?_, fun hwaits => absurd htaken hwaits⟩
    rw [htaken]
    exact Nat.zero_le _
  · obtain ⟨⟨folded, s'⟩, hfold, hput⟩ := Faulty.bind_eq_ok_iff.1 hfolded
    cases hput
    have hcode' := (Station.fold_change hfold).code_eq.trans hcode
    exact ⟨s', by rw [station?_putStation, if_pos hcode'], Station.fold_topped hfold htaken⟩

/-- A load that arrives lets in what waited for room, as far as there is room. -/
theorem dispatch_topped (hf : net.Filed) (hcars : j.cars ≤ net.config.maxCars)
    (hk : j.kind = .shuntingLoad) (hs : net.station? j.destination = some s)
    (h : net.dispatch j = .ok (d, net')) :
    ∃ s', net'.station? j.destination = some s' ∧ s'.overflowOf j.cargo ≤ s.overflowOf j.cargo ∧
      s'.Topped j.cargo net.config.maxCars := by
  cases dispatched h with
  | lost hnone => exact absurd (hs.symm.trans hnone) nofun
  | hauled _ hother | delivered _ hother | produced _ hother | arrived _ hother =>
    exact absurd (hk.symm.trans hother) nofun
  | @stranded t _ _ ht _ _ hdrain =>
    rw [hf _ t ht] at hdrain
    exact drainOverflow_topped hf hs hdrain
  | @shipped t p d₁ d₂ d n₁ n₂ _ ht _ _ hfwd hrep hdrain =>
    obtain rfl := Option.some.inj (hs.symm.trans ht)
    have hup₁ := (forward_upkeptAt hfwd).upkept
    have hup₂ := (replenish_upkeptAt hrep).upkept
    rw [hf _ s hs] at hdrain
    -- What waits is not touched before it is folded in.
    have hwaiting : (n₂.ledger j.destination j.cargo).waiting =
        (net.ledger j.destination j.cargo).waiting := by
      rw [replenish_ledger (hup₁.filed hf) hrep, forward_ledger hcars hfwd]
      split <;> rfl
    have hfound : (n₂.station? j.destination).isSome := by
      rw [← mem_keys_iff, hup₂.keys_eq, hup₁.keys_eq, mem_keys_iff, hs]
      rfl
    obtain ⟨u, hu⟩ := Option.isSome_iff_exists.1 hfound
    rw [ledger_of_station? hu, ledger_of_station? hs] at hwaiting
    obtain ⟨s', hs', hle, htopped⟩ := drainOverflow_topped (hup₂.filed (hup₁.filed hf)) hu hdrain
    rw [hup₂.config_eq, hup₁.config_eq] at htopped
    exact ⟨s', hs', hle.trans (Nat.le_of_eq hwaiting), htopped⟩

theorem Alike.topped (h : net.Alike net') (hs : net.station? code = some s) :
    ∃ s', net'.station? code = some s' ∧ s'.overflowOf cargo = s.overflowOf cargo ∧
      ∀ ceiling, s'.Topped cargo ceiling ↔ s.Topped cargo ceiling := by
  have he := h.untracked_eq code
  rw [hs, Option.map_some] at he
  obtain ⟨s', hs', hu⟩ := Option.map_eq_some_iff.1 he
  refine ⟨s', hs', congrArg (·.overflowOf cargo) hu, fun ceiling => ?_⟩
  rw [← Station.untracked_topped_iff, hu, Station.untracked_topped_iff]

/-- A finish that is granted moves a job. -/
theorem exists_eq_moved_of_isGrant {id : JobId} {outcome : Outcome}
    (hp : net.perform (.request .finish user id) = .ok (outcome, net')) (h : outcome.isGrant) :
    ∃ transition, outcome = .moved transition := by
  obtain ⟨⟨result, n⟩, -, hp⟩ := Faulty.bind_eq_ok_iff.1 hp
  cases result with
  | ok transition =>
    cases hp
    exact ⟨transition, rfl⟩
  | error cause =>
    cases hp
    exact absurd h Bool.false_ne_true

/-- The finish of a load that runs to its own station folds in what waited for room there, as far
    as there is room. -/
theorem finish_topped {transition : Transition} (hsafe : net.Safe) (hnumbered : net.Numbered)
    (hs : net.station? code = some s) (hj : j ∈ s.queue) (hload : j.isLoadOf cargo)
    (hdestination : j.destination = code)
    (hp : net.perform (.request .finish user j.id) = .ok (.moved transition, net')) :
    ∃ s', net'.station? code = some s' ∧ s'.overflowOf cargo ≤ s.overflowOf cargo ∧
      s'.Topped cargo net.config.maxCars := by
  have hmem : j ∈ net.jobs := mem_jobs_iff.2 ⟨code, s, hs, hj⟩
  obtain ⟨hk, rfl⟩ := Job.isLoadOf_iff.1 hload
  subst hdestination
  cases perform_request hp with
  | @granted place k _ _ _ _ hplace hid _ hgranted =>
    obtain rfl := hnumbered.eq_of_id (mem_jobs_of_jobAt? hplace) hmem hid
    cases hgranted with
    | @finish d n hd =>
      have hremoved : ∃ t, (net.removeJobAt place).station? k.destination = some t ∧
          t.overflowOf k.cargo = s.overflowOf k.cargo := by
        rw [removeJobAt, station?_modifyStation, hs]
        split
        · exact ⟨_, rfl, rfl⟩
        · exact ⟨s, rfl, rfl⟩
      obtain ⟨t, ht, hwaiting⟩ := hremoved
      obtain ⟨u, hu, hle, htopped⟩ := dispatch_topped (hsafe.removeJobAt hplace).filed
        (hsafe.fits_of_mem hmem).cars_le hk ht hd
      obtain ⟨s', hs', hsame, hiff⟩ := n.revalidate_later.alike.topped hu
      exact ⟨s', hs', hsame ▸ hle.trans (Nat.le_of_eq hwaiting), (hiff _).2 htopped⟩

/-- A load that is queued at a station runs to it. -/
theorem queueLoad_eq_ok {cars : Nat} {id : JobId}
    (h : net.queueLoad code cargo cars = .ok (id, net')) :
    ∃ op, net.KeepsLoadsHome op ∧ net.perform op = .ok (.jobCreated id, net') := by
  obtain ⟨wage, -, hjob⟩ := Faulty.bind_eq_ok_iff.1 h
  refine ⟨.createJob code .shuntingLoad code cars cargo wage, rfl, ?_⟩
  exact Faulty.bind_eq_ok_iff.2 ⟨_, hjob, rfl⟩

end Network

section Runs

variable {config : Config} {history : List Event} {net net' : Network} {code : StationCode}
  {cargo : Cargo} {s : Station}

/-- A run in which loads run from their station to itself goes on with any number of cars queued
    as a load. -/
theorem Run.queueLoad {cars : Nat} {id : JobId}
    (h : Run Network.KeepsLoadsHome config history net)
    (hqueue : net.queueLoad code cargo cars = .ok (id, net')) :
    ∃ history, Run Network.KeepsLoadsHome config history net' := by
  obtain ⟨op, hallowed, hp⟩ := Network.queueLoad_eq_ok hqueue
  exact ⟨_, h.step hallowed hp⟩

/-- While loads run from their station to itself, and other jobs are created within the ceiling,
    cargo that waits for room at a station has a load there. Every load there runs to the station,
    and its finish folds in all that waits, unless an unclaimed load of the cargo is full then. -/
theorem Run.overflow_backed (h : Run Network.KeepsLoadsHome config history net)
    (hs : net.station? code = some s) :
    (0 < s.overflowOf cargo →
      ∃ j ∈ s.queue, j.kind = .shuntingLoad ∧ j.cargo = cargo ∧ j.destination = code) ∧
    ∀ j ∈ s.queue, j.kind = .shuntingLoad → j.cargo = cargo → j.destination = code ∧
      ∀ user transition net',
        net.perform (.request .finish user j.id) = .ok (.moved transition, net') →
        ∃ s', net'.station? code = some s' ∧ s'.overflowOf cargo ≤ s.overflowOf cargo ∧
          s'.Topped cargo config.maxCars := by
  obtain ⟨hhome, hbacked⟩ := h.ledger (fun _ _ => id) ⟨Nat.le_refl 0, absurd rfl⟩
    (fun _ _ _ _ _ _ _ hturn => hturn.backed) code cargo
  have hsafe := h.reachable.safe
  have hruns : ∀ j ∈ s.queue, j.kind = .shuntingLoad → j.cargo = cargo → j.destination = code := by
    rintro j hj hk rfl
    obtain ⟨i, hi⟩ := List.getElem?_of_mem hj
    have hplace : net.jobAt? (code, i) = some j := Network.jobAt?_eq_some_iff.2 ⟨s, hs, hi⟩
    exact Network.destination_eq_of_strays hsafe.filed hplace hk hhome
  rw [Network.ledger_of_station? hs] at hbacked
  refine ⟨fun hwaits => ?_, fun j hj hk hcargo => ⟨hruns j hj hk hcargo, ?_⟩⟩
  · have hloads := hbacked.loads_ne (Nat.ne_of_gt hwaits)
    obtain ⟨j, hj, hload⟩ := List.countP_pos_iff.1 (Nat.pos_of_ne_zero hloads)
    obtain ⟨hk, hcargo⟩ := Job.isLoadOf_iff.1 hload
    exact ⟨j, hj, hk, hcargo, hruns j hj hk hcargo⟩
  · intro user transition net' hp
    rw [← h.reachable.config_eq]
    exact Network.finish_topped hsafe h.reachable.numbered hs hj (Job.isLoadOf_iff.2 ⟨hk, hcargo⟩)
      (hruns j hj hk hcargo) hp

/-- Of the twenty cars of coal eight wait for room while the load with the others is taken. Its
    finish folds them into the load that the mine brings. -/
theorem shippedRun_overflow_backed :
    ∃ history net s transition net', history.map Event.operation = shippedRun.reverse ∧
      Run Network.KeepsLoadsHome {} history net ∧ net.station? .cm = some s ∧
      s.overflowOf .coal = 8 ∧
      (∃ j ∈ s.queue, j.kind = .shuntingLoad ∧ j.cargo = .coal ∧ j.destination = .cm) ∧
      net.perform shipment = .ok (.moved transition, net') ∧
      ∃ s', net'.station? .cm = some s' ∧ s'.overflowOf .coal ≤ 8 ∧ s'.Topped .coal 12 := by
  obtain ⟨net, outcome, net', hnet, -, hp, htest⟩ := exists_reachable_perform {} shippedRun shipment
    (fun net outcome _ => outcome.isGrant ∧ ∃ s ∈ net.station? .cm,
      s.overflowOf .coal = 8 ∧
      ∃ j ∈ s.queue, j.id = .of .cm .shuntingLoad 2 ∧ j.kind = .shuntingLoad ∧ j.cargo = .coal)
    (by decide +kernel)
  obtain ⟨hgrant, s, hs, hwaiting, j, hj, hid, hk, hcargo⟩ := of_decide_eq_true htest
  have hallowed : ∀ op ∈ shippedRun, ∀ n : Network, n.KeepsLoadsHome op := by
    intro op hop n
    simp only [shippedRun, List.mem_cons, List.not_mem_nil, or_false] at hop
    rcases hop with rfl | rfl | rfl | rfl | rfl | rfl | rfl <;> trivial
  obtain ⟨history, hoperations, hrun⟩ := Run.start.performAll hallowed hnet
  rw [List.append_nil] at hrun
  obtain ⟨hbacked, hfinish⟩ := hrun.overflow_backed hs
  obtain ⟨transition, rfl⟩ := Network.exists_eq_moved_of_isGrant hp hgrant
  obtain ⟨s', hs', hle, htopped⟩ := (hfinish j hj hk hcargo).2 .bob transition net' (hid ▸ hp)
  exact ⟨history, net, s, transition, net', hoperations, hrun, hs, hwaiting,
    hbacked (by rw [hwaiting]; decide), hp, s', hs', hwaiting ▸ hle, htopped⟩

end Runs

end RailFreight
