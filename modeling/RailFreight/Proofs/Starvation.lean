import RailFreight.Proofs.Loads

/-!
# Starvation

A supply gap is found by looking at the processors alone: some processor of a station needs a
cargo, and none that makes the cargo names the station. In a network that was built and not worked
yet, such a gap is never closed. Freight is bound for a station only if a processor that makes its
cargo names the station, cars are unloaded only from freight, and a buffer gets only what is
unloaded. So however the network is worked, the cargo does not come, and no processor of the station
has more of it than it was added with. One that was added with none of it makes nothing, whatever
else is delivered.

A processor may have some of the cargo in its buffer when it is added, and then a gap does not keep
it from working until that is used up (`stockedMill_produces`).

* `Network.processorsOf`, `Network.dispatch_processorsOf`: only a delivery changes processors;
* `Network.Starves`, `Network.Starves.perform`: what keeps a cargo away from a station, and that
  work on the network keeps it;
* `Run.starves`: a supply gap of a network that was built stays one.
-/

namespace RailFreight

open List (Forall₂)

/-! ## Processors -/

namespace Processor

variable {p q r : Processor} {cargo x : Cargo} {count units : Nat}

/-- What a delivery of the cargo makes of a processor: at most its buffer changes, and of other
    cargo there is not more in it. -/
structure Fed (cargo : Cargo) (p r : Processor) : Prop where
  same : r = { p with buffer := r.buffer }
  buffered_le : ∀ x, x ≠ cargo → r.buffered x ≤ p.buffered x

theorem Fed.refl (cargo : Cargo) (p : Processor) : p.Fed cargo p := ⟨rfl, fun _ _ => Nat.le_refl _⟩

/-- The processor is the same but for its buffer, and has no more of the cargo. -/
structure Unfed (cargo : Cargo) (p r : Processor) : Prop where
  same : r = { p with buffer := r.buffer }
  buffered_le : r.buffered cargo ≤ p.buffered cargo

theorem Unfed.refl (cargo : Cargo) (p : Processor) : p.Unfed cargo p := ⟨rfl, Nat.le_refl _⟩

/-- A delivery of other cargo brings none of the cargo. -/
theorem Unfed.fed (h : p.Unfed x q) (hfed : q.Fed cargo r) (hx : x ≠ cargo) : p.Unfed x r where
  same := by rw [hfed.same, h.same]
  buffered_le := Nat.le_trans (hfed.buffered_le x hx) h.buffered_le

theorem fed_of_tryProduce (hdelivery : p.accumulate cargo count = .ok q)
    (hproduction : q.tryProduce = .ok (units, r)) : p.Fed cargo r := by
  obtain ⟨hq, hdelivered⟩ := accumulate_eq_ok hdelivery
  obtain ⟨-, hr, htaken⟩ := tryProduce_amount hproduction
  refine ⟨by rw [hr, hq], fun x hx => ?_⟩
  have hsame := hdelivered x
  rw [Cargo.only, if_neg hx] at hsame
  have hle := htaken x
  omega

/-- Without a cargo that it needs, a processor makes nothing of a delivery of any other. -/
theorem units_eq_zero (haccepts : p.accepts x) (hnone : p.buffered x = 0) (hx : x ≠ cargo)
    (hdelivery : p.accumulate cargo count = .ok q) (hproduction : q.tryProduce = .ok (units, r)) :
    units = 0 := by
  obtain ⟨hq, hdelivered⟩ := accumulate_eq_ok hdelivery
  obtain ⟨hunits, -⟩ := tryProduce_amount hproduction
  obtain ⟨need, hneed⟩ := Option.isSome_iff_exists.1 haccepts
  have hblueprint : q.blueprint = p.blueprint := by rw [hq]
  have hentry : (x, need) ∈ q.blueprint.entries := by
    rw [hblueprint]
    exact Table.mem_entries_iff.2 hneed
  have hnone' : q.buffered x = 0 := by rw [hdelivered, hnone, Cargo.only, if_neg hx]
  have hle : q.affordable ≤ q.buffered x / perUnit need :=
    List.min?_getD_le_of_mem (List.mem_map_of_mem hentry)
  rw [hnone', Nat.zero_div] at hle
  rw [hunits, Nat.le_zero.1 hle, ite_self]

end Processor

namespace Station

variable {s s' : Station} {cargo : Cargo} {count : Nat}

/-- A delivery feeds one of the processors at most. -/
theorem intake_processors {produced : Option (Cargo × Nat)}
    (h : s.intake cargo count = .ok (produced, s')) :
    Forall₂ (Processor.Fed cargo) s.processors s'.processors := by
  cases takesIn h with
  | lost => exact List.forall₂_same.2 fun p _ => .refl cargo p
  | @accepted i _ _ p _ r hacc hdelivery hproduction =>
    obtain ⟨hp, -⟩ := acceptor?_eq_some hacc
    obtain ⟨hi, rfl⟩ := List.getElem?_eq_some_iff.1 hp
    have hfed := forall₂_replace (Processor.Fed.refl cargo)
      (Processor.fed_of_tryProduce hdelivery hproduction) (s.processors.take i)
      (s.processors.drop (i + 1))
    rw [← List.drop_eq_getElem_cons hi, List.take_append_drop] at hfed
    show Forall₂ _ _ (s.processors.set i r)
    rwa [List.set_eq_take_append_cons_drop, if_pos hi]

theorem fold_processors {ceiling : Nat} {folded : Folded}
    (h : s.fold cargo count ceiling = .ok (folded, s')) : s'.processors = s.processors := by
  cases folds h with
  | merged _ _ _ _ _ hrest =>
    obtain ⟨overflow, rfl⟩ := addOverflow_eq_ok hrest
    rfl
  | created _ _ _ hjob hrest =>
    obtain ⟨overflow, rfl⟩ := addOverflow_eq_ok hrest
    obtain ⟨-, rfl⟩ := addJob_eq_ok hjob
    rfl

end Station

/-- What a job carries, and where to. -/
def Job.errand (j : Job) : JobKind × Cargo × StationCode := (j.kind, j.cargo, j.destination)

/-- The operations that work a network: nothing is added to it or created in it. -/
def Operation.isWork : Operation → Bool
  | revalidate | request .. => true
  | _ => false

namespace Network

variable {net net' : Network} {code c : StationCode} {s : Station} {p : Processor}
  {cargo : Cargo} {cars wage : Nat} {kind : JobKind} {destination : StationCode} {id : JobId}
  {j load : Job} {d d' : Dispatch}

/-- The processors of the station of that code. -/
def processorsOf (net : Network) (code : StationCode) : List Processor :=
  (net.station? code).elim [] Station.processors

theorem processorsOf_of_station? (hs : net.station? code = some s) :
    net.processorsOf code = s.processors := by
  rw [processorsOf, hs, Option.elim_some]

theorem processorsOf_modifyStation {f : Station → Station}
    (hf : ∀ s, net.station? code = some s → (f s).processors = s.processors) (c : StationCode) :
    (net.modifyStation code f).processorsOf c = net.processorsOf c := by
  rw [processorsOf, processorsOf, station?_modifyStation]
  split
  · rename_i hc
    subst hc
    cases hs : net.station? code with
    | none => rfl
    | some s => exact hf s hs
  · rfl

theorem processorsOf_putStation (net : Network) (s : Station) (c : StationCode) :
    (net.putStation s).processorsOf c =
      if s.code = c then s.processors else net.processorsOf c := by
  rw [processorsOf, station?_putStation]
  split <;> rfl

theorem Alike.processorsOf_eq (h : net.Alike net') (code : StationCode) :
    net'.processorsOf code = net.processorsOf code := by
  have hu : ∀ n : Network, n.processorsOf code =
      ((n.station? code).map Station.untracked).elim [] Station.processors := by
    intro n
    rw [processorsOf]
    cases n.station? code <;> rfl
  rw [hu, hu, h.untracked_eq]

theorem createJob_processorsOf
    (h : net.createJob code kind destination cars cargo wage = .ok (id, net')) (c : StationCode) :
    net'.processorsOf c = net.processorsOf c := by
  obtain ⟨s, overflow, hs, -, rfl⟩ := createJob_eq_ok h
  refine processorsOf_modifyStation (fun t ht => ?_) c
  obtain rfl := Option.some.inj (hs.symm.trans ht)
  rfl

theorem seedLoad_processorsOf (h : net.seedLoad code cargo = .ok (id, net')) (c : StationCode) :
    net'.processorsOf c = net.processorsOf c := by
  obtain ⟨generator, cars, wage, -, hjob⟩ := exists_createJob_of_seedLoad h
  exact createJob_processorsOf hjob c

theorem forward_processorsOf (h : net.forward s p load d = .ok (d', net')) (c : StationCode) :
    net'.processorsOf c = net.processorsOf c := by
  rcases forward_eq_ok h with ⟨generator, -, -, rfl⟩ | ⟨target, generator, id, -, -, hjob⟩
  · rfl
  · exact createJob_processorsOf hjob c

theorem replenish_processorsOf (h : net.replenish s p d = .ok (d', net')) (c : StationCode) :
    net'.processorsOf c = net.processorsOf c := by
  rcases replenish_eq_ok h with ⟨-, -, rfl⟩ | ⟨-, id, -, hseed⟩
  · rfl
  · exact seedLoad_processorsOf hseed c

theorem foldAt_processorsOf {count : Nat} (h : net.foldAt s cargo count d = .ok (d', net'))
    (c : StationCode) :
    net'.processorsOf c = if s.code = c then s.processors else net.processorsOf c := by
  obtain ⟨⟨folded, s'⟩, hfold, h⟩ := Faulty.bind_eq_ok_iff.1 h
  cases h
  rw [processorsOf_putStation, (Station.fold_change hfold).code_eq, Station.fold_processors hfold]

theorem drainOverflow_processorsOf (hf : net.Filed)
    (h : net.drainOverflow code cargo d = .ok (d', net')) (c : StationCode) :
    net'.processorsOf c = net.processorsOf c := by
  rcases drainOverflow_eq_ok h with ⟨-, -, rfl⟩ | ⟨s, hs, hdrained⟩
  · rfl
  have hput : (if s.code = c then s.processors else net.processorsOf c) = net.processorsOf c := by
    split
    · rename_i hc
      rw [← hc, hf _ s hs, processorsOf_of_station? hs]
    · rfl
  rcases hdrained with ⟨-, -, rfl⟩ | ⟨-, hfolded⟩
  · exact (processorsOf_putStation net _ c).trans hput
  · exact (foldAt_processorsOf hfolded c).trans hput

/-- When a job is finished, processors change only if it is unloaded: it feeds those at its
    destination. -/
theorem dispatch_processorsOf (hf : net.Filed) (h : net.dispatch j = .ok (d, net'))
    (c : StationCode) :
    net'.processorsOf c = net.processorsOf c ∨ j.kind = .shuntingUnload ∧ c = j.destination ∧
      Forall₂ (Processor.Fed j.cargo) (net.processorsOf c) (net'.processorsOf c) := by
  have hfeed : ∀ {s s' : Station} {produced : Option (Cargo × Nat)},
      net.station? j.destination = some s → j.kind = .shuntingUnload →
      s.intake j.cargo j.cars = .ok (produced, s') →
      net'.processorsOf c = (if s'.code = c then s'.processors else net.processorsOf c) →
      net'.processorsOf c = net.processorsOf c ∨ j.kind = .shuntingUnload ∧ c = j.destination ∧
        Forall₂ (Processor.Fed j.cargo) (net.processorsOf c) (net'.processorsOf c) := by
    intro s s' produced hs hk hin hnext
    have hcode : s'.code = j.destination := by
      obtain ⟨cursor, processors, rfl⟩ := Station.intake_eq_ok hin
      exact hf _ s hs
    rw [hcode] at hnext
    split at hnext
    · rename_i hc
      refine .inr ⟨hk, hc.symm, ?_⟩
      rw [hnext, ← hc, processorsOf_of_station? hs]
      exact Station.intake_processors hin
    · exact .inl hnext
  cases dispatched h with
  | lost | hauled => exact .inl rfl
  | delivered hs hk hin => exact hfeed hs hk hin (processorsOf_putStation ..)
  | produced hs hk hin hfold => exact hfeed hs hk hin (foldAt_processorsOf hfold c)
  | @arrived s s' _ _ hs _ _ hjob =>
    obtain ⟨-, rfl⟩ := Station.addJob_eq_ok hjob
    left
    rw [processorsOf_putStation, hf _ s hs]
    split
    · rename_i hc
      rw [← hc, processorsOf_of_station? hs]
    · rfl
  | stranded _ _ _ hdrain => exact .inl (drainOverflow_processorsOf hf hdrain c)
  | shipped _ _ _ hfwd hrep hdrain =>
    have hup := (forward_upkeptAt hfwd).upkept.trans (replenish_upkeptAt hrep).upkept
    left
    rw [drainOverflow_processorsOf (Upkept.filed hup hf) hdrain, replenish_processorsOf hrep,
      forward_processorsOf hfwd]

/-! ## What jobs carry -/

theorem carries_iff {P : JobKind → Cargo → StationCode → Prop} :
    net.Carries P ↔ ∀ j ∈ net.jobs, P j.kind j.cargo j.destination := by
  refine ⟨fun h j hj => h.of_mem hj, fun h code s hs j hj => h j ?_⟩
  exact mem_jobs_iff.2 ⟨code, s, hs, hj⟩

namespace Carries

variable {P : JobKind → Cargo → StationCode → Prop} {place : Place}

theorem of_errands (h : net.Carries P)
    (herrands : net'.jobs.map Job.errand = net.jobs.map Job.errand) : net'.Carries P := by
  rw [carries_iff] at h ⊢
  intro j hj
  have hmem : j.errand ∈ net.jobs.map Job.errand := herrands ▸ List.mem_map_of_mem hj
  obtain ⟨k, hk, hsame⟩ := List.mem_map.1 hmem
  obtain ⟨hkind, hcargo, hdestination⟩ : k.kind = j.kind ∧ k.cargo = j.cargo ∧
      k.destination = j.destination := by
    simpa only [Job.errand, Prod.mk.injEq] using hsame
  rw [← hkind, ← hcargo, ← hdestination]
  exact h k hk

theorem alike (h : net.Carries P) (halike : net.Alike net') : net'.Carries P := by
  have herrand : Job.errand = Job.errand ∘ Job.untracked := rfl
  refine h.of_errands ?_
  rw [herrand, ← List.map_map, ← List.map_map, halike.jobs_eq]

theorem removeJobAt (h : net.Carries P) (hj : net.jobAt? place = some j) :
    (net.removeJobAt place).Carries P := by
  rw [carries_iff] at h ⊢
  obtain ⟨before, after, hjobs, hremoved⟩ := exists_jobs_eq_of_removeJobAt hj
  rw [hjobs, List.forall_mem_append, List.forall_mem_cons] at h
  rw [hremoved]
  exact List.forall_mem_append.2 ⟨h.1, h.2.2⟩

/-- What a finished job leaves behind: a load goes on as freight to where the first processor that
    makes its cargo sends it, freight is unloaded where it arrives, and all other new jobs are
    loads. -/
theorem dispatch (h : net.Carries P) (hf : net.Filed)
    (hloads : ∀ cargo code, P .shuntingLoad cargo code)
    (hsent : j.kind = .shuntingLoad → ∀ s p, net.station? j.destination = some s →
      s.producerOf? j.cargo = some p → ∀ target ∈ p.destinations, P .freight j.cargo target)
    (hunloaded : j.kind = .freight → P .shuntingUnload j.cargo j.destination)
    (hd : net.dispatch j = .ok (d, net')) : net'.Carries P := by
  have hfed : ∀ {s s' : Station} {produced : Option (Cargo × Nat)},
      net.station? j.destination = some s → s.intake j.cargo j.cars = .ok (produced, s') →
      s'.Carries P := by
    intro s s' produced hs hin
    obtain ⟨cursor, processors, rfl⟩ := Station.intake_eq_ok hin
    exact h _ s hs
  cases dispatched hd with
  | lost | hauled => exact h
  | delivered hs _ hin => exact h.putStation (hfed hs hin)
  | produced hs _ hin hfolded =>
    obtain ⟨⟨folded, t⟩, hfold, hput⟩ := Faulty.bind_eq_ok_iff.1 hfolded
    cases hput
    exact h.putStation (Station.fold_carries hloads (hfed hs hin) hfold)
  | @arrived s _ _ _ hs hk _ hjob =>
    obtain ⟨-, rfl⟩ := Station.addJob_eq_ok hjob
    refine h.putStation (List.forall_mem_append.2 ⟨h _ _ hs, List.forall_mem_singleton.2 ?_⟩)
    exact (hf _ s hs).symm ▸ hunloaded hk
  | stranded _ _ _ hdrain => exact drainOverflow_carries hloads h hdrain
  | shipped hs hk hp hfwd hrep hdrain =>
    exact drainOverflow_carries hloads
      (replenish_carries hloads (forward_carries h (hsent hk _ _ hs hp) hfwd) hrep) hdrain

end Carries

/-! ## Starved stations -/

/-- A job of that kind does not bring the cargo to the station. -/
def Withholds (station : StationCode) (cargo : Cargo) (kind : JobKind) (x : Cargo)
    (destination : StationCode) : Prop :=
  kind = .freight ∨ kind = .shuntingUnload → x = cargo → destination ≠ station

/-- Nothing brings the cargo to the station, no processor sends it there, and the processors of the
    station have no more of it than they started with. -/
structure Starves (net : Network) (station : StationCode) (cargo : Cargo)
    (started : List Processor) : Prop where
  unsupplied : net.Carries (Withholds station cargo)
  unnamed : ∀ code, ∀ p ∈ net.processorsOf code, p.output = cargo → station ∉ p.destinations
  unfed : Forall₂ (Processor.Unfed cargo) started (net.processorsOf station)

namespace Starves

variable {station : StationCode} {user : User} {action : Action} {place : Place}
  {started : List Processor}

/-- Only the errands of the jobs and the processors matter. -/
theorem of_processorsOf (h : net.Starves station cargo started)
    (hcarries : net'.Carries (Withholds station cargo))
    (hprocessors : ∀ code, net'.processorsOf code = net.processorsOf code) :
    net'.Starves station cargo started where
  unsupplied := hcarries
  unnamed code := hprocessors code ▸ h.unnamed code
  unfed := hprocessors station ▸ h.unfed

theorem alike (h : net.Starves station cargo started) (halike : net.Alike net') :
    net'.Starves station cargo started :=
  h.of_processorsOf (h.unsupplied.alike halike) halike.processorsOf_eq

theorem claimed (h : net.Starves station cargo started) (hj : net.jobAt? place = some j)
    (hclaimed : net.Claimed user place j action net') : net'.Starves station cargo started := by
  cases hclaimed with
  | reserve | take =>
    exact h.of_processorsOf (h.unsupplied.of_errands (jobs_map_modifyJobAt hj rfl))
      (processorsOf_modifyStation fun _ _ => rfl)
  | finish =>
    exact h.of_processorsOf (h.unsupplied.removeJobAt hj)
      (processorsOf_modifyStation fun _ _ => rfl)

/-- A finished job does not bring the cargo either: freight goes to stations that are named, and
    what is delivered to the station is other cargo. -/
theorem dispatch (h : net.Starves station cargo started) (hf : net.Filed)
    (hj : Withholds station cargo j.kind j.cargo j.destination)
    (hd : net.dispatch j = .ok (d, net')) : net'.Starves station cargo started where
  unsupplied := by
    refine h.unsupplied.dispatch hf (fun _ _ hk => absurd hk (by decide)) ?_ ?_ hd
    · rintro - s p hs hp target htarget - hcargo rfl
      have hmem : p ∈ net.processorsOf j.destination := by
        rw [processorsOf_of_station? hs]
        exact List.mem_of_find?_eq_some hp
      exact h.unnamed _ p hmem ((Station.output_of_producerOf? hp).trans hcargo) htarget
    · exact fun hk _ => hj (.inl hk)
  unnamed code r hr houtput := by
    rcases dispatch_processorsOf hf hd code with hsame | ⟨-, -, hfed⟩
    · exact h.unnamed code r (hsame ▸ hr) houtput
    · obtain ⟨p, hp, hpr⟩ := exists_of_forall₂_mem hfed hr
      rw [hpr.same] at houtput ⊢
      exact h.unnamed code p hp houtput
  unfed := by
    rcases dispatch_processorsOf hf hd station with hsame | ⟨hk, hstation, hfed⟩
    · exact hsame ▸ h.unfed
    · have hother : cargo ≠ j.cargo := fun hcargo => hj (.inr hk) hcargo.symm hstation.symm
      exact forall₂_trans (fun p q r hpq hqr => hpq.fed hqr hother) h.unfed hfed

/-- Whoever works on the network, the station goes on to starve. -/
theorem perform {op : Operation} {outcome : Outcome} (h : net.Starves station cargo started)
    (hsafe : net.Safe) (hwork : op.isWork) (hp : net.perform op = .ok (outcome, net')) :
    net'.Starves station cargo started := by
  cases op with
  | addStation | addProcessor | createJob => exact absurd hwork nofun
  | revalidate =>
    cases hp
    exact h.alike (revalidate_later net).alike
  | request action user id =>
    cases perform_request hp with
    | refused => exact h
    | @granted place j _ _ _ _ hj _ _ hgranted =>
      cases hgranted with
      | reserve =>
        have hclaimed : net.Claimed user place j .reserve _ := .reserve
        exact h.claimed hj hclaimed
      | take ht =>
        have hclaimed : net.Claimed user place j .take _ := .take ht
        exact (h.claimed hj hclaimed).alike (revalidate_later _).alike
      | finish hd =>
        have hclaimed : net.Claimed user place j .finish _ := .finish
        have hwithheld := h.unsupplied.of_mem (mem_jobs_of_jobAt? hj)
        exact ((h.claimed hj hclaimed).dispatch (hsafe.removeJobAt hj).filed hwithheld hd).alike
          (revalidate_later _).alike

end Starves

end Network

/-! ## Networks that were built -/

section Runs

variable {config : Config} {history : List Event} {net net' : Network} {ops : List Operation}
  {station : StationCode} {cargo : Cargo} {started : List Processor}

/-- A station with a supply gap starves from the start. -/
theorem Run.starves_of_mem_supplyGaps (h : Run Builds config history net)
    (hgap : ⟨station, cargo⟩ ∈ net.supplyGaps) :
    net.Starves station cargo (net.processorsOf station) := by
  obtain ⟨hloads, -⟩ := h.built
  obtain ⟨-, hunnamed⟩ := Network.mem_supplyGaps_iff.1 hgap
  refine ⟨fun code s hs j hj hk => ?_, fun code p hp => ?_,
    List.forall₂_same.2 fun p _ => .refl cargo p⟩
  · rw [hloads code s hs j hj] at hk
    exact absurd hk (by decide)
  · cases hs : net.station? code with
    | none =>
      rw [Network.processorsOf, hs] at hp
      exact absurd hp List.not_mem_nil
    | some s =>
      rw [Network.processorsOf_of_station? hs] at hp
      exact hunnamed s (Network.mem_stationList_iff.2 ⟨code, hs⟩) p hp

/-- Work on a network does not end starvation. -/
theorem Network.Starves.performAll (h : net.Starves station cargo started)
    (hreachable : Reachable config net) (hwork : ∀ op ∈ ops, op.isWork)
    (hops : net.performAll ops = .ok net') : net'.Starves station cargo started := by
  induction ops generalizing net with
  | nil =>
    cases hops
    exact h
  | cons op ops ih =>
    rw [Network.performAll, List.foldlM_cons] at hops
    obtain ⟨n, hop, hops⟩ := Faulty.bind_eq_ok_iff.1 hops
    obtain ⟨⟨outcome, n'⟩, hp, hn⟩ := Faulty.bind_eq_ok_iff.1 hop
    cases hn
    obtain ⟨hfirst, hrest⟩ := List.forall_mem_cons.1 hwork
    exact ih (h.perform hreachable.safe hfirst hp) (hreachable.step hp) hrest hops

/-- A supply gap of a network that was built means starvation. However the network is worked
    afterwards, no job brings the cargo to the station, and no processor there has more of it than
    it had when the network was built. One that had none of it then has none of it ever, and if it
    needs the cargo it makes no unit of whatever is delivered to it. -/
theorem Run.starves {built : Network} (h : Run Builds config history built)
    (hgap : ⟨station, cargo⟩ ∈ built.supplyGaps) (hwork : ∀ op ∈ ops, op.isWork)
    (hops : built.performAll ops = .ok net) :
    (∀ j ∈ net.jobs, j.kind = .freight ∨ j.kind = .shuntingUnload → j.cargo = cargo →
      j.destination ≠ station) ∧
    Forall₂ (fun p r =>
        r = { p with buffer := r.buffer } ∧ r.buffered cargo ≤ p.buffered cargo ∧
        (p.buffered cargo = 0 → r.buffered cargo = 0 ∧
          (r.accepts cargo → ∀ j ∈ net.jobs, j.kind = .shuntingUnload → j.destination = station →
            ∀ q units r', r.accumulate j.cargo j.cars = .ok q → q.tryProduce = .ok (units, r') →
              units = 0)))
      (built.processorsOf station) (net.processorsOf station) := by
  have hstarves := (h.starves_of_mem_supplyGaps hgap).performAll h.reachable hwork hops
  have hwithheld := Network.carries_iff.1 hstarves.unsupplied
  refine ⟨hwithheld, hstarves.unfed.imp fun p r hpr => ⟨hpr.same, hpr.buffered_le, fun hp => ?_⟩⟩
  have hnone : r.buffered cargo = 0 := Nat.le_zero.1 (hp ▸ hpr.buffered_le)
  refine ⟨hnone, fun haccepts j hj hk hdestination q units r' hdelivery hproduction => ?_⟩
  have hother : cargo ≠ j.cargo := fun hcargo =>
    hwithheld j hj (.inr hk) hcargo.symm hdestination
  exact Processor.units_eq_zero haccepts hnone hother hdelivery hproduction

/-- What a mill needs that makes steel of coal and ore. -/
def millNeeds : Stock := Table.ofList [(.coal, 1), (.ironOre, 2)]

theorem builds_mineBuild (mill : Processor) : ∀ op ∈ mineBuild mill, ∀ n, Builds n op := by
  intro op hop n
  simp only [mineBuild, List.mem_cons, List.not_mem_nil, or_false] at hop
  rcases hop with rfl | rfl | rfl | rfl <;> trivial

/-- A mill that needs ore besides coal gets coal only, and keeps it. -/
theorem millWork_starves :
    ∃ history built net p r, Run Builds {} history built ∧
      ⟨.sm, .ironOre⟩ ∈ built.supplyGaps ∧ built.performAll millWork = .ok net ∧
      built.processorsOf .sm = [p] ∧ net.processorsOf .sm = [r] ∧ p.buffered .ironOre = 0 ∧
      r.accepts .ironOre ∧ r.buffered .coal = 2 ∧
      (∀ j ∈ net.jobs, j.kind = .freight ∨ j.kind = .shuntingUnload → j.cargo = .ironOre →
        j.destination ≠ .sm) ∧
      r.buffered .ironOre = 0 ∧
      ∀ j ∈ net.jobs, j.kind = .shuntingUnload → j.destination = .sm →
        ∀ q units r', r.accumulate j.cargo j.cars = .ok q → q.tryProduce = .ok (units, r') →
          units = 0 := by
  obtain ⟨built, hbuilt, -, htest⟩ := exists_reachable {}
    (mineBuild (.ofBlueprint millNeeds .steelSlabs []))
    (fun built => ⟨.sm, .ironOre⟩ ∈ built.supplyGaps ∧
      (built.processorsOf .sm).map (·.buffered .ironOre) = [0] ∧
      (built.performAll millWork).toOption.any fun net =>
        (net.processorsOf .sm).map (fun r => (r.accepts .ironOre, r.buffered .coal)) =
          [(true, 2)]) (by decide +kernel)
  obtain ⟨hgap, hbefore, htest⟩ := of_decide_eq_true htest
  obtain ⟨history, -, hrun⟩ := Run.start.performAll (builds_mineBuild _) hbuilt
  cases hnet : built.performAll millWork with
  | error fault => simp [hnet, Except.toOption] at htest
  | ok net =>
    rw [hnet] at htest
    obtain ⟨r, hr, hafter⟩ := List.map_eq_singleton_iff.1 (of_decide_eq_true htest)
    obtain ⟨haccepts, hcoal⟩ := Prod.mk.inj hafter
    obtain ⟨p, hp, hore⟩ := List.map_eq_singleton_iff.1 hbefore
    obtain ⟨hjobs, hprocessors⟩ := hrun.starves hgap (by decide +kernel) hnet
    rw [hp, hr] at hprocessors
    obtain ⟨⟨-, -, hnone⟩, -⟩ := List.forall₂_cons.1 hprocessors
    obtain ⟨hnone, hunits⟩ := hnone hore
    exact ⟨_, built, net, p, r, hrun, hgap, hnet, hp, hr, hore, haccepts, hcoal, hjobs, hnone,
      hunits haccepts⟩

/-- A mill that was given some ore. -/
def stockedMill : Processor :=
  { Processor.ofBlueprint millNeeds .steelSlabs [] with buffer := Table.ofList [(.ironOre, 4)] }

/-- A mill is given ore before it is added to a station, and nothing ships ore there. This is a
    supply gap, and still the mill has ore and makes steel of it once coal comes. -/
theorem stockedMill_produces :
    (Processor.ofBlueprint millNeeds .steelSlabs []).accumulate .ironOre 4 = .ok stockedMill ∧
    ∃ history built net, Run Builds {} history built ∧ ⟨.sm, .ironOre⟩ ∈ built.supplyGaps ∧
      (∀ op ∈ millWork.dropLast, op.isWork) ∧ built.performAll millWork.dropLast = .ok net ∧
      ∃ r ∈ net.processorsOf .sm, r.buffered .ironOre = 4 ∧ r.accepts .ironOre ∧
        r.isGenerative = false ∧
        ∃ j ∈ net.jobs, j.kind = .shuntingUnload ∧ j.destination = .sm ∧
          ∃ r', (r.accumulate j.cargo j.cars >>= Processor.tryProduce) = .ok (2, r') := by
  refine ⟨by decide +kernel, ?_⟩
  obtain ⟨built, hbuilt, -, htest⟩ := exists_reachable {} (mineBuild stockedMill)
    (fun built => ⟨.sm, .ironOre⟩ ∈ built.supplyGaps ∧
      (built.performAll millWork.dropLast).toOption.any fun net =>
        (net.processorsOf .sm).any fun r => r.buffered .ironOre = 4 ∧ r.accepts .ironOre ∧
          r.isGenerative = false ∧
          net.jobs.any fun j => j.kind = .shuntingUnload ∧ j.destination = .sm ∧
            (r.accumulate j.cargo j.cars >>= Processor.tryProduce).toOption.any (·.1 = 2))
    (by decide +kernel)
  obtain ⟨hgap, htest⟩ := of_decide_eq_true htest
  obtain ⟨history, -, hrun⟩ := Run.start.performAll (builds_mineBuild _) hbuilt
  cases hnet : built.performAll millWork.dropLast with
  | error fault => simp [hnet, Except.toOption] at htest
  | ok net =>
    rw [hnet] at htest
    obtain ⟨r, hr, htest⟩ := List.any_eq_true.1 htest
    obtain ⟨hore, haccepts, hgenerative, htest⟩ := of_decide_eq_true htest
    obtain ⟨j, hj, htest⟩ := List.any_eq_true.1 htest
    obtain ⟨hk, hdestination, htest⟩ := of_decide_eq_true htest
    refine ⟨_, built, net, hrun, hgap, by decide +kernel, hnet, r, hr, hore, haccepts,
      hgenerative, j, hj, hk, hdestination, ?_⟩
    cases hproduction : r.accumulate j.cargo j.cars >>= Processor.tryProduce with
    | error fault => simp [hproduction, Except.toOption] at htest
    | ok result =>
      rw [hproduction] at htest
      exact ⟨result.2, congrArg Except.ok (Prod.ext (of_decide_eq_true htest) rfl)⟩

end Runs

end RailFreight
