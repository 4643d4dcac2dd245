import RailFreight.Proofs.Continuity
import RailFreight.Proofs.Idempotence
import RailFreight.Proofs.Listings

/-!
# The net effect of a re-validation

In the rounds of a re-validation a job can be spawned, get another proposal, fall back into the
queue and be spawned again. What is reported in the end is told from the tracks that it had before
the first round and those that it has after the last one, wherever the rounds stopped. A job is
looked up by its id for that, which is why ids have to be unique.

Nothing but tracks is changed on the way. Since no job moves within its queue, the jobs before and
after can be paired off in their order, and the report is a selection of these pairs.

* `Job.Retracked`: what a re-validation may do to a job;
* `Network.Later.exists_station?`, `Network.Later.forall₂_jobs`: what visits do to stations and to
  the jobs of the network;
* `Network.moved_eq`: the jobs that are reported are a selection of pairs;
* `Reachable.revalidate_netEffect`: the report, and all that is left alone.
-/

namespace RailFreight

open List (Forall₂)

/-! ## Jobs -/

/-- What a re-validation does to a job: it may get other tracks, unless it is active, and it keeps
    the track that it starts from while it is reserved. -/
structure Job.Retracked (j k : Job) : Prop where
  same : k = { j with originTrack := k.originTrack, proposedTrack := k.proposedTrack }
  active : j.isActive → k = j
  originTrack_eq : j.isReserved → j.isSpawned → k.originTrack = j.originTrack

namespace Job.Retracked

variable {j k l : Job}

theorem refl (j : Job) : j.Retracked j := ⟨rfl, fun _ => rfl, fun _ _ => rfl⟩

theorem trans (h : j.Retracked k) (h' : k.Retracked l) : j.Retracked l where
  same := by rw [h'.same, h.same]
  active ha := by
    have hk := h.active ha
    rw [h'.active (hk ▸ ha), hk]
  originTrack_eq hr hs := by
    have htrack := h.originTrack_eq hr hs
    have hr' : k.isReserved := by
      rw [isReserved, h.same]
      exact hr
    have hs' : k.isSpawned := by
      rw [isSpawned, htrack]
      exact hs
    exact (h'.originTrack_eq hr' hs').trans htrack

theorem id_eq (h : j.Retracked k) : k.id = j.id := by rw [h.same]

/-- Upkeep that fills no loads does no more to a job. -/
theorem of_tended (h : j.Tended False k) : j.Retracked k := by
  have hcars : k.cars = j.cars := by
    by_contra hne
    exact (h.filled hne).1
  refine ⟨?_, h.active, h.originTrack_eq⟩
  rw [h.same, hcars]

end Job.Retracked

namespace Network

variable {net net' : Network} {code : StationCode} {s : Station} {place : Place} {j k : Job}
  {m : Movement}

/-! ## Visits -/

theorem Later.exists_retracked (hl : net.Later net') (hj : net.jobAt? place = some j) :
    ∃ k, net'.jobAt? place = some k ∧ j.Retracked k := by
  induction hl with
  | refl => exact ⟨j, hj, .refl j⟩
  | @tail m _ _ hv ih =>
    obtain ⟨v, rfl⟩ := hv
    obtain ⟨k, hk, hjk⟩ := ih
    refine ⟨_, jobAt?_visit hk v, hjk.trans ?_⟩
    split
    · exact .of_tended (Job.tended_after m k)
    · exact .refl k

/-- Visits change the tracks of the jobs in the queue of a station, and nothing else there. -/
theorem Later.exists_station? (hl : net.Later net') (hs : net.station? code = some s) :
    ∃ queue, net'.station? code = some { s with queue } ∧ Forall₂ Job.Retracked s.queue queue := by
  have hsame := hl.alike.untracked_eq code
  rw [hs, Option.map_some] at hsame
  obtain ⟨s', hs', hu⟩ := Option.map_eq_some_iff.1 hsame
  have hqueue : s' = { s with queue := s'.queue } := by
    cases s
    cases s'
    simp_all [Station.untracked]
  have hlength : s.queue.length = s'.queue.length := by
    have hmap := congrArg (List.length ∘ Station.queue) hu
    simpa [Station.untracked] using hmap.symm
  refine ⟨s'.queue, hqueue ▸ hs', List.forall₂_iff_get.2 ⟨hlength, fun i hi hi' => ?_⟩⟩
  have hj : net.jobAt? (code, i) = some s.queue[i] :=
    jobAt?_eq_some_iff.2 ⟨s, hs, List.getElem?_eq_getElem hi⟩
  obtain ⟨k, hk, hjk⟩ := hl.exists_retracked hj
  obtain ⟨t, ht, hk⟩ := jobAt?_eq_some_iff.1 hk
  cases hs'.symm.trans ht
  cases (List.getElem?_eq_getElem hi').symm.trans hk
  exact hjk

/-- Visits change the tracks of the jobs of a network, and leave them in their order. -/
theorem Later.forall₂_jobs (hl : net.Later net') : Forall₂ Job.Retracked net.jobs net'.jobs := by
  have hplaces : Forall₂ (fun a b => ∀ j, a = some j → ∃ k, b = some k ∧ j.Retracked k)
      (net.places.map net.jobAt?) (net.places.map net'.jobAt?) := by
    rw [List.forall₂_map_left_iff, List.forall₂_map_right_iff, List.forall₂_same]
    exact fun place _ j hj => hl.exists_retracked hj
  rw [← hl.alike.places_eq, ← jobs_map_some, hl.alike.places_eq, ← jobs_map_some,
    List.forall₂_map_left_iff, List.forall₂_map_right_iff] at hplaces
  refine hplaces.imp fun j k h => ?_
  obtain ⟨_, hk, hjk⟩ := h j rfl
  rwa [Option.some.inj hk]

/-! ## Reports -/

theorem between?_eq_spawned_iff :
    Movement.between? j k = some .spawned ↔ !j.isSpawned && k.isSpawned := by
  rw [Movement.between?]
  cases j.isSpawned <;> cases k.isSpawned <;> simp

theorem between?_eq_despawned_iff :
    Movement.between? j k = some .despawned ↔ j.isSpawned && !k.isSpawned := by
  rw [Movement.between?]
  cases j.isSpawned <;> cases k.isSpawned <;> simp

theorem between?_eq_retargeted_iff :
    Movement.between? j k = some .retargeted ↔ j.isSpawned && k.isSpawned &&
      (j.originTrack ≠ k.originTrack || j.proposedTrack ≠ k.proposedTrack) := by
  rw [Movement.between?]
  cases j.isSpawned <;> cases k.isSpawned <;> simp
  exact imp_iff_not_or

/-- The jobs that are reported are a selection of pairs of a job before and after, since the look-up
    by the id finds the one that the job is paired with. -/
theorem moved_eq {jobs before after : List Job} (h : Forall₂ Job.Retracked before after)
    (hfind : ∀ j ∈ before, jobs.find? (·.id = j.id) = some j) {p : Job × Job → Bool}
    (hp : ∀ j k, Movement.between? j k = some m ↔ p (j, k)) :
    moved jobs after m = ((before.zip after).filter p).map (·.2.id) := by
  induction h with
  | nil => rfl
  | @cons j k before after hjk _ ih =>
    obtain ⟨hj, hfind⟩ := List.forall_mem_cons.1 hfind
    have hmoved : movement? jobs k = Movement.between? j k := by
      rw [movement?, hjk.id_eq, hj, Option.bind_some]
    have hrest := ih hfind
    rw [moved] at hrest ⊢
    rw [List.zip_cons_cons, List.filter_cons, List.filter_cons, hmoved]
    simp only [decide_eq_true_eq, hp]
    split
    · rw [List.map_cons, List.map_cons, hrest]
    · exact hrest

/-- A job is reported for the way in which it moved. -/
theorem mem_moved_iff {jobs : List Job} (hnumbered : net.Numbered) (hk : k ∈ net.jobs) :
    k.id ∈ moved jobs net.jobs m ↔ movement? jobs k = some m := by
  simp only [moved, List.mem_map, List.mem_filter, decide_eq_true_eq]
  constructor
  · rintro ⟨l, ⟨hl, hm⟩, hid⟩
    rwa [← hnumbered.eq_of_id hl hk hid]
  · exact fun hm => ⟨k, ⟨hk, hm⟩, rfl⟩

theorem nodup_moved (hnumbered : net.Numbered) (jobs : List Job) :
    (moved jobs net.jobs .spawned ++ moved jobs net.jobs .despawned ++
      moved jobs net.jobs .retargeted).Nodup := by
  have hone : ∀ m, (moved jobs net.jobs m).Nodup := fun m =>
    (List.filter_sublist.map Job.id).nodup hnumbered.nodup
  have hdisjoint : ∀ {m m'}, m ≠ m' →
      List.Disjoint (moved jobs net.jobs m) (moved jobs net.jobs m') := by
    intro m m' hne id hm hm'
    obtain ⟨k, hk, rfl⟩ := List.mem_map.1 hm
    have hk := List.mem_of_mem_filter hk
    exact hne (Option.some.inj
      (((mem_moved_iff hnumbered hk).1 hm).symm.trans ((mem_moved_iff hnumbered hk).1 hm')))
  refine List.nodup_append'.2 ⟨List.nodup_append'.2 ⟨hone _, hone _, hdisjoint nofun⟩, hone _, ?_⟩
  exact List.disjoint_append_left.2 ⟨hdisjoint nofun, hdisjoint nofun⟩

/-- What a re-validation reports, told from the jobs before and after it. -/
theorem revalidate_fst (net : Network) : net.revalidate.1 = {
    spawned := moved net.jobs net.revalidate.2.jobs .spawned
    despawned := moved net.jobs net.revalidate.2.jobs .despawned
    retargeted := moved net.jobs net.revalidate.2.jobs .retargeted
    stations := sortedUnique ((net.revalidate.2.jobs.filter
      fun j => (movement? net.jobs j).isSome).map Job.origin)
    rounds := (net.rounds (net.jobCount + 2)).1 } := by
  rw [revalidate]

/-- The stations of a report are those that the jobs in it start from. -/
theorem mem_stations_iff (hnumbered : net.revalidate.2.Numbered) :
    code ∈ net.revalidate.1.stations ↔ ∃ k ∈ net.revalidate.2.jobs, k.origin = code ∧
      k.id ∈ net.revalidate.1.spawned ++ net.revalidate.1.despawned ++
        net.revalidate.1.retargeted := by
  have hreported : ∀ k ∈ net.revalidate.2.jobs, (movement? net.jobs k).isSome ↔
      k.id ∈ net.revalidate.1.spawned ++ net.revalidate.1.despawned ++
        net.revalidate.1.retargeted := by
    intro k hk
    rw [revalidate_fst, List.mem_append, List.mem_append]
    rw [mem_moved_iff hnumbered hk, mem_moved_iff hnumbered hk, mem_moved_iff hnumbered hk]
    rcases movement? net.jobs k with _ | m
    · simp
    · cases m <;> simp
  have hstations : code ∈ net.revalidate.1.stations ↔ ∃ k ∈ net.revalidate.2.jobs.filter
      fun k => (movement? net.jobs k).isSome, k.origin = code := by
    rw [revalidate_fst, mem_sortedUnique, List.mem_map]
  rw [hstations]
  constructor
  · rintro ⟨k, hk, rfl⟩
    obtain ⟨hk, hmoved⟩ := List.mem_filter.1 hk
    exact ⟨k, hk, rfl, (hreported k hk).1 hmoved⟩
  · rintro ⟨k, hk, rfl, hid⟩
    exact ⟨k, List.mem_filter.2 ⟨hk, (hreported k hk).2 hid⟩, rfl⟩

/-- The networks differ in the tracks of jobs alone, and `r` is what a report has to say of it. -/
structure NetEffect (net : Network) (r : Revalidation) (net' : Network) : Prop where
  /-- The jobs before and after are paired off in their order. -/
  jobs : Forall₂ Job.Retracked net.jobs net'.jobs
  spawned_eq : r.spawned = ((net.jobs.zip net'.jobs).filter fun (j, k) =>
    !j.isSpawned && k.isSpawned).map (·.2.id)
  despawned_eq : r.despawned = ((net.jobs.zip net'.jobs).filter fun (j, k) =>
    j.isSpawned && !k.isSpawned).map (·.2.id)
  retargeted_eq : r.retargeted = ((net.jobs.zip net'.jobs).filter fun (j, k) =>
    j.isSpawned && k.isSpawned &&
      (j.originTrack ≠ k.originTrack || j.proposedTrack ≠ k.proposedTrack)).map (·.2.id)
  /-- No job is reported twice. -/
  nodup : (r.spawned ++ r.despawned ++ r.retargeted).Nodup
  mem_stations_iff : ∀ code, code ∈ r.stations ↔ ∃ k ∈ net'.jobs, k.origin = code ∧
    k.id ∈ r.spawned ++ r.despawned ++ r.retargeted
  stations_ascending : r.stations.Pairwise fun a b => rank a < rank b
  keys_eq : net'.stations.keys = net.stations.keys
  /-- Of a station only the queue differs, and that in the tracks of its jobs. -/
  station : ∀ code s, net.station? code = some s →
    ∃ queue, net'.station? code = some { s with queue } ∧ Forall₂ Job.Retracked s.queue queue
  config_eq : net'.config = net.config
  generator_eq : net'.generator = net.generator

end Network

/-- A re-validation of a reachable network reports its net effect, however many rounds it took and
    whether or not they settled, and changes nothing but the tracks of jobs. -/
theorem Reachable.revalidate_netEffect {config : Config} {net : Network}
    (h : Reachable config net) : net.NetEffect net.revalidate.1 net.revalidate.2 := by
  have hlater := net.revalidate_later
  have hnumbered := h.numbered.upkept h.safe.filed (Network.revalidate_upkept net)
  have hjobs := hlater.forall₂_jobs
  have hfind := fun j => h.numbered.find?_id (j := j)
  exact {
    jobs := hjobs
    spawned_eq := by
      simp only [net.revalidate_fst]
      exact Network.moved_eq hjobs hfind fun _ _ => Network.between?_eq_spawned_iff
    despawned_eq := by
      simp only [net.revalidate_fst]
      exact Network.moved_eq hjobs hfind fun _ _ => Network.between?_eq_despawned_iff
    retargeted_eq := by
      simp only [net.revalidate_fst]
      exact Network.moved_eq hjobs hfind fun _ _ => Network.between?_eq_retargeted_iff
    nodup := by
      simp only [net.revalidate_fst]
      exact Network.nodup_moved hnumbered net.jobs
    mem_stations_iff := fun _ => Network.mem_stations_iff hnumbered
    stations_ascending := by
      simp only [net.revalidate_fst]
      exact sortedUnique_ascending _
    keys_eq := (Network.revalidate_upkept net).keys_eq
    station := fun _ _ hs => hlater.exists_station? hs
    config_eq := hlater.alike.config_eq
    generator_eq := hlater.alike.generator_eq }

/-- The rounds of the three jobs that run in a circle are cut off at their bound. Two jobs are
    spawned then that were not before, and that is what is reported. -/
theorem circularRun_revalidate_netEffect :
    ∃ net, (Network.empty {}).performAll circularRun = .ok net ∧ Reachable {} net ∧
      net.revalidate.1.rounds = net.jobCount + 2 ∧ ¬ net.revalidate.2.Settled ∧
      net.revalidate.1.spawned = [.of .csw .shuntingLoad 2, .of .cm .shuntingUnload 1] ∧
      net.NetEffect net.revalidate.1 net.revalidate.2 := by
  obtain ⟨net, hrun, hreachable, h⟩ := exists_reachable {} circularRun
    (fun net => net.revalidate.1.rounds = net.jobCount + 2 ∧ ¬ net.revalidate.2.Settled ∧
      net.revalidate.1.spawned = [.of .csw .shuntingLoad 2, .of .cm .shuntingUnload 1])
    (by decide +kernel)
  obtain ⟨hrounds, hunsettled, hspawned⟩ := of_decide_eq_true h
  exact ⟨net, hrun, hreachable, hrounds, hunsettled, hspawned, hreachable.revalidate_netEffect⟩

end RailFreight
