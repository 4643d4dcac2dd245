import RailFreight.Network.Revalidation
import Mathlib.Data.List.Nodup

/-!
# Places of jobs

A network read as a list of *places*: the queue of a station and a position in it. Every
change of a job is a change at a place, and it leaves all other places alone.

* `Network.jobs_map_some`: the jobs of a network are what stands at its places, in order;
* `Network.jobAt?_modifyJobAt`: a change at a place is seen at that place only;
* `Network.exists_jobs_eq`, `Network.exists_jobs_eq_of_jobAt?`: the jobs before and behind
  a station or a place stay where they are when it is changed.
-/

namespace RailFreight

/-- What a change keeps of every element, changing one element keeps of the list. -/
theorem map_modify_of_forall {α β : Type} {f : α → α} {g : α → β} (hg : ∀ x, g (f x) = g x)
    (xs : List α) (i : Nat) : (xs.modify i f).map g = xs.map g := by
  ext1 k
  rw [List.getElem?_map, List.getElem?_map, List.getElem?_modify]
  split
  · cases xs[k]? with
    | none => rfl
    | some x => exact congrArg some (hg x)
  · cases xs[k]? <;> rfl

/-- A job that is found by an id is one of the list, and has that id. -/
theorem Job.of_find?_id {jobs : List Job} {id : JobId} {j : Job}
    (h : jobs.find? (·.id = id) = some j) : j ∈ jobs ∧ j.id = id := by
  have hid := List.find?_some h
  exact ⟨List.mem_of_find?_eq_some h, of_decide_eq_true hid⟩

theorem rank_eq_rank_iff {κ : Type} [Ranked κ] {a b : κ} : rank a = rank b ↔ a = b :=
  ⟨rank_injective, congrArg rank⟩

namespace Table

variable {κ ν : Type} [Ranked κ]

/-- The entry of a key splits the table; a change of its value stays between the parts. -/
theorem exists_entries_eq {t : Table κ ν} {k : κ} {v : ν} (h : t.get? k = some v) :
    ∃ before after, t.entries = before ++ (k, v) :: after ∧
      ∀ f, (t.modify k f).entries = before ++ (k, f v) :: after := by
  obtain ⟨before, after, he⟩ := List.append_of_mem (mem_entries_iff.2 h)
  refine ⟨before, after, he, fun f => ?_⟩
  have hasc := t.ascending
  rw [Ascending, he, List.pairwise_append, List.pairwise_cons] at hasc
  obtain ⟨-, ⟨hafter, -⟩, hbefore⟩ := hasc
  -- The keys ascend, so the key stands in neither part.
  have hb : ∀ e ∈ before, rank e.1 ≠ rank k := fun e hm =>
    Nat.ne_of_lt (hbefore e hm (k, v) List.mem_cons_self)
  have ha : ∀ e ∈ after, rank e.1 ≠ rank k := fun e hm => Nat.ne_of_gt (hafter e hm)
  show t.entries.map _ = _
  rw [he, List.map_append, List.map_cons, if_pos rfl,
    List.map_congr_left fun e hm => if_neg (hb e hm),
    List.map_congr_left fun e hm => if_neg (ha e hm), List.map_id', List.map_id']

/-- A value that is put under a key stands in place of what the key had, if anything. -/
theorem exists_entries_insert_eq (t : Table κ ν) (k : κ) (v : ν) :
    ∃ before replaced after, t.entries = before ++ replaced ++ after ∧
      (t.insert k v).entries = before ++ (k, v) :: after ∧ ∀ e ∈ replaced, rank e.1 = rank k := by
  show ∃ before replaced after, t.entries = before ++ replaced ++ after ∧
    insertEntry k v t.entries = before ++ (k, v) :: after ∧ ∀ e ∈ replaced, rank e.1 = rank k
  -- Follow `insertEntry`: it stops at the first key that is not below the new one.
  induction t.entries with
  | nil => exact ⟨[], [], [], rfl, rfl, by simp⟩
  | cons e rest ih =>
    rw [insertEntry]
    split
    · exact ⟨[], [], e :: rest, rfl, rfl, by simp⟩
    · split
      · rename_i hk
        exact ⟨[], [e], rest, rfl, rfl, by simp [hk]⟩
      · obtain ⟨before, replaced, after, he, hi, hr⟩ := ih
        exact ⟨e :: before, replaced, after, by rw [he]; rfl, by rw [hi]; rfl, hr⟩

/-- A value that is put under a key that has none stands between what was there. -/
theorem exists_entries_insert_eq_of_none {t : Table κ ν} {k : κ} (h : t.get? k = none) (v : ν) :
    ∃ before after, t.entries = before ++ after ∧
      (t.insert k v).entries = before ++ (k, v) :: after := by
  obtain ⟨before, replaced, after, he, hi, hr⟩ := t.exists_entries_insert_eq k v
  -- What is replaced would stand under the key, where nothing stood.
  have hnone : replaced = [] := by
    refine List.eq_nil_iff_forall_not_mem.2 fun ⟨j, w⟩ hm => ?_
    have hget : t.get? k = some w := by
      rw [← rank_injective (hr (j, w) hm)]
      refine mem_entries_iff.1 ?_
      rw [he]
      exact List.mem_append_left _ (List.mem_append_right _ hm)
    exact absurd (h.symm.trans hget) nofun
  rw [hnone, List.append_nil] at he
  exact ⟨before, after, he, hi⟩

/-- Putting a value under a key that has one is a change of that value. -/
theorem insert_eq_modify {t : Table κ ν} {k : κ} {v : ν} (h : t.get? k = some v) (w : ν) :
    t.insert k w = t.modify k fun _ => w := by
  refine ext_get? fun j => ?_
  rw [get?_insert, get?_modify]
  split
  · rename_i hk
    rw [← rank_eq_rank_iff.1 hk, h, Option.map_some]
  · rfl

theorem modify_modify (t : Table κ ν) (k : κ) (f g : ν → ν) :
    (t.modify k f).modify k g = t.modify k fun v => g (f v) := by
  refine ext_get? fun j => ?_
  simp only [get?_modify]
  split
  · rw [Option.map_map]
    rfl
  · rfl

end Table

namespace Network

variable {net : Network} {code : StationCode} {s : Station}

/-! ## Stations -/

theorem station?_modifyStation (net : Network) (code c : StationCode) (f : Station → Station) :
    (net.modifyStation code f).station? c =
      if code = c then (net.station? c).map f else net.station? c := by
  rw [station?, modifyStation, Table.get?_modify]
  simp only [rank_eq_rank_iff, station?]

theorem station?_modifyStation_self (h : net.station? code = some s) (f : Station → Station) :
    (net.modifyStation code f).station? code = some (f s) := by
  rw [station?_modifyStation, if_pos rfl, h, Option.map_some]

theorem station?_modifyStation_of_ne {c : StationCode} (hc : c ≠ code) (f : Station → Station) :
    (net.modifyStation code f).station? c = net.station? c := by
  rw [station?_modifyStation, if_neg hc.symm]

/-- A station in a changed network is a station as it was, or the changed one. -/
theorem station?_modifyStation_eq_some {c : StationCode} {f : Station → Station} {s' : Station}
    (h : (net.modifyStation code f).station? c = some s') :
    net.station? c = some s' ∨ ∃ s, code = c ∧ net.station? c = some s ∧ s' = f s := by
  rw [station?_modifyStation] at h
  split at h
  · rename_i hc
    obtain ⟨s, hs, rfl⟩ := Option.map_eq_some_iff.1 h
    exact .inr ⟨s, hc, hs, rfl⟩
  · exact .inl h

/-- The queue of the station of that code; it is empty when there is no such station. -/
def queueOf (net : Network) (code : StationCode) : List Job :=
  (net.station? code).elim [] Station.queue

theorem queueOf_of_station? (h : net.station? code = some s) : net.queueOf code = s.queue := by
  rw [queueOf, h, Option.elim_some]

theorem visibleJobs_eq (net : Network) (code : StationCode) (user : Option User) :
    net.visibleJobs code user = (net.queueOf code).filter (shows user) := by
  rw [visibleJobs, queueOf]
  cases net.station? code <;> rfl

/-- Changes that do the same to the station found do the same to the network. -/
theorem modifyStation_congr (h : net.station? code = some s) {f g : Station → Station}
    (hfg : f s = g s) : net.modifyStation code f = net.modifyStation code g := by
  rw [modifyStation, modifyStation, Network.mk.injEq]
  refine ⟨Table.ext_get? fun c => ?_, rfl, rfl⟩
  rw [Table.get?_modify, Table.get?_modify]
  split
  · rename_i hc
    rw [← rank_eq_rank_iff.1 hc, show net.stations.get? code = some s from h,
      Option.map_some, Option.map_some, hfg]
  · rfl

theorem modifyStation_id (net : Network) (code : StationCode) :
    net.modifyStation code id = net := by
  rw [modifyStation, show net.stations.modify code id = net.stations from
    Table.ext_get? fun c => by rw [Table.get?_modify, Option.map_id, id, ite_self]]

theorem station?_putStation (net : Network) (s : Station) (c : StationCode) :
    (net.putStation s).station? c = if s.code = c then some s else net.station? c := by
  rw [station?, putStation, Table.get?_insert]
  simp only [rank_eq_rank_iff, station?]

theorem putStation_eq_modifyStation (h : net.station? s.code = some s₀) :
    net.putStation s = net.modifyStation s.code fun _ => s := by
  rw [putStation, modifyStation, Table.insert_eq_modify h]

theorem mem_stationList_iff :
    s ∈ net.stationList ↔ ∃ code, net.station? code = some s := by
  simp only [stationList, Table.values, List.mem_map, Prod.exists, Table.mem_entries_iff, station?,
    exists_eq_right]

theorem mem_keys_iff : code ∈ net.stations.keys ↔ (net.station? code).isSome := by
  rw [Table.keys, List.mem_map, Option.isSome_iff_exists]
  constructor
  · rintro ⟨⟨_, s⟩, he, rfl⟩
    exact ⟨s, Table.mem_entries_iff.1 he⟩
  · rintro ⟨s, hs⟩
    exact ⟨(code, s), Table.mem_entries_iff.2 hs, rfl⟩

theorem jobs_eq_flatMap (net : Network) :
    net.jobs = net.stations.entries.flatMap fun e => e.2.queue := by
  rw [jobs, stationList, Table.values, List.flatMap_map]

theorem mem_jobs_iff {j : Job} :
    j ∈ net.jobs ↔ ∃ code s, net.station? code = some s ∧ j ∈ s.queue := by
  simp only [jobs, List.mem_flatMap, mem_stationList_iff]
  exact ⟨fun ⟨s, ⟨code, hs⟩, hj⟩ => ⟨code, s, hs, hj⟩, fun ⟨code, s, hs, hj⟩ => ⟨s, ⟨code, hs⟩, hj⟩⟩

theorem mem_jobs_iff_queueOf {j : Job} : j ∈ net.jobs ↔ ∃ code, j ∈ net.queueOf code := by
  rw [mem_jobs_iff]
  constructor
  · rintro ⟨code, s, hs, hj⟩
    exact ⟨code, by rwa [queueOf_of_station? hs]⟩
  · rintro ⟨code, hj⟩
    cases hs : net.station? code with
    | none =>
      rw [queueOf, hs] at hj
      exact absurd hj List.not_mem_nil
    | some s => exact ⟨code, s, hs, queueOf_of_station? hs ▸ hj⟩

/-- The queue of a station stands together among the jobs, and a change of the station
    leaves the jobs on both sides alone. -/
theorem exists_jobs_eq (h : net.station? code = some s) :
    ∃ before after, net.jobs = before ++ s.queue ++ after ∧
      ∀ f, (net.modifyStation code f).jobs = before ++ (f s).queue ++ after := by
  obtain ⟨before, after, he, hm⟩ := Table.exists_entries_eq (t := net.stations) h
  refine ⟨before.flatMap fun e => e.2.queue, after.flatMap fun e => e.2.queue, ?_, fun f => ?_⟩
  · rw [jobs_eq_flatMap, he, List.flatMap_append, List.flatMap_cons, List.append_assoc]
  · rw [jobs_eq_flatMap, modifyStation, hm, List.flatMap_append, List.flatMap_cons,
      List.append_assoc]

/-- A station without jobs takes away the jobs of the station in whose place it is put. -/
theorem jobs_putStation_sublist (hqueue : s.queue = []) :
    (net.putStation s).jobs.Sublist net.jobs := by
  obtain ⟨before, replaced, after, he, hi, -⟩ := net.stations.exists_entries_insert_eq s.code s
  rw [jobs_eq_flatMap, jobs_eq_flatMap, putStation, hi, he]
  simp only [List.flatMap_append, List.flatMap_cons, hqueue, List.nil_append, List.append_assoc]
  exact (List.sublist_append_right _ _).append_left _

/-- A new station without jobs leaves the jobs alone. -/
theorem jobs_putStation (hqueue : s.queue = []) (hnew : net.station? s.code = none) :
    (net.putStation s).jobs = net.jobs := by
  obtain ⟨before, after, he, hi⟩ := Table.exists_entries_insert_eq_of_none hnew s
  rw [jobs_eq_flatMap, jobs_eq_flatMap, putStation, hi, he]
  simp only [List.flatMap_append, List.flatMap_cons, hqueue, List.nil_append]

/-! ## Places -/

theorem jobAt?_eq_some_iff {place : Place} {j : Job} :
    net.jobAt? place = some j ↔
      ∃ s, net.station? place.1 = some s ∧ s.queue[place.2]? = some j := by
  rw [jobAt?, Option.bind_eq_some_iff]

theorem mem_queueOf_iff {j : Job} : j ∈ net.queueOf code ↔ ∃ i, net.jobAt? (code, i) = some j := by
  simp only [jobAt?_eq_some_iff]
  cases hs : net.station? code with
  | none => simp [queueOf, hs]
  | some s => simp [queueOf, hs, List.mem_iff_getElem?]

theorem mem_jobs_of_jobAt? {place : Place} {j : Job} (h : net.jobAt? place = some j) :
    j ∈ net.jobs := by
  obtain ⟨s, hs, hj⟩ := jobAt?_eq_some_iff.1 h
  exact mem_jobs_iff.2 ⟨_, s, hs, List.mem_of_getElem? hj⟩

theorem mem_jobs_iff_jobAt? {j : Job} : j ∈ net.jobs ↔ ∃ place, net.jobAt? place = some j := by
  refine ⟨fun h => ?_, fun ⟨_, h⟩ => mem_jobs_of_jobAt? h⟩
  obtain ⟨code, s, hs, hj⟩ := mem_jobs_iff.1 h
  obtain ⟨i, hi⟩ := List.getElem?_of_mem hj
  exact ⟨(code, i), jobAt?_eq_some_iff.2 ⟨s, hs, hi⟩⟩

/-- A change at a place is seen at that place only. -/
theorem jobAt?_modifyJobAt (net : Network) (place p : Place) (f : Job → Job) :
    (net.modifyJobAt place f).jobAt? p =
      if place = p then (net.jobAt? p).map f else net.jobAt? p := by
  obtain ⟨code, i⟩ := place
  obtain ⟨c, k⟩ := p
  simp only [jobAt?, modifyJobAt, station?_modifyStation]
  by_cases hc : code = c
  · subst hc
    cases hs : net.station? code with
    | none => simp
    | some s => by_cases hi : i = k <;> simp [hi]
  · simp [hc]

/-- A job splits the list of jobs, and what is done at its place in the queue leaves the jobs
    on both sides alone. -/
theorem exists_jobs_eq_of_getElem? {i : Nat} {j : Job} (hs : net.station? code = some s)
    (hj : s.queue[i]? = some j) :
    ∃ before after, net.jobs = before ++ j :: after ∧
      ∀ f xs, (f s).queue = s.queue.take i ++ xs ++ s.queue.drop (i + 1) →
        (net.modifyStation code f).jobs = before ++ xs ++ after := by
  obtain ⟨before, after, hjobs, hmod⟩ := exists_jobs_eq hs
  obtain ⟨hi, rfl⟩ := List.getElem?_eq_some_iff.1 hj
  refine ⟨before ++ s.queue.take i, s.queue.drop (i + 1) ++ after, ?_, fun f xs hf => ?_⟩
  · calc net.jobs = before ++ s.queue ++ after := hjobs
      _ = before ++ (s.queue.take i ++ s.queue.drop i) ++ after := by rw [List.take_append_drop]
      _ = _ := by
        rw [List.drop_eq_getElem_cons hi]
        simp only [List.append_assoc, List.cons_append]
  · rw [hmod, hf]
    simp only [List.append_assoc]

/-- A job splits the list of jobs, and a change of it leaves the jobs on both sides alone. -/
theorem exists_jobs_eq_of_jobAt? {place : Place} {j : Job} (h : net.jobAt? place = some j) :
    ∃ before after, net.jobs = before ++ j :: after ∧
      ∀ f, (net.modifyJobAt place f).jobs = before ++ f j :: after := by
  obtain ⟨s, hs, hj⟩ := jobAt?_eq_some_iff.1 h
  obtain ⟨before, after, hjobs, hmod⟩ := exists_jobs_eq_of_getElem? hs hj
  obtain ⟨hi, rfl⟩ := List.getElem?_eq_some_iff.1 hj
  refine ⟨before, after, hjobs, fun f => ?_⟩
  rw [modifyJobAt, hmod _ [f s.queue[place.2]], List.append_assoc, List.singleton_append]
  rw [List.modify_eq_take_cons_drop hi, List.append_assoc, List.singleton_append]

/-- What the change of a job keeps of it, it keeps of the list of jobs. -/
theorem jobs_map_modifyJobAt {β : Type} {place : Place} {j : Job} {f : Job → Job} {g : Job → β}
    (h : net.jobAt? place = some j) (hg : g (f j) = g j) :
    (net.modifyJobAt place f).jobs.map g = net.jobs.map g := by
  obtain ⟨before, after, hjobs, hmod⟩ := exists_jobs_eq_of_jobAt? h
  rw [hmod, hjobs, List.map_append, List.map_cons, hg, List.map_append, List.map_cons]

/-- A change that leaves the job at the place as it is leaves the network as it is. -/
theorem modifyJobAt_eq_self {place : Place} {j : Job} {f : Job → Job}
    (h : net.jobAt? place = some j) (hf : f j = j) : net.modifyJobAt place f = net := by
  obtain ⟨s, hs, hj⟩ := jobAt?_eq_some_iff.1 h
  have hqueue : s.queue.modify place.2 f = s.queue := by
    ext1 i
    by_cases hi : place.2 = i
    · rw [← hi, List.getElem?_modify_eq, hj, Option.map_eq_map, Option.map_some, hf]
    · rw [List.getElem?_modify_ne _ _ hi]
  rw [modifyJobAt, modifyStation_congr hs (g := id) (by rw [hqueue, id]), modifyStation_id]

/-! ### The list of places -/

theorem places_eq_flatMap (net : Network) :
    net.places = net.stations.entries.flatMap fun e =>
      (List.range e.2.queue.length).map fun i => (e.1, i) := rfl

theorem mem_places_iff {place : Place} :
    place ∈ net.places ↔ ∃ j, net.jobAt? place = some j := by
  obtain ⟨code, i⟩ := place
  simp only [places_eq_flatMap, List.mem_flatMap, List.mem_map, List.mem_range, Prod.mk.injEq,
    jobAt?_eq_some_iff]
  constructor
  · rintro ⟨⟨c, s⟩, he, k, hk, rfl, rfl⟩
    exact ⟨s.queue[k], s, Table.mem_entries_iff.1 he, List.getElem?_eq_getElem hk⟩
  · rintro ⟨j, s, hs, hj⟩
    exact ⟨(code, s), Table.mem_entries_iff.2 hs, i, (List.getElem?_eq_some_iff.1 hj).1, rfl, rfl⟩

/-- No place is listed twice. -/
theorem nodup_places (net : Network) : net.places.Nodup := by
  rw [places_eq_flatMap, List.nodup_flatMap]
  refine ⟨fun e _ => List.nodup_range.map fun _ _ h => (Prod.mk.inj h).2, ?_⟩
  -- Places of different stations differ in the code, for the codes ascend.
  refine net.stations.ascending.imp fun {a b} hab => ?_
  rintro ⟨c, i⟩ ha hb
  obtain ⟨_, _, ha⟩ := List.mem_map.1 ha
  obtain ⟨_, _, hb⟩ := List.mem_map.1 hb
  have hab' : a.1 = b.1 := (Prod.mk.inj ha).1.trans (Prod.mk.inj hb).1.symm
  exact Nat.ne_of_lt hab (congrArg rank hab')

/-- The jobs of a network are what stands at its places, in order. -/
theorem jobs_map_some (net : Network) : net.jobs.map some = net.places.map net.jobAt? := by
  rw [jobs_eq_flatMap, places_eq_flatMap, List.map_flatMap, List.map_flatMap]
  refine List.flatMap_congr fun ⟨code, s⟩ he => ?_
  have hs : net.station? code = some s := Table.mem_entries_iff.1 he
  refine List.ext_getElem (by simp) fun i hi hi' => ?_
  simp only [List.getElem_map, List.getElem_range, jobAt?, hs, Option.bind_some]
  exact (List.getElem?_eq_getElem _).symm

theorem length_places (net : Network) : net.places.length = net.jobCount := by
  have h := congrArg List.length (jobs_map_some net)
  rw [List.length_map, List.length_map] at h
  exact h.symm

end Network

end RailFreight
