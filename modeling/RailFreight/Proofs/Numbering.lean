import RailFreight.Proofs.Safety
import Std.Data.String.ToNat
import Mathlib.Data.List.Nodup

/-!
# Numbering of jobs

A station numbers its jobs as it queues them, and an id tells the station, the kind and the
number apart. So a new job gets an id that no job of the network has, and as long as the
station is not replaced, none that it ever gave to a job. With unique ids, a job that is
asked for by its id is found where it stands, and no fault is met on the way.

* `JobId.of_inj`: an id tells its parts;
* `Network.Numbered`: the ids of the jobs are unique, and their numbers have been given out;
* `Network.Numbered.perform`: every operation keeps them so;
* `Network.Numbered.queuedAt_eq`, `Network.Numbered.job?_eq_find?`: a job is found by its id;
* `Network.Issued`: the ids that stations have given out, of which there are more and more.
-/

namespace RailFreight

/-! ## Ids -/

/-- Texts are told apart at the first mark, if both go on behind it. -/
theorem append_cons_inj_of_notMem_left {α : Type} {a : α} {xs xs' ys ys' : List α}
    (hxs : a ∉ xs) (hxs' : a ∉ xs') (h : xs ++ a :: ys = xs' ++ a :: ys') :
    xs = xs' ∧ ys = ys' := by
  induction xs generalizing xs' with
  | nil =>
    cases xs' with
    | nil => exact ⟨rfl, (List.cons.inj h).2⟩
    | cons x xs' => exact absurd ((List.cons.inj h).1 ▸ List.mem_cons_self) hxs'
  | cons x xs ih =>
    cases xs' with
    | nil => exact absurd ((List.cons.inj h).1 ▸ List.mem_cons_self) hxs
    | cons x' xs' =>
      obtain ⟨rfl, htail⟩ := List.cons.inj h
      obtain ⟨rfl, rfl⟩ := ih (List.not_mem_of_not_mem_cons hxs)
        (List.not_mem_of_not_mem_cons hxs') htail
      exact ⟨rfl, rfl⟩

theorem StationCode.notMem_name (s : StationCode) : '-' ∉ s.name.toList := by
  cases s <;> decide

theorem StationCode.name_inj {s s' : StationCode} (h : s.name = s'.name) : s = s' := by
  have hs := s.ofName?_name
  rw [h, s'.ofName?_name] at hs
  exact (Option.some.inj hs).symm

theorem JobKind.notMem_code (k : JobKind) : '-' ∉ k.code.toList := by
  cases k <;> decide

theorem JobKind.code_inj {k k' : JobKind} (h : k.code = k'.code) : k = k' := by
  cases k <;> cases k' <;> first | rfl | exact absurd h (by decide)

/-- An id tells the station, the kind and the number that it is made of. -/
theorem JobId.of_inj {s s' : StationCode} {k k' : JobKind} {n n' : Nat}
    (h : JobId.of s k n = JobId.of s' k' n') : s = s' ∧ k = k' ∧ n = n' := by
  have htext := congrArg String.toList (congrArg JobId.text h)
  simp only [JobId.of, String.toList_append, show "-".toList = ['-'] from rfl, List.append_assoc,
    List.singleton_append] at htext
  obtain ⟨hname, htext⟩ :=
    append_cons_inj_of_notMem_left s.notMem_name s'.notMem_name htext
  obtain ⟨hcode, hnumber⟩ :=
    append_cons_inj_of_notMem_left k.notMem_code k'.notMem_code htext
  exact ⟨StationCode.name_inj (String.toList_inj.1 hname),
    JobKind.code_inj (String.toList_inj.1 hcode), Nat.repr_injective (String.toList_inj.1 hnumber)⟩

/-- A change of a station keeps the ids of its jobs, or adds the next one to them. -/
theorem Station.Change.ids_eq {ceiling : Nat} {s s' : Station} (h : s.Change ceiling s') :
    (s'.nextNumber = s.nextNumber ∧ s'.queue.map Job.id = s.queue.map Job.id) ∨
      ∃ kind, s'.nextNumber = s.nextNumber + 1 ∧
        s'.queue.map Job.id = s.queue.map Job.id ++ [JobId.of s.code kind s.nextNumber] := by
  cases h with
  | kept _ hn hq => exact .inl ⟨hn, by rw [hq]⟩
  | queued kind _ _ _ _ _ hn _ hq =>
    refine .inr ⟨kind, hn, ?_⟩
    rw [hq, List.map_append]
    rfl
  | filled before after load cargo cars _ hn _ _ _ hq hq' =>
    refine .inl ⟨hn, ?_⟩
    rw [hq, hq', List.map_append, List.map_append]
    rfl

namespace Network

variable {net net' : Network} {code : StationCode} {s s' : Station} {place : Place} {j : Job}
  {id : JobId}

/-! ## Unique ids -/

/-- The ids of the jobs in the queue of a station are made with numbers that the station has
    given out, and no two jobs have one id. -/
structure Numbered (net : Network) : Prop where
  given : ∀ code s, net.station? code = some s → ∀ id ∈ s.queue.map Job.id,
    ∃ kind n, n < s.nextNumber ∧ id = JobId.of code kind n
  nodup : (net.jobs.map Job.id).Nodup

/-- A station has given out the number that the id is made with. -/
def Issued (net : Network) (id : JobId) : Prop :=
  ∃ code s kind n, net.station? code = some s ∧ n < s.nextNumber ∧ id = JobId.of code kind n

theorem mem_jobs_map_id_iff :
    id ∈ net.jobs.map Job.id ↔ ∃ code s, net.station? code = some s ∧ id ∈ s.queue.map Job.id := by
  simp only [List.mem_map, mem_jobs_iff]
  constructor
  · rintro ⟨j, ⟨code, s, hs, hj⟩, hid⟩
    exact ⟨code, s, hs, j, hj, hid⟩
  · rintro ⟨code, s, hs, j, hj, hid⟩
    exact ⟨j, ⟨code, s, hs, hj⟩, hid⟩

namespace Numbered

/-- The ids of the jobs have been given out. -/
theorem issued (h : net.Numbered) (hid : id ∈ net.jobs.map Job.id) : net.Issued id := by
  obtain ⟨code, s, hs, hid⟩ := mem_jobs_map_id_iff.1 hid
  obtain ⟨kind, n, hn, rfl⟩ := h.given code s hs id hid
  exact ⟨code, s, kind, n, hs, hn, rfl⟩

/-- A place is known by the id of the job that stands there. -/
theorem place_eq (h : net.Numbered) {p q : Place} {k : Job} (hp : net.jobAt? p = some j)
    (hq : net.jobAt? q = some k) (hid : j.id = k.id) : p = q := by
  have hnodup : (net.places.map fun p => (net.jobAt? p).map Job.id).Nodup := by
    have he : (net.places.map fun p => (net.jobAt? p).map Job.id) =
        (net.jobs.map Job.id).map some := by
      rw [List.map_map, show (some ∘ Job.id) = Option.map Job.id ∘ some from rfl, ← List.map_map,
        jobs_map_some, List.map_map]
      rfl
    rw [he]
    exact h.nodup.map fun _ _ => Option.some.inj
  refine List.inj_on_of_nodup_map hnodup (mem_places_iff.2 ⟨j, hp⟩) (mem_places_iff.2 ⟨k, hq⟩) ?_
  rw [hp, hq, Option.map_some, Option.map_some, hid]

/-- A job is known by its id. -/
theorem eq_of_id (h : net.Numbered) {k : Job} (hj : j ∈ net.jobs) (hk : k ∈ net.jobs)
    (hid : j.id = k.id) : j = k :=
  List.inj_on_of_nodup_map h.nodup hj hk hid

/-- A job is found by its id. -/
theorem find?_id (h : net.Numbered) (hj : j ∈ net.jobs) :
    net.jobs.find? (·.id = j.id) = some j := by
  cases hk : net.jobs.find? (·.id = j.id) with
  | none => exact absurd (decide_eq_true rfl) (List.find?_eq_none.1 hk j hj)
  | some k =>
    obtain ⟨hkmem, hid⟩ := Job.of_find?_id hk
    rw [h.eq_of_id hkmem hj hid]

theorem empty (config : Config) : (Network.empty config).Numbered := by
  constructor
  · intro code s hs
    exact absurd ((Table.get?_empty code).symm.trans hs) nofun
  · exact List.nodup_nil

end Numbered

/-- The number that a station gives out next makes an id that has not been issued. -/
theorem not_issued_of_nextNumber (hs : net.station? code = some s) (kind : JobKind) :
    ¬ net.Issued (JobId.of code kind s.nextNumber) := by
  rintro ⟨c, u, k, n, hu, hn, hid⟩
  obtain ⟨rfl, -, rfl⟩ := JobId.of_inj hid
  cases hs.symm.trans hu
  exact Nat.lt_irrefl _ hn

namespace Numbered

/-! ### What keeps the ids unique -/

/-- The ids stay unique when a job changes in anything else. -/
theorem modifyJobAt {f : Job → Job} (h : net.Numbered) (hj : net.jobAt? place = some j)
    (hid : ∀ k, (f k).id = k.id) : (net.modifyJobAt place f).Numbered := by
  constructor
  · intro c u hu id hmem
    rcases station?_modifyStation_eq_some hu with hu | ⟨v, hc, hv, rfl⟩
    · exact h.given c u hu id hmem
    · rw [map_modify_of_forall hid] at hmem
      exact h.given c v hv id hmem
  · rw [jobs_map_modifyJobAt hj (hid j)]
    exact h.nodup

/-- The ids stay unique when a station changes: a new job gets an id that no other has. -/
theorem modifyStation {ceiling : Nat} (h : net.Numbered) (hf : net.Filed)
    (hs : net.station? code = some s) (hch : s.Change ceiling s') :
    (net.modifyStation code fun _ => s').Numbered := by
  have hcode := hf code s hs
  obtain ⟨before, after, hjobs, hmod⟩ := exists_jobs_eq hs
  have hold := h.nodup
  rw [hjobs] at hold
  constructor
  · intro c u hu id hmem
    rcases station?_modifyStation_eq_some hu with hu | ⟨-, rfl, -, rfl⟩
    · exact h.given c u hu id hmem
    · rcases hch.ids_eq with ⟨hn, hids⟩ | ⟨kind, hn, hids⟩
      · rw [hn]
        exact h.given code s hs id (hids ▸ hmem)
      · rw [hids, List.mem_append, List.mem_singleton] at hmem
        rcases hmem with hmem | rfl
        · obtain ⟨k, n, hlt, hid⟩ := h.given code s hs id hmem
          exact ⟨k, n, by omega, hid⟩
        · exact ⟨kind, s.nextNumber, by omega, by rw [hcode]⟩
  · rw [hmod]
    rcases hch.ids_eq with ⟨-, hids⟩ | ⟨kind, -, hids⟩
    · simpa only [List.map_append, hids] using hold
    · -- The new id has not been issued, so no job has it, here or at another station.
      have hnew : JobId.of s.code kind s.nextNumber ∉ net.jobs.map Job.id := by
        intro hmem
        exact not_issued_of_nextNumber (hcode.symm ▸ hs) kind (h.issued hmem)
      rw [hjobs] at hnew
      simp only [List.map_append] at hold hnew ⊢
      rw [hids, List.append_assoc, List.append_assoc, List.singleton_append, ← List.append_assoc]
      refine List.perm_middle.nodup_iff.2 (List.nodup_cons.2 ⟨?_, hold⟩)
      exact hnew

theorem upkeep (h : net.Numbered) (hf : net.Filed) (hup : net.Upkeep net') : net'.Numbered := by
  cases hup with
  | drawn generator he =>
    subst he
    exact ⟨h.given, h.nodup⟩
  | changed hs hch he =>
    subst he
    exact h.modifyStation hf hs hch
  | assigned hj he =>
    subst he
    exact h.modifyJobAt hj fun k => by cases net.decision _ <;> rfl

theorem upkept (h : net.Numbered) (hf : net.Filed) (hup : net.Upkept net') : net'.Numbered := by
  induction hup with
  | refl => exact h
  | tail hups hup ih => exact ih.upkeep (Upkept.filed hups hf) hup

theorem removeJobAt (h : net.Numbered) (hj : net.jobAt? place = some j) :
    (net.removeJobAt place).Numbered := by
  constructor
  · intro c u hu id hmem
    rcases station?_modifyStation_eq_some hu with hu | ⟨v, -, hv, rfl⟩
    · exact h.given c u hu id hmem
    · exact h.given c v hv id (((List.eraseIdx_sublist _ _).map Job.id).subset hmem)
  · obtain ⟨before, after, hjobs, hremoved⟩ := exists_jobs_eq_of_removeJobAt hj
    have hold := h.nodup
    rw [hjobs] at hold
    rw [hremoved]
    exact hold.sublist (((List.sublist_cons_self j after).append_left before).map Job.id)

theorem claimed {user : User} {action : Action} (h : net.Numbered)
    (hj : net.jobAt? place = some j) (hclaimed : net.Claimed user place j action net') :
    net'.Numbered := by
  cases hclaimed with
  | reserve => exact h.modifyJobAt hj fun _ => rfl
  | take => exact h.modifyJobAt hj fun _ => rfl
  | finish => exact h.removeJobAt hj

/-- The ids stay unique when a station is added, for the jobs of the one that it replaces are
    gone. -/
theorem addStation (h : net.Numbered) (code : StationCode) (minCars maxCars : Nat) :
    (net.addStation code minCars maxCars).Numbered := by
  constructor
  · intro c u hu id hmem
    rw [Network.addStation, station?_putStation] at hu
    split at hu
    · cases hu
      exact absurd hmem List.not_mem_nil
    · exact h.given c u hu id hmem
  · exact h.nodup.sublist ((jobs_putStation_sublist rfl).map Job.id)

/-- The ids stay unique in every operation. -/
theorem perform {op : Operation} {outcome : Outcome} (h : net.Numbered) (hsafe : net.Safe)
    (hp : net.perform op = .ok (outcome, net')) : net'.Numbered := by
  cases perform_effect hp with
  | stationAdded => exact h.addStation _ _ _
  | upkept _ hup => exact h.upkept hsafe.filed hup
  | answered ha =>
    cases ha with
    | refused => exact h
    | granted _ hcause hj _ _ hgranted =>
      obtain ⟨n, hclaimed, hup⟩ := hsafe.exists_claimed hj hgranted
      exact (h.claimed hj hclaimed).upkept (hsafe.claimed hj hcause hclaimed).filed hup

end Numbered

/-! ## Issued ids -/

/-- What is issued stays so where no station loses its count. -/
theorem Issued.modifyStation {f : Station → Station} (h : net.Issued id)
    (hnumber : ∀ s, net.station? code = some s → s.nextNumber ≤ (f s).nextNumber) :
    (net.modifyStation code f).Issued id := by
  obtain ⟨c, s, kind, n, hs, hn, rfl⟩ := h
  by_cases hc : code = c
  · subst hc
    exact ⟨code, f s, kind, n, station?_modifyStation_self hs f,
      Nat.lt_of_lt_of_le hn (hnumber s hs), rfl⟩
  · exact ⟨c, s, kind, n, (station?_modifyStation_of_ne (Ne.symm hc) f).trans hs, hn, rfl⟩

theorem Issued.upkeep (h : net.Issued id) (hup : net.Upkeep net') : net'.Issued id := by
  cases hup with
  | drawn generator he =>
    subst he
    exact h
  | @changed code s s' hs hch he =>
    subst he
    refine h.modifyStation ?_
    intro u hu
    cases hs.symm.trans hu
    rcases hch.ids_eq with ⟨hn, -⟩ | ⟨-, hn, -⟩ <;> omega
  | assigned hj he =>
    subst he
    exact h.modifyStation fun _ _ => Nat.le_refl _

theorem Issued.claimed {user : User} {action : Action} (h : net.Issued id)
    (hclaimed : net.Claimed user place j action net') : net'.Issued id := by
  cases hclaimed <;> exact h.modifyStation fun _ _ => Nat.le_refl _

/-- What is issued stays so when a station is added that was not there. -/
theorem Issued.addStation (h : net.Issued id) (hnew : net.station? code = none)
    (minCars maxCars : Nat) : (net.addStation code minCars maxCars).Issued id := by
  obtain ⟨c, s, kind, n, hs, hn, rfl⟩ := h
  refine ⟨c, s, kind, n, ?_, hn, rfl⟩
  have hc : code ≠ c := by
    intro hc
    rw [hc, hs] at hnew
    exact absurd hnew nofun
  rw [Network.addStation, station?_putStation, show (Station.new code minCars maxCars).code = code
    from rfl, if_neg hc, hs]

/-! ## Jobs asked for by their ids -/

theorem nodup_codes (hf : net.Filed) : (net.stationList.map Station.code).Nodup := by
  have hkeys : net.stationList.map Station.code = net.stations.entries.map Prod.fst := by
    rw [stationList, Table.values, List.map_map]
    exact List.map_congr_left fun e he => hf e.1 e.2 (Table.mem_entries_iff.1 he)
  rw [hkeys, List.nodup_iff_pairwise_ne, List.pairwise_map]
  exact net.stations.ascending.imp fun h he => Nat.ne_of_lt h (congrArg rank he)

/-- Without a job of that id, no station has one queued. -/
theorem queuedAt_eq_nil (h : ∀ j ∈ net.jobs, j.id ≠ id) : net.queuedAt id = [] := by
  rw [queuedAt, List.map_eq_nil_iff, List.filter_eq_nil_iff]
  intro s hs
  obtain ⟨code, hs⟩ := mem_stationList_iff.1 hs
  rw [Station.job?, List.find?_isSome]
  rintro ⟨j, hj, hid⟩
  exact h j (mem_jobs_iff.2 ⟨code, s, hs, hj⟩) (of_decide_eq_true hid)

/-- With unique ids, a job is queued under its id at one station, and found there. -/
theorem Numbered.queuedAt_eq (h : net.Numbered) (hf : net.Filed)
    (hs : net.station? code = some s) (hj : j ∈ s.queue) :
    net.queuedAt j.id = [code] ∧ s.job? j.id = some j := by
  have hmem : j ∈ net.jobs := mem_jobs_iff.2 ⟨code, s, hs, hj⟩
  have hfound : s.job? j.id = some j := by
    cases hk : s.job? j.id with
    | none => exact absurd (by simp) (List.find?_eq_none.1 hk j hj)
    | some k =>
      obtain ⟨hkmem, hkid⟩ := Job.of_find?_id hk
      have hkmem : k ∈ net.jobs := mem_jobs_iff.2 ⟨code, s, hs, hkmem⟩
      exact congrArg some (h.eq_of_id hkmem hmem hkid)
  refine ⟨?_, hfound⟩
  -- Every station with such a job is the one where the job stands.
  have hnodup : (net.queuedAt j.id).Nodup :=
    (nodup_codes hf).sublist (List.filter_sublist.map Station.code)
  refine List.perm_singleton.1
    ((List.perm_ext_iff_of_nodup hnodup (List.nodup_singleton code)).2 fun c => ?_)
  rw [List.mem_singleton, queuedAt, List.mem_map]
  constructor
  · rintro ⟨t, ht, rfl⟩
    obtain ⟨ht, hfind⟩ := List.mem_filter.1 ht
    obtain ⟨d, hd⟩ := mem_stationList_iff.1 ht
    obtain ⟨k, hk⟩ := Option.isSome_iff_exists.1 hfind
    obtain ⟨hkmem, hkid⟩ := Job.of_find?_id hk
    obtain ⟨i, hi⟩ := List.getElem?_of_mem hkmem
    obtain ⟨i', hi'⟩ := List.getElem?_of_mem hj
    have hplace : (d, i) = (code, i') :=
      h.place_eq (jobAt?_eq_some_iff.2 ⟨t, hd, hi⟩) (jobAt?_eq_some_iff.2 ⟨s, hs, hi'⟩) hkid
    exact (hf d t hd).trans (Prod.mk.inj hplace).1
  · rintro rfl
    refine ⟨s, List.mem_filter.2 ⟨mem_stationList_iff.2 ⟨c, hs⟩, ?_⟩, hf c s hs⟩
    rw [hfound, Option.isSome_some]

/-- With unique ids, a job is found by its id, and no fault is met. -/
theorem Numbered.job?_eq_find? (h : net.Numbered) (hf : net.Filed) (id : JobId) :
    net.job? id = .ok (net.jobs.find? (·.id = id)) := by
  cases hfind : net.jobs.find? (·.id = id) with
  | none =>
    have hnone : net.queuedAt id = [] := by
      refine queuedAt_eq_nil fun j hj hid => ?_
      exact List.find?_eq_none.1 hfind j hj (decide_eq_true hid)
    rw [job?, locate, hnone]
    rfl
  | some j =>
    obtain ⟨hmem, rfl⟩ := Job.of_find?_id hfind
    obtain ⟨code, s, hs, hj⟩ := mem_jobs_iff.1 hmem
    obtain ⟨hqueued, hfound⟩ := h.queuedAt_eq hf hs hj
    rw [job?, locate, hqueued]
    show Except.ok (((some code).bind net.station?).bind (·.job? j.id)) = _
    rw [Option.bind_some, hs, Option.bind_some, hfound]

/-- With unique ids, the jobs asked for by their ids are those that are there, in the order of
    the ids. -/
theorem Numbered.jobsOf_eq (h : net.Numbered) (hf : net.Filed) (ids : List JobId) :
    net.jobsOf ids = .ok (ids.filterMap fun id => net.jobs.find? (·.id = id)) := by
  induction ids with
  | nil => rfl
  | cons id ids ih =>
    rw [jobsOf, h.job?_eq_find? hf id, ih, List.filterMap_cons]
    cases net.jobs.find? (·.id = id) <;> rfl

/-- Of the ids of jobs, all those jobs are found. -/
theorem Numbered.map_id_of_jobsOf {ids : List JobId} {jobs : List Job} (h : net.Numbered)
    (hf : net.Filed) (hids : ids ⊆ net.jobs.map Job.id) (hjobs : net.jobsOf ids = .ok jobs) :
    jobs.map Job.id = ids := by
  rw [h.jobsOf_eq hf] at hjobs
  cases hjobs
  induction ids with
  | nil => rfl
  | cons id ids ih =>
    obtain ⟨hid, hrest⟩ := List.cons_subset.1 hids
    obtain ⟨j, hj, rfl⟩ := List.mem_map.1 hid
    rw [List.filterMap_cons, h.find?_id hj]
    exact congrArg _ (ih hrest)

end Network

theorem Reachable.numbered {config : Config} {net : Network} (h : Reachable config net) :
    net.Numbered := by
  refine h.safe_invariant (.empty config) ?_
  intro n op outcome n' hsafe hnumbered hp
  exact hnumbered.perform hsafe hp

end RailFreight
