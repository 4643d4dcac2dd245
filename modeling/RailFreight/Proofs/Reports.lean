import RailFreight.Proofs.Merging
import RailFreight.Proofs.Taking

/-!
# Reports

Whoever takes or finishes a job gets to know which jobs look different for it. What is reported is
put together from three sources: the jobs whose tracks the re-validation moved, the job that was
asked for, and what the dispatch tells of new jobs and of loads that got output. The sources overlap,
for a load that got output may be spawned in the same call. Yet every job that stands in another way
than before is reported, and none is reported twice.

Not all that is reported has changed, though. A load that output was merged with is reported also
when it was full before, and all of the output went to the overflow.

* `Network.report_covers`: a re-validation reports the jobs that it has changed;
* `Network.reportMerged_covers`: which loads are added to a report;
* `Network.Reported`: what is to be said of a report;
* `Network.Starts.reported`, `Network.Finishes.reported`: it holds of the report of a take and of
  that of a finish;
* `Reachable.transition_reported`: nothing is missing when a job is taken or finished;
* `Reachable.mem_changed_iff`: which jobs are reported although they are as they were.
-/

namespace RailFreight

/-- What is to be reported when it changes: the tracks that the job has, and its cars. -/
def Job.standing (j : Job) : Option Track × Option Track × Option Track × Nat :=
  (j.originTrack, j.proposedTrack, j.destinationTrack, j.cars)

/-- The jobs that are reported, apart from the new ones. -/
def Transition.reported (t : Transition) : List Job := t.despawned ++ t.spawned ++ t.changed

namespace Network

variable {net n net' : Network} {place : Place} {j k : Job} {user : User} {id : JobId}
  {ids : List JobId} {jobs : List Job} {t t' : Transition} {d : Dispatch}
  {notified : List StationCode}

/-! ## Jobs asked for by their ids -/

theorem Numbered.mem_of_jobsOf (h : net.Numbered) (hf : net.Filed)
    (hjobs : net.jobsOf ids = .ok jobs) : k ∈ jobs ↔ k ∈ net.jobs ∧ k.id ∈ ids := by
  rw [h.jobsOf_eq hf] at hjobs
  cases hjobs
  rw [List.mem_filterMap]
  constructor
  · rintro ⟨id, hid, hk⟩
    obtain ⟨hmem, rfl⟩ := Job.of_find?_id hk
    exact ⟨hmem, hid⟩
  · rintro ⟨hk, hid⟩
    exact ⟨k.id, hid, h.find?_id hk⟩

theorem Later.map_id_eq (hl : net.Later net') : net'.jobs.map Job.id = net.jobs.map Job.id := by
  have hids : ∀ m : Network, m.jobs.map Job.id = (m.jobs.map Job.untracked).map Job.id := by
    intro m
    rw [List.map_map]
    rfl
  rw [hids, hids, hl.alike.jobs_eq]

/-- A job that is taken out of its queue is all that is missing. -/
theorem Numbered.mem_removeJobAt_iff (h : net.Numbered) (hj : net.jobAt? place = some j) :
    k ∈ (net.removeJobAt place).jobs ↔ k ∈ net.jobs ∧ k.id ≠ j.id := by
  simp only [mem_jobs_iff_queueOf, h.queueOf_removeJobAt hj, List.mem_filter, decide_eq_true_eq,
    exists_and_right]

/-- A job that is changed is all that is different. -/
theorem Numbered.mem_modifyJobAt_iff {f : Job → Job} (h : net.Numbered)
    (hj : net.jobAt? place = some j) :
    k ∈ (net.modifyJobAt place f).jobs ↔ k = f j ∨ k ∈ net.jobs ∧ k.id ≠ j.id := by
  obtain ⟨before, after, hjobs, hmod⟩ := exists_jobs_eq_of_jobAt? hj
  have hothers : ∀ k ∈ before ++ after, k.id ≠ j.id := by
    have hnodup := h.nodup
    rw [hjobs, List.map_append, List.map_cons, List.perm_middle.nodup_iff, List.nodup_cons,
      ← List.map_append] at hnodup
    exact fun k hk hid => hnodup.1 (hid ▸ List.mem_map_of_mem hk)
  rw [hmod, hjobs, List.perm_middle.mem_iff, List.perm_middle.mem_iff, List.mem_cons,
    List.mem_cons]
  refine or_congr_right ⟨fun hk => ⟨.inr hk, hothers k hk⟩, fun hk => ?_⟩
  exact hk.1.resolve_left fun he => hk.2 (congrArg Job.id he)

/-! ## What a re-validation reports -/

theorem moved_subset (before after : List Job) (m : Movement) :
    moved before after m ⊆ after.map Job.id :=
  (List.filter_sublist.map Job.id).subset

/-- The tracks of a job did not move exactly when the job is as it was. -/
theorem movement?_eq_none_iff (hsafe : net.Safe) (hnumbered : net.Numbered)
    (hk : k ∈ net.revalidate.2.jobs) : movement? net.jobs k = none ↔ k ∈ net.jobs := by
  obtain ⟨j, hj, hjk⟩ := exists_of_forall₂_mem net.revalidate_later.forall₂_jobs hk
  have hfind := hnumbered.find?_id hj
  constructor
  · intro hstill
    have hu : k.untracked = j.untracked := by
      rw [hjk.same]
      rfl
    rcases eq_of_movement? hfind hu hstill with rfl | ⟨hkq, hjq⟩
    · exact hj
    · -- Queued jobs have neither an origin track nor a proposal.
      have hfits := (hsafe.upkept net.revalidate_upkept).fits_of_mem hk
      have htracks : k.originTrack = j.originTrack ∧ k.proposedTrack = j.proposedTrack :=
        ⟨(Job.originTrack_of_not_isSpawned hkq).trans (Job.originTrack_of_not_isSpawned hjq).symm,
          (hfits.queued hkq).1.trans ((hsafe.fits_of_mem hj).queued hjq).1.symm⟩
      have hsame : k = j := by rw [hjk.same, htracks.1, htracks.2]
      exact hsame ▸ hj
  · intro hk'
    obtain rfl : k = j := hnumbered.eq_of_id hk' hj hjk.id_eq
    rw [movement?, hfind, Option.bind_some, Movement.between?]
    cases k.isSpawned <;> simp

/-- A re-validation reports each job that it has changed, once and as it is now, and no other. -/
theorem report_covers (hsafe : net.Safe) (hnumbered : net.Numbered)
    (h : net.revalidate.2.report net.revalidate.1 notified = .ok t) :
    (t.reported.map Job.id).Nodup ∧
      ∀ k, k ∈ t.reported ↔ k ∈ net.revalidate.2.jobs ∧ k ∉ net.jobs := by
  have hnumbered' := hnumbered.upkept hsafe.filed net.revalidate_upkept
  have hfiled' := net.revalidate_upkept.filed hsafe.filed
  rw [revalidate_fst] at h
  obtain ⟨despawned, hdespawned, h⟩ := Faulty.bind_eq_ok_iff.1 h
  obtain ⟨spawned, hspawned, h⟩ := Faulty.bind_eq_ok_iff.1 h
  obtain ⟨changed, hchanged, h⟩ := Faulty.bind_eq_ok_iff.1 h
  cases h
  constructor
  · have hnodup := nodup_moved hnumbered' net.jobs
    simp only [Transition.reported, List.map_append,
      hnumbered'.map_id_of_jobsOf hfiled' (moved_subset _ _ _) hdespawned,
      hnumbered'.map_id_of_jobsOf hfiled' (moved_subset _ _ _) hspawned,
      hnumbered'.map_id_of_jobsOf hfiled' (moved_subset _ _ _) hchanged]
    exact ((List.perm_append_comm).append_right _).nodup_iff.1 hnodup
  · intro k
    simp only [Transition.reported, List.mem_append, hnumbered'.mem_of_jobsOf hfiled' hdespawned,
      hnumbered'.mem_of_jobsOf hfiled' hspawned, hnumbered'.mem_of_jobsOf hfiled' hchanged,
      ← and_or_left]
    refine and_congr_right fun hk => ?_
    rw [← movement?_eq_none_iff hsafe hnumbered hk, mem_moved_iff hnumbered' hk,
      mem_moved_iff hnumbered' hk, mem_moved_iff hnumbered' hk]
    rcases movement? net.jobs k with _ | m
    · simp
    · cases m <;> simp

/-! ## Merged loads -/

/-- A load is added to the report, unless it is in it already or is not in the network. -/
theorem reportMerged_cons (hnumbered : net.Numbered) (hf : net.Filed)
    (h : net.reportMerged t (id :: ids) = .ok t') :
    ((id ∈ t.reported.map Job.id ∨ id ∉ net.jobs.map Job.id) ∧
      net.reportMerged t ids = .ok t') ∨
    ∃ j ∈ net.jobs, j.id = id ∧ id ∉ t.reported.map Job.id ∧
      net.reportMerged { t with changed := t.changed ++ [j] } ids = .ok t' := by
  have hany : (t.spawned ++ t.despawned ++ t.changed).any (·.id = id) ↔
      id ∈ t.reported.map Job.id := by
    simp only [Transition.reported, List.any_append, List.any_eq_true, Bool.or_eq_true,
      decide_eq_true_eq, List.map_append, List.mem_append, List.mem_map]
    exact or_congr_left or_comm
  rw [reportMerged] at h
  split at h
  · rename_i hin
    exact .inl ⟨.inl (hany.1 hin), h⟩
  · rename_i hout
    rw [hany] at hout
    obtain ⟨job, hjob, hrest⟩ := Faulty.bind_eq_ok_iff.1 h
    rw [hnumbered.job?_eq_find? hf] at hjob
    cases job with
    | none =>
      rw [Option.toList_none, List.append_nil] at hrest
      refine .inl ⟨.inr fun hmem => ?_, hrest⟩
      obtain ⟨k, hk, hid⟩ := List.mem_map.1 hmem
      exact List.find?_eq_none.1 (Except.ok.inj hjob) k hk (decide_eq_true hid)
    | some j =>
      obtain ⟨hj, hid⟩ := Job.of_find?_id (Except.ok.inj hjob)
      exact .inr ⟨j, hj, hid, hout, hrest⟩

/-- The loads that are added to a report are those that are not in it yet. -/
theorem reportMerged_covers (hnumbered : net.Numbered) (hf : net.Filed)
    (h : net.reportMerged t ids = .ok t') :
    ∃ added, t' = { t with changed := t.changed ++ added } ∧
      ((t.reported.map Job.id).Nodup → ((t.reported ++ added).map Job.id).Nodup) ∧
      ∀ k, k ∈ added ↔ k ∈ net.jobs ∧ k.id ∈ ids ∧ k.id ∉ t.reported.map Job.id := by
  induction ids generalizing t with
  | nil =>
    cases h
    exact ⟨[], by rw [List.append_nil], by rw [List.append_nil]; exact id, by simp⟩
  | cons id ids ih =>
    rcases reportMerged_cons hnumbered hf h with ⟨hskipped, h⟩ | ⟨j, hj, rfl, hout, h⟩
    · obtain ⟨added, ht, hnodup, hadded⟩ := ih h
      refine ⟨added, ht, hnodup, fun k => ?_⟩
      rw [hadded, List.mem_cons]
      refine and_congr_right fun hk => and_congr_left fun hnew => (or_iff_right fun hid => ?_).symm
      rcases hskipped with hin | hgone
      · exact hnew (hid ▸ hin)
      · exact hgone (hid ▸ List.mem_map_of_mem hk)
    · obtain ⟨added, ht, hnodup, hadded⟩ := ih h
      have hreported : Transition.reported { t with changed := t.changed ++ [j] } =
          t.reported ++ [j] := (List.append_assoc _ _ _).symm
      simp only [hreported] at ht hnodup hadded
      refine ⟨j :: added, ?_, fun hbefore => ?_, fun k => ?_⟩
      · rw [ht, List.append_assoc, List.singleton_append]
      · rw [← List.singleton_append, ← List.append_assoc]
        refine hnodup ?_
        rw [List.map_append]
        exact List.nodup_append'.2 ⟨hbefore, List.nodup_singleton _,
          List.disjoint_singleton.2 hout⟩
      · rw [List.mem_cons, List.mem_cons, hadded, List.map_append, List.mem_append,
          List.map_singleton, List.mem_singleton]
        by_cases hid : k.id = j.id
        · simp only [hid, hout, not_false_eq_true, not_true_eq_false, or_true, and_false, or_false,
            true_or, and_true]
          exact ⟨fun he => he ▸ hj, fun hk => hnumbered.eq_of_id hk hj hid⟩
        · have hne : k ≠ j := fun he => hid (congrArg Job.id he)
          simp only [hid, hne, false_or, or_false]

/-! ## What is to be said of a report -/

/-- What is to be said of a report, when `gone` is the finished job, if any, and new jobs come to
    the station of that code alone. -/
structure Reported (net : Network) (code : StationCode) (gone : List Job) (t : Transition)
    (net' : Network) : Prop where
  /-- No job is reported twice. -/
  nodup : (t.reported.map Job.id).Nodup
  /-- A job that stands in another way than before is reported. -/
  mem_reported : ∀ j ∈ net.jobs, ∀ k ∈ net'.jobs, k.id = j.id → k.standing ≠ j.standing →
    k.id ∈ t.reported.map Job.id
  /-- The finished job comes first, and the others are reported as they are now. -/
  final : ∃ despawned, t.despawned = gone ++ despawned ∧
    ∀ k ∈ despawned ++ t.spawned ++ t.changed, k ∈ net'.jobs
  /-- No other job has left the network. -/
  mem_gone_iff : ∀ j, j ∈ gone ↔ j ∈ net.jobs ∧ j.id ∉ net'.jobs.map Job.id
  /-- The new jobs are reported as they are now. -/
  mem_created_iff : ∀ k, k ∈ t.created ↔ k ∈ net'.jobs ∧ k.id ∉ net.jobs.map Job.id
  /-- The new jobs are reported in the order in which the station has numbered them. -/
  created_id : ∀ (i : Nat) (k : Job), t.created[i]? = some k →
    ∃ kind, k.id = JobId.of code kind (net.numberOf code + i)

/-! ## Jobs that are taken -/

/-- A take that is granted reports what the re-validation moved, and the job before that. -/
theorem take_reports (hjob : net.job? id = .ok (some j))
    (hcause : net.refusal? .take user id (some j) = none)
    (h : net.take user id = .ok (.ok t, net')) :
    ∃ track n notified t₀, net.trackToClaim? j = some track ∧
      net.modifyJob id (·.activate track) = .ok n ∧ net' = n.revalidate.2 ∧
      net'.report n.revalidate.1 notified = .ok t₀ ∧ ((∃ k ∈ t₀.changed, k.id = id) ∨
        ∃ taken, net'.job? id = .ok taken ∧
          t = { t₀ with changed := taken.toList ++ t₀.changed }) := by
  obtain ⟨ha, hu, hs, hsome⟩ := refusal?_take_eq_none_iff.1 hcause
  obtain ⟨track, htrack⟩ := Option.isSome_iff_exists.1 hsome
  rw [take, hjob] at h
  obtain ⟨job, hj, h⟩ := Faulty.bind_eq_ok_iff.1 h
  cases hj
  simp only [ha, hu, hs, htrack, Bool.not_true, Bool.false_eq_true, if_false] at h
  obtain ⟨n, hn, h⟩ := Faulty.bind_eq_ok_iff.1 h
  obtain ⟨t₀, ht₀, h⟩ := Faulty.bind_eq_ok_iff.1 h
  refine ⟨track, n, n.revalidate.2.affectedStations j.origin j.destination n.revalidate.1.stations,
    t₀, htrack, hn, ?_⟩
  split at h
  · rename_i hany
    cases h
    exact ⟨rfl, ht₀, .inl (by simpa using hany)⟩
  · obtain ⟨taken, htaken, h⟩ := Faulty.bind_eq_ok_iff.1 h
    cases h
    exact ⟨rfl, ht₀, .inr ⟨taken, htaken, rfl⟩⟩

/-- A job is taken: it gets the track, which leads to `n`, the tracks are re-validated, and `t` is
    reported of it. -/
structure Starts (net : Network) (place : Place) (j : Job) (track : Track) (n : Network)
    (t : Transition) : Prop where
  jobAt?_eq : net.jobAt? place = some j
  claims : net.trackToClaim? j = some track
  eq_activate : n = net.modifyJobAt place (·.activate track)
  safe : n.Safe
  numbered : n.Numbered
  reports : ∃ notified t₀, n.revalidate.2.report n.revalidate.1 notified = .ok t₀ ∧
    ((∃ k ∈ t₀.changed, k.id = j.id) ∨ ∃ taken, n.revalidate.2.job? j.id = .ok taken ∧
      t = { t₀ with changed := taken.toList ++ t₀.changed })

theorem exists_starts (hsafe : net.Safe) (hnumbered : net.Numbered)
    (h : net.take user id = .ok (.ok t, net')) :
    ∃ place j track n, net.job? id = .ok (some j) ∧ net' = n.revalidate.2 ∧
      net.Starts place j track n t := by
  cases perform_take (perform_eq_of_take h) with
  | @granted place j _ _ hjob hcause hj hid _ _ =>
    obtain ⟨track, n, notified, t₀, htrack, hn, rfl, hreport⟩ := take_reports hjob hcause h
    obtain ⟨q, hq, -, hmodify, -⟩ := exists_jobAt?_of_job? hjob
    obtain rfl : q = place := hnumbered.place_eq hq hj rfl
    obtain rfl : n = net.modifyJobAt q (·.activate track) :=
      Except.ok.inj (hn.symm.trans (hmodify _))
    have hclaimed : net.Claimed user q j .take _ := .take htrack
    exact ⟨q, j, track, _, hjob, rfl, {
      jobAt?_eq := hj
      claims := htrack
      eq_activate := rfl
      safe := hsafe.claimed hj hcause hclaimed
      numbered := hnumbered.claimed hj hclaimed
      reports := ⟨notified, t₀, hid ▸ hreport⟩ }⟩

namespace Starts

variable {track : Track}

theorem jobAt?_activate (h : net.Starts place j track n t) :
    n.jobAt? place = some (j.activate track) := by
  rw [h.eq_activate, jobAt?_modifyJobAt, if_pos rfl, h.jobAt?_eq, Option.map_some]

theorem mem_revalidate (h : net.Starts place j track n t) :
    j.activate track ∈ n.revalidate.2.jobs := by
  rw [h.eq_activate]
  exact mem_jobs_of_jobAt? (jobAt?_revalidate_activate h.jobAt?_eq track)

theorem revalidate_ids_eq (h : net.Starts place j track n t) :
    n.revalidate.2.jobs.map Job.id = net.jobs.map Job.id := by
  rw [n.revalidate_later.map_id_eq, h.eq_activate]
  exact jobs_map_modifyJobAt h.jobAt?_eq rfl

/-- The report of a take is made up of the job and of those that the re-validation has changed. -/
theorem exists_report (h : net.Starts place j track n t) :
    ∃ t₀ : Transition, t = { t₀ with changed := j.activate track :: t₀.changed } ∧
      ((j.activate track :: t₀.reported).map Job.id).Nodup ∧ t₀.created = [] ∧
      ∀ k, k ∈ t₀.reported ↔ k ∈ n.revalidate.2.jobs ∧ k ∉ n.jobs := by
  have hnumbered := h.numbered.upkept h.safe.filed n.revalidate_upkept
  have hfiled := n.revalidate_upkept.filed h.safe.filed
  have htaken := h.mem_revalidate
  obtain ⟨notified, t₀, ht₀, ht⟩ := h.reports
  obtain ⟨hnodup, hcovers⟩ := report_covers h.safe h.numbered ht₀
  -- The job is active when the tracks are re-validated, so it is not reported for that.
  have hnot : j.id ∉ t₀.reported.map Job.id := by
    intro hmem
    obtain ⟨k, hk, hid⟩ := List.mem_map.1 hmem
    obtain ⟨hk, hnew⟩ := (hcovers k).1 hk
    obtain rfl : k = j.activate track := hnumbered.eq_of_id hk htaken hid
    exact hnew (mem_jobs_of_jobAt? h.jobAt?_activate)
  refine ⟨t₀, ?_, List.nodup_cons.2 ⟨hnot, hnodup⟩, (report_eq_ok ht₀).2, hcovers⟩
  rcases ht with ⟨k, hk, hid⟩ | ⟨taken, hfound, rfl⟩
  · exact absurd (List.mem_map.2 ⟨k, List.mem_append_right _ hk, hid⟩) hnot
  · have hfound' := (hnumbered.job?_eq_some_iff hfiled).2 ⟨htaken, rfl⟩
    cases hfound.symm.trans hfound'
    rfl

/-- The job that is taken is the first of those that changed, and nothing is missing. -/
theorem reported (h : net.Starts place j track n t) (hnumbered : net.Numbered) :
    t.changed.head? = some (j.activate track) ∧
      net.Reported j.destination [] t n.revalidate.2 := by
  obtain ⟨t₀, rfl, hnodup, hcreated, hcovers⟩ := h.exists_report
  have hperm : (Transition.reported { t₀ with changed := j.activate track :: t₀.changed }).Perm
      (j.activate track :: t₀.reported) := List.perm_middle
  refine ⟨rfl, (hperm.map Job.id).nodup_iff.2 hnodup, fun i hi k hk hid hne => ?_,
    ⟨t₀.despawned, rfl, fun k hk => ?_⟩, fun k => ?_, fun k => ?_, fun i k hk => ?_⟩
  · refine List.mem_map_of_mem (hperm.mem_iff.2 (List.mem_cons.2 ?_))
    by_cases hold : k ∈ n.jobs
    · -- Before the re-validation, no other job has changed.
      rw [h.eq_activate, hnumbered.mem_modifyJobAt_iff h.jobAt?_eq] at hold
      refine .inl (hold.resolve_right fun hsame => hne ?_)
      rw [hnumbered.eq_of_id hsame.1 hi hid]
    · exact .inr ((hcovers k).2 ⟨hk, hold⟩)
  · rcases List.mem_cons.1 (hperm.mem_iff.1 hk) with rfl | hk
    · exact h.mem_revalidate
    · exact ((hcovers k).1 hk).1
  · rw [h.revalidate_ids_eq]
    exact ⟨nofun, fun hk => absurd (List.mem_map_of_mem hk.1) hk.2⟩
  · rw [hcreated, ← h.revalidate_ids_eq]
    exact ⟨nofun, fun hk => absurd (List.mem_map_of_mem hk.1) hk.2⟩
  · rw [hcreated] at hk
    exact absurd hk nofun

end Starts

/-! ## Jobs that are finished -/

/-- A finish that is granted reports the job, what the re-validation moved, and the loads that
    output was merged with. -/
theorem finish_reports (hjob : net.job? id = .ok (some j))
    (hcause : net.refusal? .finish user id (some j) = none)
    (h : net.finish user id = .ok (.ok t, net')) :
    ∃ m d n notified t₀ t₁ created, net.removeJob id = .ok m ∧ m.dispatch j = .ok (d, n) ∧
      net' = n.revalidate.2 ∧ net'.report n.revalidate.1 notified = .ok t₀ ∧
      net'.reportMerged { t₀ with despawned := j :: t₀.despawned } d.merged = .ok t₁ ∧
      net'.jobsOf d.created = .ok created ∧ t = { t₁ with created } := by
  obtain ⟨ha, hu⟩ := refusal?_finish_eq_none_iff.1 hcause
  rw [finish, hjob] at h
  obtain ⟨job, hj, h⟩ := Faulty.bind_eq_ok_iff.1 h
  cases hj
  simp only [ha, hu, Bool.not_true, Bool.false_eq_true, if_false] at h
  obtain ⟨m, hm, h⟩ := Faulty.bind_eq_ok_iff.1 h
  obtain ⟨⟨d, n⟩, hd, h⟩ := Faulty.bind_eq_ok_iff.1 h
  obtain ⟨t₀, ht₀, h⟩ := Faulty.bind_eq_ok_iff.1 h
  obtain ⟨t₁, ht₁, h⟩ := Faulty.bind_eq_ok_iff.1 h
  obtain ⟨created, hcreated, h⟩ := Faulty.bind_eq_ok_iff.1 h
  cases h
  exact ⟨m, d, n, _, t₀, t₁, created, hm, hd, rfl, ht₀, ht₁, hcreated, rfl⟩

/-- A job is finished: it is taken out, its cargo takes effect, which leads to `n`, the tracks are
    re-validated, and `t` is reported of it. -/
structure Finishes (net : Network) (j : Job) (d : Dispatch) (n : Network) (t : Transition) :
    Prop where
  mem : j ∈ net.jobs
  safe : n.Safe
  numbered : n.Numbered
  /-- The other jobs are still there. -/
  kept : ∀ i ∈ net.jobs, i.id ≠ j.id → ∃ k ∈ n.jobs, i.Filled net.config.maxCars d.merged k
  mem_ids_iff : ∀ id, id ∈ n.jobs.map Job.id ↔
    (id ∈ net.jobs.map Job.id ∧ id ≠ j.id) ∨ id ∈ d.created
  new : ∀ id ∈ d.created, id ∉ net.jobs.map Job.id
  created_id : ∀ (i : Nat) (id : JobId), d.created[i]? = some id →
    ∃ kind, id = JobId.of j.destination kind (net.numberOf j.destination + i)
  reports : ∃ notified t₀ t₁ created,
    n.revalidate.2.report n.revalidate.1 notified = .ok t₀ ∧
    n.revalidate.2.reportMerged { t₀ with despawned := j :: t₀.despawned } d.merged = .ok t₁ ∧
    n.revalidate.2.jobsOf d.created = .ok created ∧ t = { t₁ with created }

theorem finish_of_perform (h : net.perform (.request .finish user id) = .ok (.moved t, net')) :
    net.finish user id = .ok (.ok t, net') := by
  obtain ⟨reply, hreply, h⟩ := Faulty.bind_eq_ok_iff.1 h
  rw [hreply, eq_of_ofReply_moved (Except.ok.inj h)]

theorem exists_finishes (hsafe : net.Safe) (hnumbered : net.Numbered)
    (h : net.finish user id = .ok (.ok t, net')) :
    ∃ j m d n, net.job? id = .ok (some j) ∧ net.removeJob id = .ok m ∧
      m.dispatch j = .ok (d, n) ∧ net' = n.revalidate.2 ∧ net.Finishes j d n t := by
  cases perform_finish (perform_eq_of_finish h) with
  | @granted place j _ _ hjob hcause hj hid _ _ =>
    obtain ⟨m, d, n, notified, t₀, t₁, created, hm, hd, rfl, hreport⟩ :=
      finish_reports hjob hcause h
    obtain ⟨q, hq, -, -, hremove⟩ := exists_jobAt?_of_job? hjob
    obtain rfl : q = place := hnumbered.place_eq hq hj rfl
    obtain rfl : m = net.removeJobAt q := Except.ok.inj (hm.symm.trans hremove)
    have hremoved := hsafe.removeJobAt hj
    have hnumbered' := hnumbered.removeJobAt hj
    have hcars := (hsafe.fits_of_mem (mem_jobs_of_jobAt? hj)).cars_le
    have hup := (dispatch_upkeptAt hremoved.filed hcars hd).upkept
    have htells := dispatch_tells hremoved.filed hnumbered' hd
    have hout := (dispatch_handsOut hremoved.filed hd).1
    have hmem : ∀ k, k ∈ (net.removeJobAt q).jobs ↔ k ∈ net.jobs ∧ k.id ≠ j.id :=
      fun k => hnumbered.mem_removeJobAt_iff hj
    refine ⟨j, _, d, n, hjob, hm, hd, rfl, {
      mem := mem_jobs_of_jobAt? hj
      safe := hremoved.upkept hup
      numbered := hnumbered'.upkept hremoved.filed hup
      kept := fun i hi hne => htells.kept i ((hmem i).2 ⟨hi, hne⟩)
      mem_ids_iff := fun id => ?_
      new := fun id hid hold => ?_
      created_id := fun i id hid => ?_
      reports := ⟨notified, t₀, t₁, created, hreport⟩ }⟩
    · rw [hout.perm.mem_iff, List.mem_append]
      refine or_congr_left ?_
      simp only [List.mem_map, hmem]
      constructor
      · rintro ⟨k, ⟨hk, hne⟩, rfl⟩
        exact ⟨⟨k, hk, rfl⟩, hne⟩
      · rintro ⟨⟨k, hk, rfl⟩, hne⟩
        exact ⟨k, ⟨hk, hne⟩, rfl⟩
    · exact (hout.new id hid).1 (issued_removeJobAt.2 (hnumbered.issued hold))
    · rw [← numberOf_removeJobAt net q]
      exact htells.created_id i id hid

/-- What the report `t` of a finish is put together from: the finished job, the report `t₀` of what
    the re-validation has changed, and the loads that are added because output was merged with
    them. -/
structure ReportParts (n : Network) (j : Job) (d : Dispatch) (t t₀ : Transition)
    (added : List Job) : Prop where
  despawned_eq : t.despawned = j :: t₀.despawned
  spawned_eq : t.spawned = t₀.spawned
  changed_eq : t.changed = t₀.changed ++ added
  nodup : (t.reported.map Job.id).Nodup
  mem_moved_iff : ∀ k, k ∈ t₀.reported ↔ k ∈ n.revalidate.2.jobs ∧ k ∉ n.jobs
  mem_added_iff : ∀ k, k ∈ added ↔
    k ∈ n.revalidate.2.jobs ∧ k.id ∈ d.merged ∧ k.id ∉ t₀.reported.map Job.id
  created_id_eq : t.created.map Job.id = d.created
  mem_of_created : ∀ k ∈ t.created, k ∈ n.revalidate.2.jobs

namespace ReportParts

variable {t₀ : Transition} {added : List Job}

theorem mem_reported_iff (h : n.ReportParts j d t t₀ added) :
    k ∈ t.reported ↔ k = j ∨ k ∈ t₀.reported ∨ k ∈ added := by
  rw [Transition.reported, Transition.reported, h.despawned_eq, h.spawned_eq, h.changed_eq]
  simp only [List.mem_append, List.mem_cons, or_assoc]

theorem mem_of_moved (h : n.ReportParts j d t t₀ added) (hk : k ∈ n.revalidate.2.jobs)
    (hnew : k ∉ n.jobs) : k.id ∈ t.reported.map Job.id :=
  List.mem_map_of_mem (h.mem_reported_iff.2 (.inr (.inl ((h.mem_moved_iff k).2 ⟨hk, hnew⟩))))

/-- A load that output was merged with is reported, if not for that then since it was moved. -/
theorem mem_of_merged (h : n.ReportParts j d t t₀ added) (hk : k ∈ n.revalidate.2.jobs)
    (hmerged : k.id ∈ d.merged) : k.id ∈ t.reported.map Job.id := by
  by_cases hmoved : k.id ∈ t₀.reported.map Job.id
  · obtain ⟨l, hl, hid⟩ := List.mem_map.1 hmoved
    exact List.mem_map.2 ⟨l, h.mem_reported_iff.2 (.inr (.inl hl)), hid⟩
  · have hadded := (h.mem_added_iff k).2 ⟨hk, hmerged, hmoved⟩
    exact List.mem_map_of_mem (h.mem_reported_iff.2 (.inr (.inr hadded)))

/-- Apart from the finished job, the jobs are reported as they are now. -/
theorem mem_revalidate (h : n.ReportParts j d t t₀ added)
    (hk : k ∈ t₀.despawned ++ t.spawned ++ t.changed) : k ∈ n.revalidate.2.jobs := by
  have hparts : k ∈ t₀.reported ∨ k ∈ added := by
    rwa [h.spawned_eq, h.changed_eq, ← List.append_assoc, List.mem_append,
      ← Transition.reported] at hk
  rcases hparts with hmoved | hadded
  · exact ((h.mem_moved_iff k).1 hmoved).1
  · exact ((h.mem_added_iff k).1 hadded).1

end ReportParts

namespace Finishes

variable {i : Job} {t₀ : Transition} {added : List Job}

theorem numbered_revalidate (h : net.Finishes j d n t) : n.revalidate.2.Numbered :=
  h.numbered.upkept h.safe.filed n.revalidate_upkept

theorem mem_revalidate_ids_iff (h : net.Finishes j d n t) (id : JobId) :
    id ∈ n.revalidate.2.jobs.map Job.id ↔
      (id ∈ net.jobs.map Job.id ∧ id ≠ j.id) ∨ id ∈ d.created := by
  rw [n.revalidate_later.map_id_eq]
  exact h.mem_ids_iff id

/-- The job that is finished leaves the network. -/
theorem notMem_revalidate_ids (h : net.Finishes j d n t) :
    j.id ∉ n.revalidate.2.jobs.map Job.id := by
  rw [h.mem_revalidate_ids_iff]
  rintro (⟨-, hne⟩ | hnew)
  · exact hne rfl
  · exact h.new j.id hnew (List.mem_map_of_mem h.mem)

/-- What has become of a job when the tracks are re-validated, and what becomes of it then. -/
theorem exists_between (h : net.Finishes j d n t) (hi : i ∈ net.jobs)
    (hk : k ∈ n.revalidate.2.jobs) (hid : k.id = i.id) :
    ∃ l ∈ n.jobs, i.Filled net.config.maxCars d.merged l ∧ l.Retracked k := by
  have hne : i.id ≠ j.id := by
    intro he
    exact h.notMem_revalidate_ids (List.mem_map.2 ⟨k, hk, hid.trans he⟩)
  obtain ⟨l, hl, hfilled⟩ := h.kept i hi hne
  obtain ⟨l', hl', hretracked⟩ := exists_of_forall₂_mem n.revalidate_later.forall₂_jobs hk
  have hsame : l'.id = l.id := by rw [← hretracked.id_eq, hid, hfilled.id_eq]
  obtain rfl := h.numbered.eq_of_id hl' hl hsame
  exact ⟨l', hl', hfilled, hretracked⟩

/-- A job that stands as before is as before. -/
theorem eq_of_standing (h : net.Finishes j d n t) (hi : i ∈ net.jobs)
    (hk : k ∈ n.revalidate.2.jobs) (hid : k.id = i.id) (hstanding : k.standing = i.standing) :
    k = i := by
  obtain ⟨l, -, hfilled, hretracked⟩ := h.exists_between hi hk hid
  simp only [Job.standing, Prod.mk.injEq] at hstanding
  obtain ⟨horigin, hproposed, -, hcars⟩ := hstanding
  have hcars' : l.cars = i.cars := by rw [← hcars, hretracked.same]
  rw [hretracked.same, hfilled.eq_of_cars hcars', horigin, hproposed]

/-- A job that is as before has not been changed by the dispatch, and if output was merged with
    it, it was full. -/
theorem mem_of_unchanged (h : net.Finishes j d n t) (hi : i ∈ net.jobs)
    (hi' : i ∈ n.revalidate.2.jobs) :
    i ∈ n.jobs ∧ (i.id ∈ d.merged → net.config.maxCars ≤ i.cars) := by
  obtain ⟨l, hl, hfilled, hretracked⟩ := h.exists_between hi hi' rfl
  have hcars : l.cars = i.cars := by rw [hretracked.same]
  exact ⟨hfilled.eq_of_cars hcars ▸ hl, fun hid => hfilled.full hid hcars⟩

/-- The report of a finish is put together from those parts. -/
theorem exists_parts (h : net.Finishes j d n t) : ∃ t₀ added, n.ReportParts j d t t₀ added := by
  have hnumbered := h.numbered_revalidate
  have hfiled := n.revalidate_upkept.filed h.safe.filed
  obtain ⟨notified, t₀, t₁, created, ht₀, ht₁, hcreated, rfl⟩ := h.reports
  obtain ⟨hnodup, hcovers⟩ := report_covers h.safe h.numbered ht₀
  obtain ⟨added, rfl, hnodup', hadded⟩ := reportMerged_covers hnumbered hfiled ht₁
  have hgone : j.id ∉ t₀.reported.map Job.id := by
    intro hmem
    obtain ⟨k, hk, hid⟩ := List.mem_map.1 hmem
    exact h.notMem_revalidate_ids (List.mem_map.2 ⟨k, ((hcovers k).1 hk).1, hid⟩)
  refine ⟨t₀, added, rfl, rfl, rfl, ?_, hcovers, fun k => ?_, ?_, fun k hk => ?_⟩
  · have hreported := hnodup' (List.nodup_cons.2 ⟨hgone, hnodup⟩)
    rw [Transition.reported, ← List.append_assoc]
    exact hreported
  · rw [hadded]
    refine and_congr_right fun hk => and_congr_right fun _ => ?_
    have hne : k.id ≠ j.id := fun he => h.notMem_revalidate_ids (he ▸ List.mem_map_of_mem hk)
    show k.id ∉ (j :: t₀.reported).map Job.id ↔ _
    rw [List.map_cons, List.mem_cons, not_or]
    exact and_iff_right hne
  · refine hnumbered.map_id_of_jobsOf hfiled (fun id hid => ?_) hcreated
    exact (h.mem_revalidate_ids_iff id).2 (.inr hid)
  · exact ((hnumbered.mem_of_jobsOf hfiled hcreated).1 hk).1

/-- A job that stands in another way than before was moved by the re-validation, or else it got
    output. -/
theorem mem_reported (h : net.Finishes j d n t) (hparts : n.ReportParts j d t t₀ added)
    (hi : i ∈ net.jobs) (hk : k ∈ n.revalidate.2.jobs) (hid : k.id = i.id)
    (hne : k.standing ≠ i.standing) : k.id ∈ t.reported.map Job.id := by
  by_cases hold : k ∈ n.jobs
  · obtain ⟨l, hl, hfilled, hretracked⟩ := h.exists_between hi hk hid
    obtain rfl : k = l := h.numbered.eq_of_id hold hl hretracked.id_eq
    refine hparts.mem_of_merged hk ?_
    rw [hid]
    exact hfilled.mem fun hcars => hne (by rw [hfilled.eq_of_cars hcars])
  · exact hparts.mem_of_moved hk hold

/-- The job that is finished is the only one that leaves the network. -/
theorem eq_iff_notMem_ids (h : net.Finishes j d n t) (hnumbered : net.Numbered) :
    i = j ↔ i ∈ net.jobs ∧ i.id ∉ n.revalidate.2.jobs.map Job.id := by
  constructor
  · rintro rfl
    exact ⟨h.mem, h.notMem_revalidate_ids⟩
  · rintro ⟨hi, hgone⟩
    rw [h.mem_revalidate_ids_iff, not_or, not_and, not_not] at hgone
    exact hnumbered.eq_of_id hi h.mem (hgone.1 (List.mem_map_of_mem hi))

/-- The new jobs are those that the dispatch has named. -/
theorem mem_created_iff (h : net.Finishes j d n t) (hparts : n.ReportParts j d t t₀ added) :
    k ∈ t.created ↔ k ∈ n.revalidate.2.jobs ∧ k.id ∉ net.jobs.map Job.id := by
  constructor
  · intro hk
    exact ⟨hparts.mem_of_created k hk,
      h.new k.id (hparts.created_id_eq ▸ List.mem_map_of_mem hk)⟩
  · rintro ⟨hk, hnew⟩
    have hid := (h.mem_revalidate_ids_iff k.id).1 (List.mem_map_of_mem hk)
    have hcreated := hid.resolve_left fun hold => hnew hold.1
    obtain ⟨l, hl, hlk⟩ := List.mem_map.1 (hparts.created_id_eq ▸ hcreated)
    obtain rfl : l = k :=
      h.numbered_revalidate.eq_of_id (hparts.mem_of_created l hl) hk hlk
    exact hl

/-- Nothing is missing in the report of a finish. -/
theorem reported (h : net.Finishes j d n t) (hnumbered : net.Numbered) :
    net.Reported j.destination [j] t n.revalidate.2 := by
  obtain ⟨t₀, added, hparts⟩ := h.exists_parts
  exact {
    nodup := hparts.nodup
    mem_reported := fun i hi k hk hid hne => h.mem_reported hparts hi hk hid hne
    final := ⟨t₀.despawned, hparts.despawned_eq, fun k hk => hparts.mem_revalidate hk⟩
    mem_gone_iff := fun i => List.mem_singleton.trans (h.eq_iff_notMem_ids hnumbered)
    mem_created_iff := fun k => h.mem_created_iff hparts
    created_id := fun i k hk => by
      refine h.created_id i k.id ?_
      rw [← hparts.created_id_eq, List.getElem?_map, hk, Option.map_some] }

/-- A job is reported to have changed although it is as before when it is a full load that output
    was merged with. -/
theorem mem_changed_iff_full (h : net.Finishes j d n t) (hi : i ∈ net.jobs) :
    i ∈ t.changed ↔
      i ∈ n.revalidate.2.jobs ∧ i.id ∈ d.merged ∧ net.config.maxCars ≤ i.cars := by
  obtain ⟨t₀, added, hparts⟩ := h.exists_parts
  rw [hparts.changed_eq, List.mem_append]
  constructor
  · intro hrep
    have hunmoved : i ∉ t₀.changed := by
      intro hmoved
      obtain ⟨hi', hnew⟩ := (hparts.mem_moved_iff i).1 (List.mem_append_right _ hmoved)
      exact hnew (h.mem_of_unchanged hi hi').1
    obtain ⟨hi', hmerged, -⟩ := (hparts.mem_added_iff i).1 (hrep.resolve_left hunmoved)
    exact ⟨hi', hmerged, (h.mem_of_unchanged hi hi').2 hmerged⟩
  · rintro ⟨hi', hmerged, -⟩
    refine .inr ((hparts.mem_added_iff i).2 ⟨hi', hmerged, fun hrep => ?_⟩)
    obtain ⟨k, hk, hid⟩ := List.mem_map.1 hrep
    obtain ⟨hk, hnew⟩ := (hparts.mem_moved_iff k).1 hk
    obtain rfl : k = i := h.numbered_revalidate.eq_of_id hk hi' hid
    exact hnew (h.mem_of_unchanged hi hi').1

end Finishes

end Network

/-- When a job of a reachable network is taken or finished, every job that stands in another way
    than before is reported once, the new jobs are reported in their order, and every job is
    reported as it is now, apart from the finished one. A job that is taken comes first among those
    that changed; one that is finished comes first among those that despawned, and no other leaves
    the network. -/
theorem Reachable.transition_reported {config : Config} {net : Network}
    (h : Reachable config net) :
    (∀ user id t net', net.take user id = .ok (.ok t, net') →
      ∃ j ∈ net.jobs, j.id = id ∧ ∃ track, net.trackToClaim? j = some track ∧
        t.changed.head? = some (j.activate track) ∧ net.Reported j.destination [] t net') ∧
    ∀ user id t net', net.finish user id = .ok (.ok t, net') →
      ∃ j ∈ net.jobs, j.id = id ∧ net.Reported j.destination [j] t net' := by
  refine ⟨fun user id t net' htake => ?_, fun user id t net' hfinish => ?_⟩
  · obtain ⟨place, j, track, n, hjob, rfl, hstarts⟩ :=
      Network.exists_starts h.safe h.numbered htake
    obtain ⟨hj, hid⟩ := (h.numbered.job?_eq_some_iff h.safe.filed).1 hjob
    exact ⟨j, hj, hid, track, hstarts.claims, hstarts.reported h.numbered⟩
  · obtain ⟨j, m, d, n, hjob, -, -, rfl, hfinishes⟩ :=
      Network.exists_finishes h.safe h.numbered hfinish
    obtain ⟨hj, hid⟩ := (h.numbered.job?_eq_some_iff h.safe.filed).1 hjob
    exact ⟨j, hj, hid, hfinishes.reported h.numbered⟩

/-- When the load is shipped, the freight and the next load are new, and both are spawned; the load
    in front of it is filled up. -/
theorem shippedRun_transition_reported :
    ∃ net t net', (Network.empty {}).performAll shippedRun = .ok net ∧
      net.finish .bob (.of .cm .shuntingLoad 2) = .ok (.ok t, net') ∧
      ([t.despawned, t.spawned, t.changed, t.created].map fun jobs => jobs.map Job.id) =
        [[.of .cm .shuntingLoad 2], [.of .cm .freight 3, .of .cm .shuntingLoad 4],
          [.of .cm .shuntingLoad 1], [.of .cm .freight 3, .of .cm .shuntingLoad 4]] ∧
      (∀ user id t net', net.take user id = .ok (.ok t, net') →
        ∃ j ∈ net.jobs, j.id = id ∧ ∃ track, net.trackToClaim? j = some track ∧
          t.changed.head? = some (j.activate track) ∧ net.Reported j.destination [] t net') ∧
      ∀ user id t net', net.finish user id = .ok (.ok t, net') →
        ∃ j ∈ net.jobs, j.id = id ∧ net.Reported j.destination [j] t net' := by
  obtain ⟨net, outcome, net', hrun, hreachable, hp, h⟩ :=
    exists_reachable_perform {} shippedRun shipment
      (fun _ outcome _ => match outcome with
        | .moved t => ([t.despawned, t.spawned, t.changed, t.created].map fun jobs =>
            jobs.map Job.id) =
          [[.of .cm .shuntingLoad 2], [.of .cm .freight 3, .of .cm .shuntingLoad 4],
            [.of .cm .shuntingLoad 1], [.of .cm .freight 3, .of .cm .shuntingLoad 4]]
        | _ => false) (by decide +kernel)
  cases outcome with
  | moved t =>
    exact ⟨net, t, net', hrun, Network.finish_of_perform hp, of_decide_eq_true h,
      hreachable.transition_reported⟩
  | _ => exact absurd h nofun

/-- Of the jobs that were there before a finish, one is reported to have changed if it stands in
    another way, or if it is a full load that output was merged with: then it is reported as it was
    before. -/
theorem Reachable.mem_changed_iff {config : Config} {net net' : Network} {user : User} {id : JobId}
    {t : Transition} (h : Reachable config net)
    (hfinish : net.finish user id = .ok (.ok t, net')) :
    ∃ j m d n, net.job? id = .ok (some j) ∧ net.removeJob id = .ok m ∧
      m.dispatch j = .ok (d, n) ∧ net' = n.revalidate.2 ∧
      (∀ i ∈ net.jobs, ∀ k ∈ t.changed, k.id = i.id → k.standing ≠ i.standing ∨ k = i) ∧
      ∀ i ∈ net.jobs,
        i ∈ t.changed ↔ i ∈ net'.jobs ∧ i.id ∈ d.merged ∧ i.cars = config.maxCars := by
  obtain ⟨j, m, d, n, hjob, hm, hd, rfl, hfinishes⟩ :=
    Network.exists_finishes h.safe h.numbered hfinish
  obtain ⟨despawned, -, hfinal⟩ := (hfinishes.reported h.numbered).final
  refine ⟨j, m, d, n, hjob, hm, hd, rfl, fun i hi k hk hid => ?_, fun i hi => ?_⟩
  · have hk' := hfinal k (List.mem_append_right _ hk)
    exact or_iff_not_imp_left.2 fun hstanding =>
      hfinishes.eq_of_standing hi hk' hid (not_not.1 hstanding)
  · -- No job of a reachable network has more cars than the ceiling.
    have hcars := (h.safe.fits_of_mem hi).cars_le
    rw [h.config_eq] at hcars
    rw [hfinishes.mem_changed_iff_full hi, h.config_eq]
    exact and_congr_right fun _ => and_congr_right fun _ =>
      ⟨fun hle => Nat.le_antisymm hcars hle, fun he => he.ge⟩

/-- A run in which a load of boards is full, while logs of which one more will be made are being
    unloaded. -/
def fullLoadRun : List Operation :=
  let logs := JobId.of .sw .shuntingUnload 2
  [.addStation .sw 1 2, .addProcessor .sw (.ofBlueprint (Table.ofList [(.logs, 1)]) .boards []),
    .createJob .sw .shuntingLoad .sw 12 .boards 1, .createJob .sw .shuntingUnload .sw 1 .logs 1,
    .revalidate, .request .reserve .bob logs, .request .take .bob logs]

/-- The boards that are made are merged with the full load, which is then reported although it is
    as it was. -/
theorem fullLoadRun_mem_changed :
    ∃ net t net' load, (Network.empty {}).performAll fullLoadRun = .ok net ∧ Reachable {} net ∧
      net.finish .bob (.of .sw .shuntingUnload 2) = .ok (.ok t, net') ∧
      load ∈ net.jobs ∧ load ∈ t.changed := by
  obtain ⟨net, outcome, net', hrun, hreachable, hp, h⟩ :=
    exists_reachable_perform {} fullLoadRun (.request .finish .bob (.of .sw .shuntingUnload 2))
      (fun net outcome _ => match outcome with
        | .moved t => ∃ load ∈ net.jobs, load ∈ t.changed
        | _ => false) (by decide +kernel)
  cases outcome with
  | moved t =>
    obtain ⟨load, hload, hchanged⟩ := of_decide_eq_true h
    exact ⟨net, t, net', load, hrun, hreachable, Network.finish_of_perform hp, hload, hchanged⟩
  | _ => exact absurd h nofun

/-- The full load is one that output was merged with. -/
theorem fullLoadRun_mem_changed_iff :
    ∃ net t net', (Network.empty {}).performAll fullLoadRun = .ok net ∧
      net.finish .bob (.of .sw .shuntingUnload 2) = .ok (.ok t, net') ∧
      (t.changed.map fun j => (j.id, j.cars)) = [(.of .sw .shuntingLoad 1, 12)] ∧
      ∃ j m d n, net.job? (.of .sw .shuntingUnload 2) = .ok (some j) ∧
        net.removeJob (.of .sw .shuntingUnload 2) = .ok m ∧ m.dispatch j = .ok (d, n) ∧
        net' = n.revalidate.2 ∧
        (∀ i ∈ net.jobs, ∀ k ∈ t.changed, k.id = i.id → k.standing ≠ i.standing ∨ k = i) ∧
        ∀ i ∈ net.jobs, i ∈ t.changed ↔ i ∈ net'.jobs ∧ i.id ∈ d.merged ∧ i.cars = 12 := by
  obtain ⟨net, outcome, net', hrun, hreachable, hp, h⟩ :=
    exists_reachable_perform {} fullLoadRun (.request .finish .bob (.of .sw .shuntingUnload 2))
      (fun _ outcome _ => match outcome with
        | .moved t => (t.changed.map fun j => (j.id, j.cars)) = [(.of .sw .shuntingLoad 1, 12)]
        | _ => false) (by decide +kernel)
  cases outcome with
  | moved t =>
    have hfinish := Network.finish_of_perform hp
    exact ⟨net, t, net', hrun, hfinish, of_decide_eq_true h, hreachable.mem_changed_iff hfinish⟩
  | _ => exact absurd h nofun

end RailFreight
