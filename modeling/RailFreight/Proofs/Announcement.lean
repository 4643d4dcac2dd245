import RailFreight.Proofs.Numbering

/-!
# Announcements

A job that is taken or finished makes tracks free or takes them, and the re-validation that
follows may move jobs at any station. The stations to notify are fewer than those with other
listings: the two ends of the job, and of the other stations the ones with a job bound for its
destination. A third station whose jobs go elsewhere is not notified, also when one of its jobs
has got a track that was made free.

* `Network.exists_of_moved`: how a job is taken or finished, and which stations are notified;
* `Network.mem_revalidate_stations`: a re-validation reports every station whose listing it
  changes;
* `Reachable.mem_notified_iff`: which stations with other listings are notified;
* `haulRun_not_notified`: one that is not.
-/

namespace RailFreight

theorem mem_sortedUnique {κ : Type} [Ranked κ] [BEq κ] [LawfulBEq κ] {keys : List κ} {k : κ} :
    k ∈ sortedUnique keys ↔ k ∈ keys := by
  rw [sortedUnique, List.mem_eraseDups, sortByRank, List.mem_mergeSort]

namespace Network

variable {net n net' : Network} {code : StationCode} {place : Place} {j k : Job} {user : User}
  {id : JobId} {t t' : Transition}

/-! ## Stations that changed -/

/-- The stations to notify are the two ends, and those of the changed ones that have a job bound
    for the destination. -/
theorem mem_affectedStations {origin destination : StationCode} {changed : List StationCode} :
    code ∈ net.affectedStations origin destination changed ↔
      code = origin ∨ code = destination ∨
        code ∈ changed ∧ ∃ k ∈ net.queueOf code, k.destination = destination := by
  have hfeeds : ((net.station? code).any fun s => s.queue.any (·.destination = destination)) ↔
      ∃ k ∈ net.queueOf code, k.destination = destination := by
    rw [queueOf]
    cases net.station? code <;> simp
  rw [affectedStations, mem_sortedUnique, List.mem_cons, List.mem_cons, List.mem_filter, hfeeds]

/-- A job whose tracks did not move is the same, or it is queued as before. -/
theorem eq_of_movement? {jobs : List Job} (hfind : jobs.find? (·.id = j.id) = some j)
    (hu : k.untracked = j.untracked) (hstill : movement? jobs k = none) :
    k = j ∨ ¬ k.isSpawned ∧ ¬ j.isSpawned := by
  have hid : k.untracked.id = j.untracked.id := congrArg Job.id hu
  rw [movement?, show k.id = j.id from hid, hfind, Option.bind_some, Movement.between?] at hstill
  cases hj : j.isSpawned <;> cases hk : k.isSpawned <;> simp only [hj, hk] at hstill
  · exact .inr (by simp)
  · exact absurd hstill nofun
  · exact absurd hstill nofun
  · split at hstill
    · rename_i htracks
      left
      cases j
      cases k
      simp_all [Job.untracked]
    · exact absurd hstill nofun

/-- Where no track moved, the same jobs are shown. -/
theorem filter_shows_eq (jobs : List Job) {before after : List Job}
    (hfind : ∀ j ∈ before, jobs.find? (·.id = j.id) = some j)
    (hu : after.map Job.untracked = before.map Job.untracked)
    (hstill : ∀ k ∈ after, movement? jobs k = none) :
    after.filter (shows none) = before.filter (shows none) := by
  induction after generalizing before with
  | nil =>
    obtain rfl : before = [] := List.map_eq_nil_iff.1 hu.symm
    rfl
  | cons k after ih =>
    cases before with
    | nil => exact absurd hu nofun
    | cons j before =>
      obtain ⟨hj, hfind⟩ := List.forall_mem_cons.1 hfind
      obtain ⟨hk, hstill⟩ := List.forall_mem_cons.1 hstill
      obtain ⟨hhead, htail⟩ := List.cons.inj hu
      rw [List.filter_cons, List.filter_cons, ih hfind htail hstill]
      rcases eq_of_movement? hj hhead hk with rfl | ⟨hk, hj⟩
      · rfl
      · simp [shows, hk, hj]

theorem Alike.queueOf_eq (h : net.Alike net') (code : StationCode) :
    (net'.queueOf code).map Job.untracked = (net.queueOf code).map Job.untracked := by
  have hq : ∀ n : Network, (n.queueOf code).map Job.untracked =
      ((n.station? code).map Station.untracked).elim [] Station.queue := by
    intro n
    rw [queueOf]
    cases n.station? code <;> rfl
  rw [hq, hq, h.untracked_eq]

/-- A re-validation reports every station at which other jobs are shown than before. -/
theorem mem_revalidate_stations (hsafe : net.Safe) (hnumbered : net.Numbered)
    (hne : net.revalidate.2.visibleJobs code none ≠ net.visibleJobs code none) :
    code ∈ net.revalidate.1.stations := by
  by_contra hnot
  refine hne ?_
  rw [visibleJobs_eq, visibleJobs_eq]
  refine filter_shows_eq net.jobs ?_ (net.revalidate_later.alike.queueOf_eq code) ?_
  · intro j hj
    exact hnumbered.find?_id (mem_jobs_iff_queueOf.2 ⟨code, hj⟩)
  · intro k hk
    by_contra hmoved
    refine hnot (mem_sortedUnique.2 (List.mem_map.2 ⟨k, List.mem_filter.2 ⟨?_, ?_⟩, ?_⟩))
    · exact mem_jobs_iff_queueOf.2 ⟨code, hk⟩
    · exact Option.isSome_iff_ne_none.2 hmoved
    · obtain ⟨i, hi⟩ := mem_queueOf_iff.1 hk
      exact ((hsafe.upkept (revalidate_upkept net)).fits (code, i) k hi).1

/-! ## Transitions -/

theorem report_eq_ok {r : Revalidation} {notified : List StationCode}
    (h : net.report r notified = .ok t) : t.notified = notified ∧ t.created = [] := by
  obtain ⟨despawned, -, h⟩ := Faulty.bind_eq_ok_iff.1 h
  obtain ⟨spawned, -, h⟩ := Faulty.bind_eq_ok_iff.1 h
  obtain ⟨changed, -, h⟩ := Faulty.bind_eq_ok_iff.1 h
  cases h
  exact ⟨rfl, rfl⟩

theorem reportMerged_notified {ids : List JobId} (h : net.reportMerged t ids = .ok t') :
    t'.notified = t.notified := by
  induction ids generalizing t with
  | nil =>
    cases h
    rfl
  | cons id ids ih =>
    rw [reportMerged] at h
    split at h
    · exact ih h
    · obtain ⟨job, -, h⟩ := Faulty.bind_eq_ok_iff.1 h
      have hrest := ih h
      exact hrest

/-- A take that is granted activates the job and re-validates. -/
theorem take_eq_ok (hjob : net.job? id = .ok (some j))
    (hcause : net.refusal? .take user id (some j) = none)
    (h : net.take user id = .ok (.ok t, net')) :
    ∃ track n, net.trackToClaim? j = some track ∧
      net.modifyJob id (·.activate track) = .ok n ∧ net' = n.revalidate.2 ∧
      t.notified = net'.affectedStations j.origin j.destination n.revalidate.1.stations ∧
      t.created = [] := by
  obtain ⟨ha, hu, hs, hsome⟩ := refusal?_take_eq_none_iff.1 hcause
  obtain ⟨track, htrack⟩ := Option.isSome_iff_exists.1 hsome
  rw [take, hjob] at h
  obtain ⟨job, hj, h⟩ := Faulty.bind_eq_ok_iff.1 h
  cases hj
  simp only [ha, hu, hs, htrack, Bool.not_true, Bool.false_eq_true, if_false] at h
  obtain ⟨n, hn, h⟩ := Faulty.bind_eq_ok_iff.1 h
  obtain ⟨t₀, ht₀, h⟩ := Faulty.bind_eq_ok_iff.1 h
  obtain ⟨hnotified, hcreated⟩ := report_eq_ok ht₀
  refine ⟨track, n, htrack, hn, ?_⟩
  split at h
  · cases h
    exact ⟨rfl, hnotified, hcreated⟩
  · obtain ⟨taken, -, h⟩ := Faulty.bind_eq_ok_iff.1 h
    cases h
    exact ⟨rfl, hnotified, hcreated⟩

/-- A finish that is granted removes the job, lets its cargo take effect, and re-validates. -/
theorem finish_eq_ok (hjob : net.job? id = .ok (some j))
    (hcause : net.refusal? .finish user id (some j) = none)
    (h : net.finish user id = .ok (.ok t, net')) :
    ∃ m d n, net.removeJob id = .ok m ∧ m.dispatch j = .ok (d, n) ∧ net' = n.revalidate.2 ∧
      t.notified = net'.affectedStations j.origin j.destination n.revalidate.1.stations ∧
      net'.jobsOf d.created = .ok t.created := by
  obtain ⟨ha, hu⟩ := refusal?_finish_eq_none_iff.1 hcause
  rw [finish, hjob] at h
  obtain ⟨job, hj, h⟩ := Faulty.bind_eq_ok_iff.1 h
  cases hj
  simp only [ha, hu, Bool.not_true, Bool.false_eq_true, if_false] at h
  obtain ⟨m, hm, h⟩ := Faulty.bind_eq_ok_iff.1 h
  obtain ⟨⟨d, n⟩, hd, h⟩ := Faulty.bind_eq_ok_iff.1 h
  obtain ⟨t₀, ht₀, h⟩ := Faulty.bind_eq_ok_iff.1 h
  obtain ⟨t₁, ht₁, h⟩ := Faulty.bind_eq_ok_iff.1 h
  obtain ⟨created, hcreated, h⟩ := Faulty.bind_eq_ok_iff.1 h
  cases h
  have hnotified := (report_eq_ok ht₀).1
  have hmerged := reportMerged_notified ht₁
  exact ⟨m, d, n, hm, hd, rfl, hmerged.trans hnotified, hcreated⟩

theorem eq_of_ofReply_moved {reply : Reply Transition}
    (h : Outcome.ofReply .moved reply = (.moved t, net')) : reply = (.ok t, net') := by
  obtain ⟨result, n⟩ := reply
  cases result with
  | error cause => exact absurd h nofun
  | ok t₀ =>
    cases h
    rfl

/-- A job that is taken or finished changes the network at its two ends. Then the tracks are
    re-validated, and the stations to notify are read off the report. -/
theorem exists_of_moved {action : Action} (hsafe : net.Safe) (hnumbered : net.Numbered)
    (h : net.perform (.request action user id) = .ok (.moved t, net')) :
    ∃ (j : Job) (n : Network), net.job? id = .ok (some j) ∧ n.Safe ∧ n.Numbered ∧
      (∀ c, c ≠ j.origin → c ≠ j.destination → n.station? c = net.station? c) ∧
      net' = n.revalidate.2 ∧
      t.notified = net'.affectedStations j.origin j.destination n.revalidate.1.stations := by
  have hanswered := perform_request h
  cases hanswered with
  | @granted place j _ _ hjob hcause hj hid _ _ =>
    have horigin : j.origin = place.1 := (hsafe.fits place j hj).1
    obtain ⟨q, hq, -, hmodify, hremove⟩ := exists_jobAt?_of_job? hjob
    obtain rfl : q = place := hnumbered.place_eq hq hj rfl
    cases action with
    | reserve =>
      obtain ⟨⟨result, n⟩, -, h⟩ := Faulty.bind_eq_ok_iff.1 h
      cases result <;> exact absurd h nofun
    | take =>
      obtain ⟨reply, hr, h⟩ := Faulty.bind_eq_ok_iff.1 h
      rw [eq_of_ofReply_moved (Except.ok.inj h)] at hr
      obtain ⟨track, n, htrack, hn, hnet', hnotified, -⟩ := take_eq_ok hjob hcause hr
      cases (hmodify _).symm.trans hn
      have hclaimed : net.Claimed user q j .take _ := .take htrack
      refine ⟨j, _, hjob, hsafe.claimed hj hcause hclaimed, hnumbered.claimed hj hclaimed, ?_,
        hnet', hnotified⟩
      exact fun c hc _ => hclaimed.station?_eq (horigin ▸ hc)
    | finish =>
      obtain ⟨reply, hr, h⟩ := Faulty.bind_eq_ok_iff.1 h
      rw [eq_of_ofReply_moved (Except.ok.inj h)] at hr
      obtain ⟨m, d, n, hm, hd, hnet', hnotified, -⟩ := finish_eq_ok hjob hcause hr
      cases hremove.symm.trans hm
      have hclaimed : net.Claimed user q j .finish (net.removeJobAt q) := .finish
      have hremoved := hsafe.claimed hj hcause hclaimed
      have hcars := (hsafe.fits_of_mem (mem_jobs_of_jobAt? hj)).cars_le
      have hup := dispatch_upkeptAt hremoved.filed hcars hd
      refine ⟨j, n, hjob, hremoved.upkept hup.upkept,
        (hnumbered.claimed hj hclaimed).upkept hremoved.filed hup.upkept, ?_, hnet', hnotified⟩
      exact fun c hc hc' => (hup.station?_eq hc').trans (hclaimed.station?_eq (horigin ▸ hc))

end Network

/-- A station at which other jobs are shown after a job was taken or finished is notified if it
    is one of the two ends of the job, or if it has a job bound for the destination, and not
    otherwise. -/
theorem Reachable.mem_notified_iff {config : Config} {net net' : Network} {action : Action}
    {user : User} {id : JobId} {t : Transition} {code : StationCode} (h : Reachable config net)
    (hp : net.perform (.request action user id) = .ok (.moved t, net'))
    (hne : (net'.visibleJobs code none).map Job.view ≠ (net.visibleJobs code none).map Job.view) :
    ∃ j, net.job? id = .ok (some j) ∧
      (code ∈ t.notified ↔ code = j.origin ∨ code = j.destination ∨
        ∃ k ∈ net'.queueOf code, k.destination = j.destination) := by
  obtain ⟨j, n, hjob, hsafe, hnumbered, hsame, rfl, hnotified⟩ :=
    Network.exists_of_moved h.safe h.numbered hp
  refine ⟨j, hjob, ?_⟩
  rw [hnotified, Network.mem_affectedStations]
  by_cases horigin : code = j.origin
  · simp [horigin]
  by_cases hdestination : code = j.destination
  · simp [hdestination]
  -- Elsewhere a job can only have been moved by the re-validation, which reports it.
  have hreported : code ∈ n.revalidate.1.stations := by
    refine Network.mem_revalidate_stations hsafe hnumbered fun hshown => hne ?_
    have hbefore : n.visibleJobs code none = net.visibleJobs code none := by
      rw [Network.visibleJobs, Network.visibleJobs, hsame code horigin hdestination]
    rw [hshown, hbefore]
  simp [hreported]

/-- A run in which a haul is under way, while another one waits for the only storage track at
    its destination. -/
def haulRun (origin destination : StationCode) : List Operation :=
  let haul := JobId.of origin .logistics 1
  [.addStation .csw 1 2, .addStation .cm 1 2, .addStation .ff 1 2, .addStation .sm 1 2,
    .createJob origin .logistics destination 1 .coal 1, .createJob .sm .logistics .csw 1 .coal 1,
    .revalidate, .request .reserve .bob haul, .request .take .bob haul]

/-- The finish of the haul that is under way. -/
def haul (origin : StationCode) : Operation := .request .finish .bob (.of origin .logistics 1)

/-- The haul arrives at the storage track that the other one waits for. The other one spawns,
    and as it is bound for the same station, the station that it starts from is notified. -/
theorem haulRun_mem_notified_iff :
    ∃ net t net', (Network.empty {}).performAll (haulRun .ff .csw) = .ok net ∧
      net.perform (haul .ff) = .ok (.moved t, net') ∧
      (net'.visibleJobs .sm none).map Job.view ≠ (net.visibleJobs .sm none).map Job.view ∧
      (∃ k ∈ net'.queueOf .sm, k.destination = .csw) ∧
      ∃ j, net.job? (.of .ff .logistics 1) = .ok (some j) ∧
        (.sm ∈ t.notified ↔ .sm = j.origin ∨ .sm = j.destination ∨
          ∃ k ∈ net'.queueOf .sm, k.destination = j.destination) := by
  obtain ⟨net, outcome, net', hrun, hreachable, hp, h⟩ :=
    exists_reachable_perform {} (haulRun .ff .csw) (haul .ff)
      (fun net outcome net' => outcome matches .moved _ &&
        ((net'.visibleJobs .sm none).map Job.view ≠ (net.visibleJobs .sm none).map Job.view ∧
          ∃ k ∈ net'.queueOf .sm, k.destination = .csw)) (by decide +kernel)
  cases outcome with
  | moved t =>
    obtain ⟨hne, hbound⟩ := of_decide_eq_true h
    exact ⟨net, t, net', hrun, hp, hne, hbound, hreachable.mem_notified_iff hp hne⟩
  | _ => exact absurd h nofun

/-- The haul leaves the storage track that the other one waits for. The other one spawns, but
    the station that it starts from is not notified. -/
theorem haulRun_not_notified :
    ∃ net t net', (Network.empty {}).performAll (haulRun .csw .cm) = .ok net ∧ Reachable {} net ∧
      net.perform (haul .csw) = .ok (.moved t, net') ∧
      (net'.visibleJobs .sm none).map Job.view ≠ (net.visibleJobs .sm none).map Job.view ∧
      .sm ∉ t.notified := by
  obtain ⟨net, outcome, net', hrun, hreachable, hp, h⟩ :=
    exists_reachable_perform {} (haulRun .csw .cm) (haul .csw)
      (fun net outcome net' => outcome matches .moved _ &&
        ((net'.visibleJobs .sm none).map Job.view ≠ (net.visibleJobs .sm none).map Job.view ∧
          (net.jobs.find? (·.id = .of .csw .logistics 1)).map (fun j => (j.origin, j.destination)) =
            some (.csw, .cm) ∧
          ∀ k ∈ net'.queueOf .sm, k.destination ≠ .cm)) (by decide +kernel)
  cases outcome with
  | moved t =>
    obtain ⟨hne, hends, hbound⟩ := of_decide_eq_true h
    refine ⟨net, t, net', hrun, hreachable, hp, hne, ?_⟩
    obtain ⟨j, n, hjob, -, -, -, -, hnotified⟩ :=
      Network.exists_of_moved hreachable.safe hreachable.numbered hp
    rw [hreachable.numbered.job?_eq_find? hreachable.safe.filed] at hjob
    rw [Except.ok.inj hjob] at hends
    obtain ⟨horigin, hdestination⟩ := Prod.mk.inj (Option.some.inj hends)
    rw [hnotified, Network.mem_affectedStations, horigin, hdestination]
    rintro (he | he | ⟨-, k, hk, he⟩)
    · exact absurd he (by decide)
    · exact absurd he (by decide)
    · exact hbound k hk he
  | _ => exact absurd h nofun

end RailFreight
