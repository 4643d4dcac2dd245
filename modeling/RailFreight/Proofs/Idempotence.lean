import RailFreight.Proofs.Numbering
import Mathlib.Dynamics.PeriodicPts.Defs

/-!
# Re-validating twice

A re-validation that ends with a round that changes nothing leaves a settled network, and to
re-validate it again changes nothing. But the rounds are cut off at their bound, and they need
not settle: where jobs feed each other's tracks in a circle, they can run in a circle
themselves. Then the second re-validation goes on where the first was cut off, and it brings
the network back only if the number of rounds is a multiple of the length of the circle.

* `Network.settled_iff_afterRound_eq`: a round that changes a job changes the network, for no
  job is visited twice in its turn;
* `Network.moved_self`: where the jobs are the same, no movement is reported;
* `Reachable.revalidate_revalidate_iff`: when a second re-validation reports nothing and
  changes no job;
* `circularRun_not_idempotent`: three jobs whose rounds do not settle.
-/

namespace RailFreight

variable {net : Network} {place : Place} {j : Job} {vs : List (JobKind × Place)}

namespace Network

/-! ## Rounds that change a job -/

/-- A decision that is not to keep the job changes it. -/
theorem after_decision_ne (h : net.decision j ≠ .keep) : j.after (net.decision j) ≠ j := by
  have hd := net.decided j
  generalize hdec : net.decision j = d at hd ⊢
  intro he
  cases hd with
  | active | proposed | reserved | full | blocked => exact h hdec
  | spawn _ hs => exact hs (congrArg Job.isSpawned he ▸ rfl)
  | @retarget t ha hs ht =>
    -- The job would have the new proposal already, and that is free.
    have hp : j.proposedTrack = some t := (congrArg Job.proposedTrack he).symm
    refine h ((decision_eq_keep_iff_of_spawned ha hs).2 (.inl ?_))
    rw [hp, Option.any_some]
    exact (firstFree?_eq_some ht).2
  | despawn _ hs =>
    rw [← he] at hs
    exact absurd hs nofun

/-- Visits that are not to a job in its turn leave it alone. -/
theorem jobAt?_visitAll_of_notMem (hv : (j.kind, place) ∉ vs) (hj : net.jobAt? place = some j) :
    (net.visitAll vs).2.jobAt? place = some j := by
  induction vs generalizing net with
  | nil => exact hj
  | cons v vs ih =>
    obtain ⟨hne, hv⟩ := not_or.1 (mt List.mem_cons.2 hv)
    have hnext : (net.visit v).2.jobAt? place = some j := by
      rw [jobAt?_visit hj, if_neg (Ne.symm hne)]
    exact ih hv hnext

/-- Visits, each made once, leave the network as it is only when they report no change. -/
theorem visitAll_snd_eq_self_iff (hnodup : vs.Nodup) :
    (net.visitAll vs).2 = net ↔ (net.visitAll vs).1 = false := by
  refine ⟨?_, visitAll_snd_eq_self⟩
  intro h
  induction vs with
  | nil => rfl
  | cons v vs ih =>
    obtain ⟨hv, hnodup⟩ := List.nodup_cons.1 hnodup
    have hvs : ((net.visit v).2.visitAll vs).2 = net := h
    show ((net.visit v).1 || ((net.visit v).2.visitAll vs).1) = false
    by_cases hj : ∃ j, net.jobAt? v.2 = some j ∧ j.kind = v.1
    · obtain ⟨j, hj, hk⟩ := hj
      have hturn : v = (j.kind, v.2) := Prod.ext hk.symm rfl
      have hafter : (net.visit v).2.jobAt? v.2 = some (j.after (net.decision j)) := by
        rw [jobAt?_visit hj, if_pos hturn]
      have hkind : (j.after (net.decision j)).kind = v.1 := by
        rw [← hk]
        cases net.decision j <;> rfl
      -- The job is not visited again, so it ends as the visit has left it.
      have hnext : ((j.after (net.decision j)).kind, v.2) ∉ vs := hkind ▸ hv
      have hend := jobAt?_visitAll_of_notMem hnext hafter
      rw [hvs, hj] at hend
      have hkeep : net.decision j = .keep := by
        by_contra hne
        exact after_decision_ne hne (Option.some.inj hend).symm
      have hsame : net.visit v = (false, net) := by
        rw [visit_of_jobAt? hj hk, hkeep]
        exact Prod.ext rfl (modifyJobAt_eq_self hj rfl)
      rw [hsame] at hvs ⊢
      exact ih hnodup hvs
    · have hsame := visit_eq_self fun j h hk => hj ⟨j, h, hk⟩
      rw [hsame] at hvs ⊢
      exact ih hnodup hvs

theorem nodup_visits (net : Network) : net.visits.Nodup := by
  rw [visits, List.nodup_flatMap]
  refine ⟨fun kind _ => net.nodup_places.map fun _ _ h => (Prod.mk.inj h).2, ?_⟩
  have horder : JobKind.assignmentOrder.Nodup := by decide
  refine horder.imp fun {a b} hab => ?_
  rintro v ha hb
  obtain ⟨_, -, rfl⟩ := List.mem_map.1 ha
  obtain ⟨_, -, he⟩ := List.mem_map.1 hb
  exact hab (Prod.mk.inj he).1.symm

/-- A network is settled when a round brings it back at once. -/
theorem settled_iff_afterRound_eq : net.Settled ↔ net.afterRound = net :=
  (visitAll_snd_eq_self_iff net.nodup_visits).symm

/-! ## Reports -/

/-- Where the jobs are the same, no movement is reported. -/
theorem moved_self (h : net.Numbered) (m : Movement) : moved net.jobs net.jobs m = [] := by
  rw [moved, List.map_eq_nil_iff, List.filter_eq_nil_iff]
  intro j hj
  have hnone : movement? net.jobs j = none := by
    rw [movement?, h.find?_id hj, Option.bind_some, Movement.between?]
    cases j.isSpawned <;> simp
  rw [hnone]
  simp

theorem isEmpty_of_jobs_eq (h : net.Numbered) (hjobs : net.revalidate.2.jobs = net.jobs) :
    net.revalidate.1.isEmpty := by
  have hmoved : ∀ m, moved net.jobs net.revalidate.2.jobs m = [] := by
    intro m
    rw [hjobs]
    exact moved_self h m
  show ((moved net.jobs net.revalidate.2.jobs .spawned).isEmpty &&
    (moved net.jobs net.revalidate.2.jobs .despawned).isEmpty &&
    (moved net.jobs net.revalidate.2.jobs .retargeted).isEmpty) = true
  rw [hmoved, hmoved, hmoved]
  rfl

/-- A re-validation changes no job exactly when its rounds bring the network back. -/
theorem revalidate_jobs_eq_iff :
    net.revalidate.2.jobs = net.jobs ↔
      Function.IsPeriodicPt afterRound (net.jobCount + 2) net := by
  rw [Function.IsPeriodicPt, Function.IsFixedPt, ← revalidate_snd]
  exact ⟨net.revalidate_later.alike.eq_of_jobs, congrArg jobs⟩

end Network

/-- In a reachable network, a second re-validation reports nothing and changes no job exactly
    when the length of the circle that the rounds run in, from where the first one ended,
    divides their bound. The circle has length one when the first one has settled. -/
theorem Reachable.revalidate_revalidate_iff {config : Config} (h : Reachable config net) :
    (net.revalidate.2.revalidate.1.isEmpty ∧
        net.revalidate.2.revalidate.2.jobs = net.revalidate.2.jobs ↔
      Function.minimalPeriod Network.afterRound net.revalidate.2 ∣ net.jobCount + 2) ∧
    (net.revalidate.2.Settled ↔
      Function.minimalPeriod Network.afterRound net.revalidate.2 = 1) := by
  have hnumbered : net.revalidate.2.Numbered :=
    h.numbered.upkept h.safe.filed (Network.revalidate_upkept net)
  constructor
  · rw [← Function.isPeriodicPt_iff_minimalPeriod_dvd, ← net.revalidate_later.alike.jobCount_eq,
      ← Network.revalidate_jobs_eq_iff]
    exact ⟨And.right, fun hjobs => ⟨Network.isEmpty_of_jobs_eq hnumbered hjobs, hjobs⟩⟩
  · rw [Function.minimalPeriod_eq_one_iff_isFixedPt]
    exact Network.settled_iff_afterRound_eq

/-- A run with three jobs that feed each other's tracks in a circle. -/
def circularRun : List Operation :=
  [.addStation .csw 1 2, .addStation .cm 1 2, .createJob .cm .shuntingUnload .csw 1 .coal 1,
    .createJob .csw .freight .cm 1 .coal 1, .createJob .csw .shuntingLoad .csw 1 .coal 1]

/-- The rounds of the three jobs do not settle: the second re-validation spawns one of them
    and puts the other two back into the queue. -/
theorem circularRun_not_idempotent :
    ∃ net, (Network.empty {}).performAll circularRun = .ok net ∧ Reachable {} net ∧
      net.revalidate.2.revalidate.1.spawned = [.of .csw .freight 1] ∧
      net.revalidate.2.revalidate.1.despawned =
        [.of .csw .shuntingLoad 2, .of .cm .shuntingUnload 1] ∧
      net.revalidate.2.revalidate.2.jobs ≠ net.revalidate.2.jobs := by
  obtain ⟨net, hrun, hreachable, h⟩ := exists_reachable {} circularRun
    (fun net => net.revalidate.2.revalidate.1.spawned = [.of .csw .freight 1] ∧
      net.revalidate.2.revalidate.1.despawned =
        [.of .csw .shuntingLoad 2, .of .cm .shuntingUnload 1] ∧
      net.revalidate.2.revalidate.2.jobs ≠ net.revalidate.2.jobs) (by decide +kernel)
  exact ⟨net, hrun, hreachable, by simpa using h⟩

/-- The rounds of the three jobs run in a circle of two. -/
theorem circularRun_revalidate_revalidate_iff :
    ∃ net, (Network.empty {}).performAll circularRun = .ok net ∧ Reachable {} net ∧
      net.revalidate.2.afterRound.afterRound = net.revalidate.2 ∧
      (net.revalidate.2.revalidate.1.isEmpty ∧
          net.revalidate.2.revalidate.2.jobs = net.revalidate.2.jobs ↔
        Function.minimalPeriod Network.afterRound net.revalidate.2 ∣ net.jobCount + 2) ∧
      (net.revalidate.2.Settled ↔
        Function.minimalPeriod Network.afterRound net.revalidate.2 = 1) := by
  obtain ⟨net, hrun, hreachable, h⟩ := exists_reachable {} circularRun
    (fun net => net.revalidate.2.afterRound.afterRound = net.revalidate.2) (by decide +kernel)
  exact ⟨net, hrun, hreachable, by simpa using h, hreachable.revalidate_revalidate_iff⟩

end RailFreight
