import RailFreight.Proofs.NetEffect
import RailFreight.Proofs.Progress

/-!
# Taking a job

A spawned job proposes a track that it does not hold. When the user who reserved the job takes it,
the proposal may be held by another job; then the first free track of the destination does as well.
So a take fails for want of a track only when all of them are held. The track is claimed before the
tracks are re-validated, and as no re-validation touches an active job, the job has it alone when
the take is over. A request that is refused leaves everything as it is.

* `Network.Safe.trackToClaim?_isSome_iff`: when there is a track to claim;
* `Network.exists_take_ok_iff`: when a take is granted;
* `Network.take_takes`: what a take that is granted does;
* `Reachable.take_granted_iff`: all of this, and refusals, for reachable networks.
-/

namespace RailFreight

namespace Network

variable {net net' : Network} {place : Place} {j k : Job} {user : User} {id : JobId}
  {track : Track} {t : Transition}

/-- With unique ids, what is found by an id is the job that has it. -/
theorem Numbered.job?_eq_some_iff (h : net.Numbered) (hf : net.Filed) :
    net.job? id = .ok (some j) ↔ j ∈ net.jobs ∧ j.id = id := by
  rw [h.job?_eq_find? hf, Except.ok.injEq]
  constructor
  · exact Job.of_find?_id
  · rintro ⟨hj, rfl⟩
    exact h.find?_id hj

/-- No two jobs hold one track. -/
theorem Safe.eq_of_occupies (h : net.Safe) (hj : j ∈ net.jobs) (hk : k ∈ net.jobs)
    (htj : j.occupies track) (htk : k.occupies track) : j = k := by
  by_contra hne
  have : Std.Symm (Function.onFun List.Disjoint Job.occupiedTracks) := ⟨fun _ _ h => h.symm⟩
  have hdisjoint := (List.nodup_flatMap.1 h.nodup).2.forall hj hk hne
  exact hdisjoint (Job.mem_occupiedTracks.2 htj) (Job.mem_occupiedTracks.2 htk)

/-! ## The track to claim -/

theorem trackToClaim?_of_isFree (hp : j.proposedTrack = some track) (hfree : net.isFree track) :
    net.trackToClaim? j = some track := by
  rw [trackToClaim?, hp, Option.filter_some, if_pos hfree, Option.some_or]

theorem trackToClaim?_of_not_isFree (h : ∀ p, j.proposedTrack = some p → ¬ net.isFree p) :
    net.trackToClaim? j = net.firstFree? j.destination j.kind.destinationRole := by
  have hnone : j.proposedTrack.filter net.isFree = none := Option.filter_eq_none_iff.2 h
  rw [trackToClaim?, hnone, Option.none_or]

/-- There is a track to claim when some track of the destination is free, for the proposal is one
    of them. -/
theorem Safe.trackToClaim?_isSome_iff (h : net.Safe) (hj : j ∈ net.jobs) :
    (net.trackToClaim? j).isSome ↔
      ∃ track ∈ tracksOf j.destination j.kind.destinationRole, net.isFree track := by
  constructor
  · intro hsome
    obtain ⟨track, htrack⟩ := Option.isSome_iff_exists.1 hsome
    exact ⟨track, h.trackToClaim?_eq_some hj htrack⟩
  · rintro ⟨track, hmem, hfree⟩
    rw [Option.isSome_iff_ne_none, trackToClaim?, Ne, Option.or_eq_none_iff]
    rintro ⟨-, hnone⟩
    exact firstFree?_eq_none_iff.1 hnone track hmem hfree

/-! ## Takes -/

/-- The job is taken to the track: to its proposal if that is free, and otherwise to the first free
    track of its destination. No job held the track before, and afterwards the job, which is as it
    was otherwise, holds it alone. -/
structure Takes (net : Network) (j : Job) (track : Track) (net' : Network) : Prop where
  proposed : ∀ p, j.proposedTrack = some p → net.isFree p → track = p
  first : (∀ p, j.proposedTrack = some p → ¬ net.isFree p) →
    (net.freeTracks j.destination j.kind.destinationRole).head? = some track
  free : ∀ k ∈ net.jobs, ¬ k.occupies track
  mem : j.activate track ∈ net'.jobs
  alone : ∀ k ∈ net'.jobs, k.occupies track → k = j.activate track

theorem perform_eq_of_reserve {reply : Reply Job} (h : net.reserve user id = .ok reply) :
    net.perform (.request .reserve user id) = .ok (Outcome.ofReply .reserved reply) := by
  rw [perform, h]
  rfl

theorem perform_eq_of_take {reply : Reply Transition} (h : net.take user id = .ok reply) :
    net.perform (.request .take user id) = .ok (Outcome.ofReply .moved reply) := by
  rw [perform, h]
  rfl

theorem perform_eq_of_finish {reply : Reply Transition} (h : net.finish user id = .ok reply) :
    net.perform (.request .finish user id) = .ok (Outcome.ofReply .moved reply) := by
  rw [perform, h]
  rfl

/-- A take is granted when there is no cause to refuse it. -/
theorem exists_take_ok_iff (hsafe : net.Safe) (hnumbered : net.Numbered) :
    (∃ t net', net.take user id = .ok (.ok t, net')) ↔
      ∃ j ∈ net.jobs, j.id = id ∧ net.refusal? .take user id (some j) = none := by
  constructor
  · rintro ⟨t, net', h⟩
    cases perform_take (perform_eq_of_take h) with
    | @granted _ j _ _ hjob hcause =>
      obtain ⟨hj, hid⟩ := (hnumbered.job?_eq_some_iff hsafe.filed).1 hjob
      exact ⟨j, hj, hid, hcause⟩
  · rintro ⟨j, hj, hid, hcause⟩
    obtain ⟨⟨cause | t, net'⟩, h⟩ := exists_take hsafe hnumbered user id
    · have hjob := (hnumbered.job?_eq_some_iff hsafe.filed).2 ⟨hj, hid⟩
      exact absurd ((perform_take (perform_eq_of_take h)).isGrant hjob hcause) nofun
    · exact ⟨t, net', h⟩

/-- An active job is left as it is by the visits of a re-validation. -/
theorem Later.jobAt?_eq_of_isActive (hl : net.Later net') (hj : net.jobAt? place = some j)
    (ha : j.isActive) : net'.jobAt? place = some j := by
  obtain ⟨k, hk, hjk⟩ := hl.exists_retracked hj
  rw [hk, hjk.active ha]

/-- A job that is taken is as it was activated when the tracks have been re-validated. -/
theorem jobAt?_revalidate_activate (hj : net.jobAt? place = some j) (track : Track) :
    (net.modifyJobAt place (·.activate track)).revalidate.2.jobAt? place =
      some (j.activate track) := by
  have hactive : (net.modifyJobAt place (·.activate track)).jobAt? place =
      some (j.activate track) := by
    rw [jobAt?_modifyJobAt, if_pos rfl, hj, Option.map_some]
  exact (revalidate_later _).jobAt?_eq_of_isActive hactive rfl

/-- A take that is granted takes the job to the track that it claims. -/
theorem take_takes (hsafe : net.Safe)
    (h : net.take user id = .ok (.ok t, net')) :
    ∃ j ∈ net.jobs, j.id = id ∧ ∃ track, net.trackToClaim? j = some track ∧
      net.Takes j track net' := by
  cases perform_take (perform_eq_of_take h) with
  | @granted place j _ _ _ hcause hj hid _ hgranted =>
    cases hgranted with
    | @take track htrack =>
      have hmem := mem_jobs_of_jobAt? hj
      have hfree := (hsafe.trackToClaim?_eq_some hmem htrack).2
      have hclaimed : net.Claimed user place j .take _ := .take htrack
      have hsafe' := (hsafe.claimed hj hcause hclaimed).upkept (revalidate_upkept _)
      have htaken := mem_jobs_of_jobAt? (jobAt?_revalidate_activate hj track)
      have hholds : (j.activate track).occupies track := Job.occupies_iff.2 (.inr rfl)
      refine ⟨j, hmem, hid, track, htrack, ?_, ?_, isFree_iff.1 hfree, htaken, ?_⟩
      · intro p hp hpfree
        exact Option.some.inj (htrack.symm.trans (trackToClaim?_of_isFree hp hpfree))
      · intro hheld
        rw [← firstFree?_eq_head?, ← trackToClaim?_of_not_isFree hheld, htrack]
      · intro k hk ht
        exact hsafe'.eq_of_occupies hk htaken ht hholds

end Network

/-- In a reachable network a take is granted exactly when the user has reserved the job, it is
    spawned and not active yet, and some track of its destination is free. It then gets its
    proposal, or the first free track when that is held, and holds it alone. A request that is
    refused leaves the network as it is. -/
theorem Reachable.take_granted_iff {config : Config} {net : Network} (h : Reachable config net) :
    (∀ user id, (∃ t net', net.take user id = .ok (.ok t, net')) ↔
      ∃ j ∈ net.jobs, j.id = id ∧ j.isHeldBy user ∧ ¬ j.isActive ∧ j.isSpawned ∧
        ∃ track ∈ tracksOf j.destination j.kind.destinationRole, net.isFree track) ∧
    (∀ user id t net', net.take user id = .ok (.ok t, net') →
      ∃ j ∈ net.jobs, j.id = id ∧ ∃ track, net.Takes j track net') ∧
    ∀ user id cause net', net.reserve user id = .ok (.error cause, net') ∨
      net.take user id = .ok (.error cause, net') ∨
      net.finish user id = .ok (.error cause, net') → net' = net := by
  refine ⟨fun user id => ?_, fun user id t net' htake => ?_, fun user id cause net' hrefused => ?_⟩
  · rw [Network.exists_take_ok_iff h.safe h.numbered]
    refine exists_congr fun j => and_congr_right fun hj => and_congr_right fun _ => ?_
    rw [Network.refusal?_take_eq_none_iff, h.safe.trackToClaim?_isSome_iff hj]
    exact and_left_comm
  · obtain ⟨j, hj, hid, track, -, htakes⟩ := Network.take_takes h.safe htake
    exact ⟨j, hj, hid, track, htakes⟩
  · rcases hrefused with hr | hr | hr
    · exact (Network.perform_reserve (Network.perform_eq_of_reserve hr)).eq_of_refused
    · exact (Network.perform_take (Network.perform_eq_of_take hr)).eq_of_refused
    · exact (Network.perform_finish (Network.perform_eq_of_finish hr)).eq_of_refused

/-- A run that fills both storage tracks of a sawmill, while a haul there is reserved. Then the mine
    is built anew, and the track that its haul held is free again. -/
def rebuiltRun : List Operation :=
  let haul (origin : StationCode) := JobId.of origin .logistics 1
  [.addStation .cm 1 2, .addStation .gf 1 2, .addStation .sw 1 2, .addStation .sm 1 2,
    .createJob .cm .logistics .sw 1 .coal 1, .createJob .gf .logistics .sw 1 .coal 1,
    .createJob .sm .logistics .sw 1 .coal 1, .revalidate] ++
  [.cm, .gf, .sm].map (fun origin => .request .reserve .bob (haul origin)) ++
  [.cm, .sm].map (fun origin => .request .take .bob (haul origin)) ++ [.addStation .cm 1 2]

/-- The haul that is left proposes the track that the other haul holds, and is taken to the one that
    is free again. -/
theorem rebuiltRun_take_granted_iff :
    ∃ net, (Network.empty {}).performAll rebuiltRun = .ok net ∧ Reachable {} net ∧
      (net.jobs.map fun j => (j.origin, j.proposedTrack.map Track.name)) =
        [(.gf, some "SW-C-04-S"), (.sm, none)] ∧
      ((net.take .bob (.of .gf .logistics 1)).toOption.map fun reply =>
        reply.2.jobs.map fun j => (j.origin, j.destinationTrack.map Track.name)) =
        some [(.gf, some "SW-B-01-S"), (.sm, some "SW-C-04-S")] ∧
      (∀ user id, (∃ t net', net.take user id = .ok (.ok t, net')) ↔
        ∃ j ∈ net.jobs, j.id = id ∧ j.isHeldBy user ∧ ¬ j.isActive ∧ j.isSpawned ∧
          ∃ track ∈ tracksOf j.destination j.kind.destinationRole, net.isFree track) ∧
      (∀ user id t net', net.take user id = .ok (.ok t, net') →
        ∃ j ∈ net.jobs, j.id = id ∧ ∃ track, net.Takes j track net') ∧
      ∀ user id cause net', net.reserve user id = .ok (.error cause, net') ∨
        net.take user id = .ok (.error cause, net') ∨
        net.finish user id = .ok (.error cause, net') → net' = net := by
  obtain ⟨net, hrun, hreachable, h⟩ := exists_reachable {} rebuiltRun
    (fun net => (net.jobs.map fun j => (j.origin, j.proposedTrack.map Track.name)) =
        [(.gf, some "SW-C-04-S"), (.sm, none)] ∧
      ((net.take .bob (.of .gf .logistics 1)).toOption.map fun reply =>
        reply.2.jobs.map fun j => (j.origin, j.destinationTrack.map Track.name)) =
        some [(.gf, some "SW-B-01-S"), (.sm, some "SW-C-04-S")]) (by decide +kernel)
  obtain ⟨hproposed, htaken⟩ := of_decide_eq_true h
  exact ⟨net, hrun, hreachable, hproposed, htaken, hreachable.take_granted_iff⟩

end RailFreight
