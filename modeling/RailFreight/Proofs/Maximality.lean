import RailFreight.Proofs.Pools

/-!
# Maximality of the assignment of tracks

A re-validation looks at one job at a time, and at the first free track of its origin only. Yet
when it ends with a round that changes no job, the tracks could not be assigned to more jobs:
such a round has decided about every job, of whichever kind, on one and the same network. A
queued job was then kept because no two different tracks were free for it, and not just because
the first free track of its origin was an unfortunate choice. For if the first free track of
the origin is also the only one left at the destination, then both ends are one pool, and there
is one free track in it.

* `Network.EndsSettled`: a re-validation that ends with a round that changes no job;
* `Network.EndsSettled.settled`: the network that it ends in is settled;
* `Network.Settled.forall_eq_of_queued`: which tracks are free for a job that is left queued;
* `Reachable.revalidate_maximal`: what a settled re-validation leaves of each job.
-/

namespace RailFreight

namespace Network

variable {net : Network} {j : Job} {o d : Track}

/-! ## The last round -/

/-- The rounds that were run are as many as are counted. -/
theorem rounds_snd_eq_iterate (net : Network) (limit : Nat) :
    (net.rounds limit).2 = afterRound^[(net.rounds limit).1] net := by
  induction limit generalizing net with
  | zero => rfl
  | succ limit ih =>
    by_cases h : net.Settled
    · rw [rounds_succ_of_settled h]
      exact h.afterRound_eq.symm
    · rw [rounds_succ_of_not_settled h, ih, Function.iterate_succ_apply]

/-- The last round of the re-validation changes no job. -/
def EndsSettled (net : Network) : Prop :=
  ∃ n, net.revalidate.1.rounds = n + 1 ∧ (afterRound^[n] net).Settled

/-- A last round that changes no job leaves a settled network. -/
theorem EndsSettled.settled (h : net.EndsSettled) : net.revalidate.2.Settled := by
  obtain ⟨n, hn, hsettled⟩ := h
  have hlast : net.revalidate.2 = afterRound^[net.revalidate.1.rounds] net :=
    rounds_snd_eq_iterate net (net.jobCount + 2)
  rw [hlast, hn, Function.iterate_succ_apply', hsettled.afterRound_eq]
  exact hsettled

/-! ## Settled networks -/

/-- For a job that is left queued there are no two different free tracks. -/
theorem Settled.forall_eq_of_queued (h : net.Settled) (hs : net.Safe) (hj : j ∈ net.jobs)
    (hqueued : ¬ j.isSpawned) (ho : o ∈ tracksOf j.origin j.kind.originRole) (hofree : net.isFree o)
    (hd : d ∈ tracksOf j.destination j.kind.destinationRole) (hdfree : net.isFree d) : o = d := by
  have ha : ¬ j.isActive := by
    rw [Job.isActive, ((hs.fits_of_mem hj).queued hqueued).2]
    exact nofun
  have hkeep := (decision_eq_keep_iff_of_queued ha hqueued).1 (settled_iff.1 h j hj)
  rcases hfirst : net.firstFree? j.origin j.kind.originRole with _ | first
  · exact absurd hofree (firstFree?_eq_none_iff.1 hfirst o ho)
  -- The first free track of the origin is the only free one of the destination.
  have honly : ∀ t ∈ tracksOf j.destination j.kind.destinationRole, net.isFree t → t = first := by
    intro t ht hfree
    exact Option.some.inj (firstFreeExcept?_eq_none_iff.1 (hkeep first hfirst) t ht hfree)
  obtain rfl : d = first := honly d hd hdfree
  -- So both ends are one pool, and `o` is in it as well.
  have hpool : j.originPool = j.destinationPool :=
    (pool_eq_of_mem_tracksOf (firstFree?_eq_some hfirst).1).symm.trans (pool_eq_of_mem_tracksOf hd)
  obtain ⟨horigin, hrole⟩ := Prod.mk.inj hpool
  rw [horigin, hrole] at ho
  exact honly o ho hofree

/-- A job that is left spawned has a free proposal, or it is reserved and no track of its
    destination is free. -/
theorem Settled.free_of_spawned (h : net.Settled) (hj : j ∈ net.jobs) (hs : j.isSpawned)
    (ha : ¬ j.isActive) :
    (∃ t, j.proposedTrack = some t ∧ net.isFree t) ∨
      j.isReserved ∧ ∀ t ∈ tracksOf j.destination j.kind.destinationRole, ¬ net.isFree t := by
  rcases (decision_eq_keep_iff_of_spawned ha hs).1 (settled_iff.1 h j hj) with hp | ⟨hnone, hr⟩
  · exact .inl ((Option.any_eq_true _ _).1 hp)
  · exact .inr ⟨hr, firstFree?_eq_none_iff.1 hnone⟩

end Network

/-- When a re-validation ends with a round that changes no job, it has left no job in the queue
    for which there are two different free tracks, every spawned job that is open has a free
    proposal, and a reserved one has, unless no track of its destination is free. -/
theorem Reachable.revalidate_maximal {config : Config} {net : Network} (h : Reachable config net)
    (hend : net.EndsSettled) :
    ∀ j ∈ net.revalidate.2.jobs,
      (¬ j.isSpawned → ¬ ∃ o ∈ tracksOf j.origin j.kind.originRole,
        ∃ d ∈ tracksOf j.destination j.kind.destinationRole,
          o ≠ d ∧ net.revalidate.2.isFree o ∧ net.revalidate.2.isFree d) ∧
      (j.isSpawned → ¬ j.isActive → ¬ j.isReserved →
        ∃ t, j.proposedTrack = some t ∧ net.revalidate.2.isFree t) ∧
      (j.isSpawned → ¬ j.isActive → j.isReserved →
        (∃ t, j.proposedTrack = some t ∧ net.revalidate.2.isFree t) ∨
          ∀ t ∈ tracksOf j.destination j.kind.destinationRole, ¬ net.revalidate.2.isFree t) := by
  have hsettled := hend.settled
  have hsafe := h.safe.later net.revalidate_later
  intro j hj
  refine ⟨?_, fun hs ha hr => ?_, fun hs ha _ => ?_⟩
  · rintro hqueued ⟨o, ho, d, hd, hne, hofree, hdfree⟩
    exact hne (hsettled.forall_eq_of_queued hsafe hj hqueued ho hofree hd hdfree)
  · exact (hsettled.free_of_spawned hj hs ha).resolve_right fun hres => hr hres.1
  · exact (hsettled.free_of_spawned hj hs ha).imp_right And.right

/-- A run that fills the yards of a mine: two of its loads are under way on both output tracks,
    a third one is reserved, and a fourth one has no storage track. A mill gets a load of its
    own. -/
def crowdedRun : List Operation :=
  let load := JobId.of .cm .shuntingLoad
  (.addStation .cm 1 3 :: .addStation .sm 1 3 ::
    List.replicate 4 (.createJob .cm .shuntingLoad .cm 2 .coal 5)) ++
  (.revalidate :: [1, 2, 3].map fun n => .request .reserve .bob (load n)) ++
  [.request .take .bob (load 1), .request .take .bob (load 2),
    .createJob .sm .shuntingLoad .sm 1 .steelRolls 5]

/-- The load of the mill spawns in the first of two rounds, the third load of the mine keeps its
    track although both outputs are held, and the fourth one stays queued. -/
theorem crowdedRun_revalidate_maximal :
    ∃ net, (Network.empty {}).performAll crowdedRun = .ok net ∧ net.revalidate.1.rounds = 2 ∧
      net.EndsSettled ∧
      (net.revalidate.2.jobs.map fun j => (j.isSpawned, j.isActive, j.isReserved)) =
        [(true, true, true), (true, true, true), (true, false, true), (false, false, false),
          (true, false, false)] ∧
      ∀ j ∈ net.revalidate.2.jobs,
        (¬ j.isSpawned → ¬ ∃ o ∈ tracksOf j.origin j.kind.originRole,
          ∃ d ∈ tracksOf j.destination j.kind.destinationRole,
            o ≠ d ∧ net.revalidate.2.isFree o ∧ net.revalidate.2.isFree d) ∧
        (j.isSpawned → ¬ j.isActive → ¬ j.isReserved →
          ∃ t, j.proposedTrack = some t ∧ net.revalidate.2.isFree t) ∧
        (j.isSpawned → ¬ j.isActive → j.isReserved →
          (∃ t, j.proposedTrack = some t ∧ net.revalidate.2.isFree t) ∨
            ∀ t ∈ tracksOf j.destination j.kind.destinationRole,
              ¬ net.revalidate.2.isFree t) := by
  obtain ⟨net, hrun, hreachable, h⟩ := exists_reachable {} crowdedRun
    (fun net => net.revalidate.1.rounds = 2 ∧ net.afterRound.Settled ∧
      (net.revalidate.2.jobs.map fun j => (j.isSpawned, j.isActive, j.isReserved)) =
        [(true, true, true), (true, true, true), (true, false, true), (false, false, false),
          (true, false, false)]) (by decide +kernel)
  obtain ⟨hrounds, hsettled, hjobs⟩ := of_decide_eq_true h
  have hend : net.EndsSettled := ⟨1, hrounds, hsettled⟩
  exact ⟨net, hrun, hrounds, hend, hjobs, hreachable.revalidate_maximal hend⟩

end RailFreight
