import RailFreight.Proofs.Pools
import Mathlib.Data.Fintype.Card
import Mathlib.Data.Fintype.EquivFin
import Mathlib.Data.Fintype.Sets
import Mathlib.Order.WellFounded
import Mathlib.Data.Finset.Basic

/-!
# Re-validation settles

Where the pools of tracks do not feed each other in a circle, re-validation settles before its
rounds are cut off. The pools get quiet one after the other, each one after those that it
feeds, and to get quiet it takes a pool no more rounds than there are jobs that start from it
and are not active:

* without such a job, the pool is quiet already;
* a single one is settled by the visit of one round, for no other job sets tracks of the pool
  free or takes them;
* with more of them, the first round puts those back into the queue that have nothing to be
  bound for; from then on no track of the pool gets free, so the second round settles them.

* `Network.Next.exists_quiet`: the rounds that a pool takes;
* `Network.exists_quiet`: the rounds that all pools take, one after the other;
* `Reachable.revalidate_settles`: the round that changes nothing comes within the bound.
-/

namespace RailFreight

/-- Among finitely many elements of a relation without circles there is one that is related to
    none of them. -/
theorem exists_mem_forall_notMem {α : Type} {r : α → α → Prop}
    (h : ∀ a, ¬ Relation.TransGen r a a) {s : Finset α} (hs : s.Nonempty) :
    ∃ a ∈ s, ∀ b, r a b → b ∉ s := by
  let below : s → s → Prop := fun b a => Relation.TransGen r a b
  have htrans : IsTrans _ below := ⟨fun _ _ _ hab hbc => Relation.TransGen.trans hbc hab⟩
  have hirrefl : Std.Irrefl below := ⟨fun a => h a⟩
  obtain ⟨a, ha⟩ := hs
  obtain ⟨b, -, hb⟩ :=
    (Finite.wellFounded_of_trans_of_irrefl below).has_min Set.univ ⟨⟨a, ha⟩, trivial⟩
  exact ⟨b, b.2, fun c hbc hc => hb ⟨c, hc⟩ trivial (.single hbc)⟩

namespace Network

variable {net net' : Network} {place : Place} {j : Job} {A : Set Pool} {p : Pool}
  {R : Finset Pool}

/-- The pools do not feed each other in a circle. -/
def Acyclic (net : Network) : Prop := ∀ p, ¬ Relation.TransGen net.Feeds p p

/-- Where every job that is not active leads up, there are no circles. -/
theorem acyclic_of_lt (height : Pool → Nat)
    (h : ∀ j ∈ net.jobs, ¬ j.isActive → height j.originPool < height j.destinationPool) :
    net.Acyclic := by
  have hfeeds : ∀ p q, net.Feeds p q → height p < height q := by
    rintro p q ⟨j, hj, ha, rfl, rfl⟩
    exact h j hj ha
  have hlt : ∀ p q, Relation.TransGen net.Feeds p q → height p < height q := by
    intro p q hpq
    induction hpq with
    | single hp => exact hfeeds _ _ hp
    | tail _ hq ih => exact ih.trans (hfeeds _ _ hq)
  exact fun p hp => Nat.lt_irrefl _ (hlt p p hp)

/-- How many jobs that are not active start from these pools. -/
def waiting (net : Network) (R : Finset Pool) : Nat :=
  net.jobs.countP fun j => !j.isActive && j.originPool ∈ R

theorem Alike.acyclic (h : net.Alike net') (hacyclic : net.Acyclic) : net'.Acyclic :=
  fun p hp => hacyclic p (Relation.TransGen.mono (fun _ _ => h.symm.feeds) p p hp)

theorem Alike.waiting_eq (h : net.Alike net') (R : Finset Pool) :
    net'.waiting R = net.waiting R := by
  have hcount : ∀ n : Network, n.waiting R =
      (n.jobs.map Job.untracked).countP fun j => !j.isActive && j.originPool ∈ R := by
    intro n
    rw [List.countP_map]
    rfl
  rw [hcount, hcount, h.jobs_eq]

theorem waiting_erase (net : Network) (hp : p ∈ R) :
    net.waiting {p} + net.waiting (R.erase p) = net.waiting R := by
  rw [waiting, waiting, waiting]
  induction net.jobs with
  | nil => rfl
  | cons j jobs ih =>
    simp only [List.countP_cons]
    rw [← ih]
    by_cases hj : j.originPool = p
    · cases j.isActive <;> simp [hj, hp]
      omega
    · cases j.isActive <;> simp [hj]
      omega

theorem waiting_le (net : Network) (R : Finset Pool) : net.waiting R ≤ net.jobCount :=
  List.countP_le_length

/-- Two jobs at different places count twice. -/
theorem two_le_waiting {q : Place} {k : Job} (hj : net.jobAt? place = some j)
    (hk : net.jobAt? q = some k) (hne : place ≠ q) (hja : ¬ j.isActive) (hka : ¬ k.isActive)
    (hjR : j.originPool ∈ R) (hkR : k.originPool ∈ R) : 2 ≤ net.waiting R := by
  let counted : Job → Bool := fun j => !j.isActive && j.originPool ∈ R
  -- Count the places instead of the jobs: these are different where the jobs may be equal.
  have hcount : net.waiting R = (net.places.filter fun x => (net.jobAt? x).any counted).length := by
    rw [← List.countP_eq_length_filter]
    calc net.waiting R = (net.jobs.map some).countP (Option.any counted) := by
          rw [List.countP_map]
          rfl
      _ = _ := by
          rw [jobs_map_some, List.countP_map]
          rfl
  rw [hcount]
  have hsub : [place, q] ⊆ net.places.filter fun x => (net.jobAt? x).any counted := by
    have hmem : ∀ x k, net.jobAt? x = some k → ¬ k.isActive → k.originPool ∈ R →
        x ∈ net.places.filter fun x => (net.jobAt? x).any counted := by
      intro x k hk ha hR
      refine List.mem_filter.2 ⟨mem_places_iff.2 ⟨k, hk⟩, ?_⟩
      rw [hk, Option.any_some]
      simp [counted, ha, hR]
    intro x hx
    rcases List.mem_pair.1 hx with rfl | rfl
    · exact hmem _ j hj hja hjR
    · exact hmem _ k hk hka hkR
  exact (List.Nodup.subperm (by simp [hne]) hsub).length_le

/-! ## One pool -/

namespace Next

/-- In a round there is a time when the job at a place of the pool has just been settled. -/
theorem exists_kept (h : net.Next A p) (hp : net.Waits p place) :
    ∃ mid, net.Later mid ∧ mid.Kept place ∧ mid.Later net.afterRound := by
  obtain ⟨j, hj, -, hjp⟩ := hp
  have hv : (j.kind, place) ∈ net.visits := mem_visits_iff.2 (mem_places_iff.2 ⟨j, hj⟩)
  obtain ⟨mid, hl, hl'⟩ := exists_visit_of_mem hv
  obtain ⟨k, hk, hu⟩ := hl.alike.exists_jobAt? hj
  have hkind : k.untracked.kind = j.untracked.kind := congrArg Job.kind hu
  have hkp : k.untracked.originPool = j.untracked.originPool := congrArg Job.originPool hu
  have hkept := (h.later hl).kept_visit_self hk (hkp.trans hjp)
  rw [show k.kind = j.kind from hkind] at hkept
  exact ⟨_, hl.visit _, hkept, hl'⟩

/-- After a round the spawned jobs of the pool are settled. -/
theorem anchored_afterRound (h : net.Next A p) (hp : net.Waits p place) :
    net.afterRound.Anchored place := by
  obtain ⟨mid, hl, hkept, hl'⟩ := h.exists_kept hp
  exact (h.later hl).anchored_later (hl.alike.waits hp) hkept.anchored hl'

/-- A round makes the pool quiet if the spawned jobs of the pool are settled whenever one of
    its jobs is. -/
theorem quiet_afterRound (h : net.Next A p)
    (hanchored : ∀ mid place, net.Later mid → net.Waits p place → mid.Kept place →
      ∀ z, mid.Waits p z → mid.Anchored z) : net.afterRound.Quiet (insert p A) := by
  refine (h.later net.afterRound_later).quiet_insert ?_
  intro place hp
  have hp' := net.afterRound_later.alike.symm.waits hp
  obtain ⟨mid, hl, hkept, hl'⟩ := h.exists_kept hp'
  exact (h.later hl).kept_later (hanchored mid place hl hp' hkept) (hl.alike.waits hp') hkept hl'

/-- A pool gets quiet within as many rounds as there are jobs that start from it and are not
    active. -/
theorem exists_quiet (h : net.Next A p) :
    ∃ n ≤ net.waiting {p}, (afterRound^[n] net).Quiet (insert p A) := by
  have hcases : net.waiting {p} = 0 ∨ net.waiting {p} = 1 ∨ 2 ≤ net.waiting {p} := by omega
  rcases hcases with hnone | hone | htwo
  · -- All jobs that start from the pool are active.
    refine ⟨0, Nat.zero_le _, h.quiet_insert ?_⟩
    intro place hp
    obtain ⟨j, hj, ha, hjp⟩ := hp
    have hcount := List.countP_eq_zero.1 hnone j (mem_jobs_of_jobAt? hj)
    exact absurd (by simp [ha, hjp]) hcount
  · -- There is no other job that could be spawned.
    refine ⟨1, hone.ge, h.quiet_afterRound ?_⟩
    intro mid place hl hp hkept z hz
    by_cases he : place = z
    · exact he ▸ hkept.anchored
    · obtain ⟨j, hj, hja, hjp⟩ := hl.alike.waits hp
      obtain ⟨k, hk, hka, hkp⟩ := hz
      have htwo := two_le_waiting hj hk he hja hka (R := {p}) (by simp [hjp]) (by simp [hkp])
      rw [hl.alike.waiting_eq, hone] at htwo
      exact absurd htwo (by omega)
  · -- The first round settles the spawned jobs, and the second one the others.
    refine ⟨2, htwo, ?_⟩
    have hfirst := h.later net.afterRound_later
    refine hfirst.quiet_afterRound ?_
    intro mid place hl hp hkept z hz
    have hz' := hl.alike.symm.waits hz
    exact hfirst.anchored_later hz'
      (h.anchored_afterRound (net.afterRound_later.alike.symm.waits hz')) hl

end Next

/-! ## All pools -/

/-- Without circles, all pools get quiet within as many rounds as there are jobs that are not
    active and start from those that are not quiet yet. -/
theorem exists_quiet (R : Finset Pool) (hs : net.Safe) (hacyclic : net.Acyclic)
    (hquiet : net.Quiet {p | p ∉ R}) :
    ∃ n ≤ net.waiting R, (afterRound^[n] net).Quiet Set.univ := by
  induction R using Finset.strongInduction generalizing net with
  | H R ih =>
    rcases R.eq_empty_or_nonempty with rfl | hne
    · exact ⟨0, Nat.zero_le _, fun n hn j hj _ => hquiet n hn j hj (Finset.notMem_empty _)⟩
    -- Of the pools that are left, the next one feeds only pools that are quiet.
    obtain ⟨p, hp, hfeeds⟩ := exists_mem_forall_notMem hacyclic hne
    have hnext : net.Next {q | q ∉ R} p := ⟨hs, hquiet, fun h => h hp, hfeeds⟩
    obtain ⟨n, hn, hquiet'⟩ := hnext.exists_quiet
    have hl := iterate_later net n
    have hinsert : insert p {q | q ∉ R} = {q | q ∉ R.erase p} := by
      ext q
      by_cases hq : q = p <;> simp [hq]
    rw [hinsert] at hquiet'
    obtain ⟨m, hm, hall⟩ :=
      ih (R.erase p) (Finset.erase_ssubset hp) (hs.later hl) (hl.alike.acyclic hacyclic) hquiet'
    refine ⟨m + n, ?_, ?_⟩
    · rw [hl.alike.waiting_eq] at hm
      have hsum := net.waiting_erase hp
      omega
    · rw [Function.iterate_add_apply]
      exact hall

theorem Quiet.settled (h : net.Quiet Set.univ) : net.Settled :=
  settled_iff.2 fun j hj => h net (.refl net) j hj trivial

/-- Without circles, the network settles within as many rounds as it has jobs. -/
theorem exists_settled (hs : net.Safe) (hacyclic : net.Acyclic) :
    ∃ n ≤ net.jobCount, (afterRound^[n] net).Settled := by
  -- A pool that no job starts from is quiet.
  let R : Finset Pool := (net.jobs.map Job.originPool).toFinset
  have hquiet : net.Quiet {p | p ∉ R} := by
    intro n hn j hj hp
    obtain ⟨k, hk, hu⟩ := hn.alike.symm.exists_mem_jobs hj
    have horigin : k.untracked.originPool = j.untracked.originPool := congrArg Job.originPool hu
    exact absurd (List.mem_toFinset.2 (List.mem_map.2 ⟨k, hk, horigin⟩)) hp
  obtain ⟨n, hn, hall⟩ := exists_quiet R hs hacyclic hquiet
  exact ⟨n, hn.trans (net.waiting_le R), hall.settled⟩

end Network

/-- Where the pools do not feed each other in a circle, a re-validation ends with a round that
    changes nothing, and before that it has at most as many rounds as there are jobs. -/
theorem Reachable.revalidate_settles {config : Config} {net : Network} (h : Reachable config net)
    (hacyclic : net.Acyclic) :
    ∃ n ≤ net.jobCount, net.revalidate.1.rounds = n + 1 ∧
      net.revalidate.2 = Network.afterRound^[n] net ∧ (Network.afterRound^[n] net).Settled := by
  obtain ⟨n, hn, hsettled⟩ := Network.exists_settled h.safe hacyclic
  -- The rounds stop at the first settled network, which may come earlier than that.
  let P : Nat → Prop := fun n => (Network.afterRound^[n] net).Settled
  have hex : ∃ n, P n := ⟨n, hsettled⟩
  have hlast : Nat.find hex ≤ net.jobCount := (Nat.find_min' hex hsettled).trans hn
  have hrounds : net.rounds (net.jobCount + 2) =
      (Nat.find hex + 1, Network.afterRound^[Nat.find hex] net) :=
    Network.rounds_eq_of_settled (by omega) (fun i hi => Nat.find_min hex hi) (Nat.find_spec hex)
  refine ⟨Nat.find hex, hlast, ?_, ?_, Nat.find_spec hex⟩
  · exact congrArg Prod.fst hrounds
  · exact congrArg Prod.snd hrounds

/-- The loads of coal lead from storage to output, so their tracks settle. -/
theorem coalRun_revalidate_settles :
    ∃ net, (Network.empty {}).performAll (coalRun.take 3) = .ok net ∧ net.Acyclic ∧
      ∃ n ≤ net.jobCount, net.revalidate.1.rounds = n + 1 ∧
        net.revalidate.2 = Network.afterRound^[n] net ∧ (Network.afterRound^[n] net).Settled := by
  obtain ⟨net, hrun, hreachable, h⟩ := exists_reachable {} (coalRun.take 3)
    (fun net => ∀ j ∈ net.jobs, j.originPool.2 = .storage ∧ j.destinationPool.2 = .output)
    (by decide +kernel)
  have hacyclic : net.Acyclic := by
    refine Network.acyclic_of_lt (fun p => if p.2 = .storage then 0 else 1) fun j hj _ => ?_
    obtain ⟨horigin, hdestination⟩ := of_decide_eq_true h j hj
    simp [horigin, hdestination]
  exact ⟨net, hrun, hacyclic, hreachable.revalidate_settles hacyclic⟩

end RailFreight
