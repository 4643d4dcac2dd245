import RailFreight.Proofs.Safety

/-!
# Pools of tracks

The tracks of one role at a station make up a *pool*. A job starts from one pool and is bound
for another: it *feeds* from the first to the second. While tracks are re-validated, jobs that
are not active hold tracks of the pool that they start from and no others, so what a visit to
a job does to the tracks that are free, it does in that pool; and what the decision about a
job depends on is the pool that it is bound for and, while it is queued, the one that it
starts from.

So if the pools that a pool feeds are *quiet*, that is, if the jobs that start from them are
kept whatever is visited, then a visit settles a job of the pool, up to the tracks of the
pool itself: a spawned job is kept from then on, and a queued one as long as no track of the
pool gets free.

* `Network.Quiet.isFree_eq`: the tracks of quiet pools stay free or held;
* `Network.Next.kept_visit_self`: a visit settles a job of the next pool;
* `Network.Next.anchored_later`, `Network.Next.kept_later`: how long it stays settled;
* `Network.Next.quiet_insert`: the next pool is quiet when all its jobs are settled.
-/

namespace RailFreight

/-- The tracks of one role at a station. -/
abbrev Pool := StationCode × TrackRole

/-- The pool that a track belongs to. -/
def Track.pool (t : Track) : Pool := (t.station, t.role)

namespace Job

/-- The pool that the job starts from. -/
def originPool (j : Job) : Pool := (j.origin, j.kind.originRole)

/-- The pool that the job is bound for. -/
def destinationPool (j : Job) : Pool := (j.destination, j.kind.destinationRole)

end Job

variable {net net' : Network} {place : Place} {j k : Job} {t : Track} {A : Set Pool} {p q : Pool}
  {ceiling : Nat} {v : JobKind × Place}

theorem pool_eq_of_mem_tracksOf {station : StationCode} {role : TrackRole}
    (h : t ∈ tracksOf station role) : t.pool = (station, role) :=
  Prod.ext (mem_tracksOf h).1 (mem_tracksOf h).2

/-- A job that is not active holds tracks of its origin pool only. -/
theorem Job.Fits.occupies_eq_false (h : j.Fits ceiling) (ha : ¬ j.isActive)
    (ht : t.pool ≠ j.originPool) : j.occupies t = false := by
  rw [Bool.eq_false_iff]
  intro ho
  rcases Job.occupies_iff.1 ho with ho | ho
  · exact ht (pool_eq_of_mem_tracksOf (h.originTrack_mem t ho))
  · exact absurd ((Job.destinationTrack_of_not_isActive ha).symm.trans ho) nofun

namespace Job

@[simp]
theorem originPool_after (j : Job) (d : Decision) : (j.after d).originPool = j.originPool := by
  cases d <;> rfl

@[simp]
theorem isActive_after (j : Job) (d : Decision) : (j.after d).isActive = j.isActive := by
  cases d <;> rfl

end Job

namespace Network

/-- A job that is not active starts from the first pool and is bound for the second. -/
def Feeds (net : Network) (p q : Pool) : Prop :=
  ∃ j ∈ net.jobs, ¬ j.isActive ∧ j.originPool = p ∧ j.destinationPool = q

/-- The jobs that start from these pools are kept as they are, whatever is visited. -/
def Quiet (net : Network) (A : Set Pool) : Prop :=
  ∀ net', net.Later net' → ∀ j ∈ net'.jobs, j.originPool ∈ A → net'.decision j = .keep

/-- A job that starts from the pool and is not active stands at the place. -/
def Waits (net : Network) (p : Pool) (place : Place) : Prop :=
  ∃ j, net.jobAt? place = some j ∧ ¬ j.isActive ∧ j.originPool = p

/-- The job at the place is kept. -/
def Kept (net : Network) (place : Place) : Prop :=
  ∀ j, net.jobAt? place = some j → net.decision j = .keep

/-- The job at the place is kept if it is spawned. -/
def Anchored (net : Network) (place : Place) : Prop :=
  ∀ j, net.jobAt? place = some j → j.isSpawned → net.decision j = .keep

theorem Kept.anchored (h : net.Kept place) : net.Anchored place := fun j hj _ => h j hj

/-! ## What visits leave alone -/

/-- A job of one of two networks that are alike is in the other one, with tracks of its own. -/
theorem Alike.exists_mem_jobs (h : net.Alike net') (hj : j ∈ net.jobs) :
    ∃ j' ∈ net'.jobs, j'.untracked = j.untracked := by
  obtain ⟨place, hp⟩ := mem_jobs_iff_jobAt?.1 hj
  obtain ⟨j', hj', hu⟩ := h.exists_jobAt? hp
  exact ⟨j', mem_jobs_of_jobAt? hj', hu⟩

theorem Alike.feeds (h : net.Alike net') (hf : net.Feeds p q) : net'.Feeds p q := by
  obtain ⟨j, hj, ha, rfl, rfl⟩ := hf
  obtain ⟨j', hj', hu⟩ := h.exists_mem_jobs hj
  have hactive : j'.untracked.isActive = j.untracked.isActive := congrArg Job.isActive hu
  have horigin : j'.untracked.originPool = j.untracked.originPool := congrArg Job.originPool hu
  have hdestination : j'.untracked.destinationPool = j.untracked.destinationPool :=
    congrArg Job.destinationPool hu
  exact ⟨j', hj', fun ha' => ha (hactive.symm.trans ha'), horigin, hdestination⟩

theorem Alike.waits (h : net.Alike net') (hw : net.Waits p place) : net'.Waits p place := by
  obtain ⟨j, hj, ha, rfl⟩ := hw
  obtain ⟨j', hj', hu⟩ := h.exists_jobAt? hj
  have hactive : j'.untracked.isActive = j.untracked.isActive := congrArg Job.isActive hu
  have horigin : j'.untracked.originPool = j.untracked.originPool := congrArg Job.originPool hu
  exact ⟨j', hj', fun ha' => ha (hactive.symm.trans ha'), horigin⟩

/-- A visit to a job that starts from another pool leaves a track free or held. -/
theorem isFree_visit_of_pool_ne (hs : net.Safe)
    (ht : ∀ j, net.jobAt? v.2 = some j → net.decision j ≠ .keep → t.pool ≠ j.originPool) :
    (net.visit v).2.isFree t = net.isFree t := by
  rcases visit_snd_cases net v with he | ⟨j, hj, -, he⟩
  · rw [he]
  rw [he]
  by_cases hkeep : net.decision j = .keep
  · rw [hkeep]
    exact isFree_modifyJobAt_congr hj rfl
  · have ha : ¬ j.isActive := fun ha => hkeep (decision_of_isActive ha)
    have hfits := (hs.fits v.2 j hj).2
    have hafter := hfits.after (mem_jobs_of_jobAt? hj)
    refine isFree_modifyJobAt_congr hj ?_
    rw [hfits.occupies_eq_false ha (ht j hj hkeep), hafter.occupies_eq_false]
    · rwa [Job.isActive_after]
    · rw [Job.originPool_after]
      exact ht j hj hkeep

theorem Safe.later (h : net.Safe) (hl : net.Later net') : net'.Safe := h.upkept hl.upkept

namespace Quiet

theorem later (h : net.Quiet A) (hl : net.Later net') : net'.Quiet A :=
  fun n hn => h n (hl.trans hn)

/-- A visit leaves the tracks of quiet pools alone. -/
theorem isFree_visit (h : net.Quiet A) (hs : net.Safe) (ht : t.pool ∈ A) (v : JobKind × Place) :
    (net.visit v).2.isFree t = net.isFree t := by
  refine isFree_visit_of_pool_ne hs fun j hj hne hp => hne ?_
  exact h net (.refl net) j (mem_jobs_of_jobAt? hj) (hp ▸ ht)

end Quiet

/-! ## The next pool -/

/-- Every pool that this one feeds is quiet, and it is not one of them itself. -/
structure Next (net : Network) (A : Set Pool) (p : Pool) : Prop where
  safe : net.Safe
  quiet : net.Quiet A
  notMem : p ∉ A
  mem : ∀ q, net.Feeds p q → q ∈ A

namespace Next

theorem later (h : net.Next A p) (hl : net.Later net') : net'.Next A p :=
  ⟨h.safe.later hl, h.quiet.later hl, h.notMem, fun q hq => h.mem q (hl.alike.symm.feeds hq)⟩

theorem destinationPool_mem (h : net.Next A p) (hj : j ∈ net.jobs) (ha : ¬ j.isActive)
    (hp : j.originPool = p) : j.destinationPool ∈ A :=
  h.mem _ ⟨j, hj, ha, hp, rfl⟩

/-- A visit leaves the tracks alone that the jobs of the pool are bound for. -/
theorem isFree_visit (h : net.Next A p) (hq : q ∈ A) (v : JobKind × Place) :
    ∀ t ∈ tracksOf q.1 q.2, (net.visit v).2.isFree t = net.isFree t :=
  fun _ ht => h.quiet.isFree_visit h.safe (pool_eq_of_mem_tracksOf ht ▸ hq) v

/-- No track that a job of the pool is bound for is one of the pool. -/
theorem notMem_tracksOf (h : net.Next A p) (hq : q ∈ A) (ht : t ∈ tracksOf p.1 p.2) :
    t ∉ tracksOf q.1 q.2 := by
  intro ht'
  have hpq : p = q := (pool_eq_of_mem_tracksOf ht).symm.trans (pool_eq_of_mem_tracksOf ht')
  exact h.notMem (hpq ▸ hq)

/-- A spawned job of the pool that is kept is kept after a visit. -/
theorem keep_visit_of_isSpawned (h : net.Next A p) (hj : j ∈ net.jobs) (hp : j.originPool = p)
    (hs : j.isSpawned) (hkeep : net.decision j = .keep) (v : JobKind × Place) :
    (net.visit v).2.decision j = .keep := by
  by_cases ha : j.isActive
  · exact decision_of_isActive ha
  have hq := h.destinationPool_mem hj ha hp
  rw [decision_eq_keep_iff_of_spawned ha hs] at hkeep ⊢
  -- It is kept for its proposal, which stays free, or for want of another track, which lasts.
  rcases hkeep with hfree | ⟨hnone, hr⟩
  · have hfits := h.safe.fits_of_mem hj
    obtain ⟨t, ht⟩ := Option.isSome_iff_exists.1 (hfits.spawned hs ha)
    have hmem := (hfits.target_mem t (.inl ht)).1
    rw [ht, Option.any_some] at hfree ⊢
    exact .inl ((h.isFree_visit hq v t hmem).trans hfree)
  · exact .inr ⟨(firstFreeExcept?_congr none (h.isFree_visit hq v)).trans hnone, hr⟩

/-- A visit settles the job visited: there is nothing left to decide about it. -/
theorem kept_visit_self (h : net.Next A p) (hj : net.jobAt? place = some j)
    (hp : j.originPool = p) : (net.visit (j.kind, place)).2.Kept place := by
  have hmem := mem_jobs_of_jobAt? hj
  have hafter := jobAt?_visit hj (j.kind, place)
  rw [if_pos rfl] at hafter
  intro k hk
  obtain rfl : j.after (net.decision j) = k := Option.some.inj (hafter.symm.trans hk)
  by_cases ha : j.isActive
  · exact decision_of_isActive (by rwa [Job.isActive_after])
  have hvisit := h.isFree_visit (h.destinationPool_mem hmem ha hp) (j.kind, place)
  have hd := net.decided j
  generalize hdec : net.decision j = d at hd ⊢
  cases hd with
  | active | proposed | reserved | full | blocked =>
    have hsame : (net.visit (j.kind, place)).2 = net := by
      rw [visit_of_jobAt? hj rfl, hdec]
      exact modifyJobAt_eq_self hj rfl
    rw [hsame]
    exact hdec
  | @retarget t _ hs ht =>
    -- The new proposal is still free.
    obtain ⟨ht, hfree⟩ := firstFree?_eq_some ht
    refine (decision_eq_keep_iff_of_spawned (j := j.retarget t) ha hs).2 (.inl ?_)
    exact (hvisit t ht).trans hfree
  | @spawn o t _ _ _ ht =>
    obtain ⟨ht, -, hfree⟩ := firstFreeExcept?_eq_some ht
    refine (decision_eq_keep_iff_of_spawned (j := j.spawn o t) ha rfl).2 (.inl ?_)
    exact (hvisit t ht).trans hfree
  | despawn _ _ ht =>
    -- There is still nothing to be bound for, so the job is not spawned again at once.
    refine (decision_eq_keep_iff_of_queued (j := j.despawn) ha Bool.false_ne_true).2 fun o _ => ?_
    refine firstFreeExcept?_eq_none_iff.2 fun t htracks hfree => ?_
    exact absurd ((hvisit t htracks).symm.trans hfree) (firstFree?_eq_none_iff.1 ht t htracks)

/-- A spawned job of the pool stays settled once it is. -/
theorem anchored_visit (h : net.Next A p) (hp : net.Waits p place)
    (hanchored : net.Anchored place) (v : JobKind × Place) : (net.visit v).2.Anchored place := by
  obtain ⟨j, hj, -, hp⟩ := hp
  by_cases hv : v = (j.kind, place)
  · rw [hv]
    exact (h.kept_visit_self hj hp).anchored
  · intro k hk hs
    rw [jobAt?_visit hj, if_neg hv] at hk
    cases hk
    exact h.keep_visit_of_isSpawned (mem_jobs_of_jobAt? hj) hp hs (hanchored j hj hs) v

theorem anchored_later (h : net.Next A p) (hp : net.Waits p place)
    (hanchored : net.Anchored place) (hl : net.Later net') : net'.Anchored place := by
  induction hl with
  | refl => exact hanchored
  | tail hl hv ih =>
    obtain ⟨v, rfl⟩ := hv
    exact (h.later hl).anchored_visit (Later.alike hl |>.waits hp) ih v

/-- Where the spawned jobs of the pool are settled, no track of the pool gets free. -/
theorem isFree_of_isFree_visit (h : net.Next A p)
    (hanchored : ∀ place, net.Waits p place → net.Anchored place) (ht : t ∈ tracksOf p.1 p.2)
    (hfree : (net.visit v).2.isFree t) : net.isFree t := by
  rcases visit_snd_cases net v with he | ⟨j, hj, -, he⟩
  · rwa [he] at hfree
  by_cases hp : j.originPool = p
  · rw [he] at hfree
    have hd := net.decided j
    generalize hdec : net.decision j = d at hd hfree
    cases hd with
    | active | proposed | reserved | full | blocked | retarget =>
      exact isFree_of_isFree_modifyJobAt hj id hfree
    | spawn _ hs =>
      refine isFree_of_isFree_modifyJobAt hj (fun ho => ?_) hfree
      rcases Job.occupies_iff.1 ho with ho | ho
      · exact absurd ((Job.originTrack_of_not_isSpawned hs).symm.trans ho) nofun
      · exact Job.occupies_iff.2 (.inr ho)
    | despawn ha hs =>
      -- A spawned job of the pool is settled, so it is not put back.
      exact absurd (hdec.symm.trans (hanchored v.2 ⟨j, hj, ha, hp⟩ j hj hs)) nofun
  · rw [← isFree_visit_of_pool_ne h.safe fun k hk _ hkp => hp ?_]
    · exact hfree
    · cases hj.symm.trans hk
      exact hkp.symm.trans (pool_eq_of_mem_tracksOf ht)

/-- Where the spawned jobs of the pool are settled, a job of the pool that is kept is kept
    after a visit. -/
theorem kept_visit (h : net.Next A p)
    (hanchored : ∀ place, net.Waits p place → net.Anchored place)
    (hp : net.Waits p place) (hkept : net.Kept place) (v : JobKind × Place) :
    (net.visit v).2.Kept place := by
  obtain ⟨j, hj, ha, hp⟩ := hp
  have hmem := mem_jobs_of_jobAt? hj
  have hkeep := hkept j hj
  intro k hk
  obtain rfl : j = k := by
    rw [jobAt?_visit hj, hkeep] at hk
    exact (Option.some.inj hk).symm.trans (ite_self j) |>.symm
  by_cases hs : j.isSpawned
  · exact h.keep_visit_of_isSpawned hmem hp hs hkeep v
  have hq := h.destinationPool_mem hmem ha hp
  subst hp
  rw [decision_eq_keep_iff_of_queued ha hs] at hkeep ⊢
  -- The pools differ, so there is no need to leave the origin track out.
  have hexcept : ∀ (n : Network) (o : Track), o ∈ tracksOf j.origin j.kind.originRole →
      n.firstFreeExcept? j.destination j.kind.destinationRole (some o) =
        n.firstFree? j.destination j.kind.destinationRole :=
    fun n o ho => firstFreeExcept?_of_notMem (h.notMem_tracksOf hq ho)
  intro o ho
  obtain ⟨homem, hofree⟩ := firstFree?_eq_some ho
  -- The pool had a free track before, so the job was kept for want of one to be bound for.
  cases hbefore : net.firstFree? j.origin j.kind.originRole with
  | none =>
    exact absurd (h.isFree_of_isFree_visit hanchored homem hofree)
      (firstFree?_eq_none_iff.1 hbefore o homem)
  | some o' =>
    have hnone := hkeep o' hbefore
    rw [hexcept _ o' (firstFree?_eq_some hbefore).1] at hnone
    rw [hexcept _ o homem]
    exact (firstFreeExcept?_congr none (h.isFree_visit hq v)).trans hnone

theorem kept_later (h : net.Next A p)
    (hanchored : ∀ place, net.Waits p place → net.Anchored place)
    (hp : net.Waits p place) (hkept : net.Kept place) (hl : net.Later net') :
    net'.Kept place := by
  induction hl with
  | refl => exact hkept
  | @tail mid _ hl hv ih =>
    obtain ⟨v, rfl⟩ := hv
    have halike : net.Alike mid := Later.alike hl
    refine (h.later hl).kept_visit ?_ (halike.waits hp) ih v
    -- The spawned jobs of the pool were settled from the start, and have stayed so.
    intro z hz
    have hz' := halike.symm.waits hz
    exact h.anchored_later hz' (hanchored z hz') hl

/-- A pool all of whose jobs are settled is quiet along with the pools that it feeds. -/
theorem quiet_insert (h : net.Next A p)
    (hkept : ∀ place, net.Waits p place → net.Kept place) : net.Quiet (insert p A) := by
  intro net' hl j hj hmem
  by_cases ha : j.isActive
  · exact decision_of_isActive ha
  obtain ⟨place, hplace⟩ := mem_jobs_iff_jobAt?.1 hj
  rcases hmem with hp | hmem
  · have hw : net.Waits p place := hl.alike.symm.waits ⟨j, hplace, ha, hp⟩
    exact h.kept_later (fun z hz => (hkept z hz).anchored) hw (hkept place hw) hl j hplace
  · exact h.quiet net' hl j hj hmem

end Next

end Network

end RailFreight
