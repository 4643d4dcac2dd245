import RailFreight.Proofs.Places

/-!
# Decisions about jobs

The decision about a job depends on the tracks that are free, and these on the jobs. A
change of one job that does not touch a track leaves it free or held as it was, so a
decision can be carried from one network to another along the tracks that it looks at.

* `Network.firstFreeExcept?_eq_some`, `Network.firstFree?_eq_none_iff`: what the choice of a
  track tells of the free ones;
* `Network.decided`: the decision about a job, case by case;
* `Network.decision_eq_keep_iff_of_spawned`, `Network.decision_eq_keep_iff_of_queued`: which
  jobs are kept as they are;
* `Network.isFree_modifyJobAt`: which tracks are free after the change of a job.
-/

namespace RailFreight.Network

variable {net : Network} {station : StationCode} {role : TrackRole} {place : Place} {j : Job}
  {t : Track}

/-! ## Free tracks -/

/-- A track that is chosen is a surveyed one, is free, and is not the excluded one. -/
theorem firstFreeExcept?_eq_some {excluded : Option Track}
    (h : net.firstFreeExcept? station role excluded = some t) :
    t ∈ tracksOf station role ∧ some t ≠ excluded ∧ net.isFree t := by
  have hfree := List.find?_some h
  simp only [Bool.and_eq_true, decide_eq_true_eq] at hfree
  exact ⟨List.mem_of_find?_eq_some h, hfree.1, hfree.2⟩

/-- A track that is chosen is a surveyed one and is free. -/
theorem firstFree?_eq_some (h : net.firstFree? station role = some t) :
    t ∈ tracksOf station role ∧ net.isFree t :=
  ⟨(firstFreeExcept?_eq_some h).1, (firstFreeExcept?_eq_some h).2.2⟩

theorem firstFreeExcept?_eq_none_iff {excluded : Option Track} :
    net.firstFreeExcept? station role excluded = none ↔
      ∀ t ∈ tracksOf station role, net.isFree t → some t = excluded := by
  simp only [firstFreeExcept?, List.find?_eq_none, Bool.and_eq_true, decide_eq_true_eq, not_and]
  exact forall₂_congr fun t _ => ⟨fun h hf => by_contra fun hne => h hne hf,
    fun h hne hf => hne (h hf)⟩

/-- No track is chosen exactly when all are held. -/
theorem firstFree?_eq_none_iff :
    net.firstFree? station role = none ↔ ∀ t ∈ tracksOf station role, ¬ net.isFree t := by
  simp only [firstFree?, firstFreeExcept?_eq_none_iff, reduceCtorEq, imp_false]

/-- The choice of a track depends on the tracks of its role alone. -/
theorem firstFreeExcept?_congr {net' : Network} (excluded : Option Track)
    (h : ∀ t ∈ tracksOf station role, net'.isFree t = net.isFree t) :
    net'.firstFreeExcept? station role excluded = net.firstFreeExcept? station role excluded := by
  rw [firstFreeExcept?, firstFreeExcept?, ← List.head?_filter, ← List.head?_filter,
    List.filter_congr fun t ht => by rw [h t ht]]

/-- Excluding a track of another role or station makes no difference. -/
theorem firstFreeExcept?_of_notMem (h : t ∉ tracksOf station role) :
    net.firstFreeExcept? station role (some t) = net.firstFree? station role := by
  rw [firstFree?, firstFreeExcept?, firstFreeExcept?, ← List.head?_filter, ← List.head?_filter]
  refine congrArg _ (List.filter_congr fun u hu => ?_)
  have hne : u ≠ t := fun e => h (e ▸ hu)
  simp [hne]

/-- The tracks that a job of the network holds are not free. -/
theorem not_isFree_of_occupies (hj : j ∈ net.jobs) (ht : j.occupies t) : ¬ net.isFree t :=
  fun hf => isFree_iff.1 hf j hj ht

/-- After the change of a job a track is free when the job does not hold it now, and no
    other job holds it. -/
theorem isFree_modifyJobAt {f : Job → Job} (h : net.jobAt? place = some j) :
    (net.modifyJobAt place f).isFree t ↔
      ¬ (f j).occupies t ∧ ∀ p k, p ≠ place → net.jobAt? p = some k → ¬ k.occupies t := by
  simp only [isFree_iff, mem_jobs_iff_jobAt?, forall_exists_index, jobAt?_modifyJobAt]
  constructor
  · intro hfree
    refine ⟨hfree (f j) place (by rw [if_pos rfl, h, Option.map_some]), ?_⟩
    intro p k hp hk
    exact hfree k p (by rw [if_neg (Ne.symm hp), hk])
  · rintro ⟨hj, hothers⟩ k p hk
    by_cases hp : place = p
    · subst hp
      rw [if_pos rfl, h, Option.map_some] at hk
      exact Option.some.inj hk ▸ hj
    · exact hothers p k (Ne.symm hp) (by rwa [if_neg hp] at hk)

/-- A track that the job holds before and after the change, or neither, stays as it was. -/
theorem isFree_modifyJobAt_congr {f : Job → Job} (h : net.jobAt? place = some j)
    (ht : (f j).occupies t = j.occupies t) :
    (net.modifyJobAt place f).isFree t = net.isFree t := by
  have hself : net.modifyJobAt place id = net := modifyJobAt_eq_self h rfl
  conv_rhs => rw [← hself]
  rw [Bool.eq_iff_iff, isFree_modifyJobAt h, isFree_modifyJobAt h, ht, id]

/-- A job that only gets tracks sets none free. -/
theorem isFree_of_isFree_modifyJobAt {f : Job → Job} (h : net.jobAt? place = some j)
    (ht : j.occupies t → (f j).occupies t) (hfree : (net.modifyJobAt place f).isFree t) :
    net.isFree t := by
  have hself : net.modifyJobAt place id = net := modifyJobAt_eq_self h rfl
  obtain ⟨hj, hothers⟩ := (isFree_modifyJobAt h).1 hfree
  rw [← hself]
  exact (isFree_modifyJobAt h).2 ⟨fun ho => hj (ht ho), hothers⟩

/-! ## Decisions -/

/-- The decision about a job, with what is known when it is made. -/
inductive Decided (net : Network) (j : Job) : Decision → Prop
  | active : j.isActive → Decided net j .keep
  /-- The proposal is free. -/
  | proposed : ¬ j.isActive → j.isSpawned → j.proposedTrack.any net.isFree → Decided net j .keep
  | retarget {t : Track} : ¬ j.isActive → j.isSpawned →
    net.firstFree? j.destination j.kind.destinationRole = some t → Decided net j (.retarget t)
  /-- No track of the destination is free, but the job is reserved. -/
  | reserved : ¬ j.isActive → j.isSpawned →
    net.firstFree? j.destination j.kind.destinationRole = none → j.isReserved → Decided net j .keep
  | despawn : ¬ j.isActive → j.isSpawned →
    net.firstFree? j.destination j.kind.destinationRole = none → ¬ j.isReserved →
    Decided net j .despawn
  /-- No track of the origin is free. -/
  | full : ¬ j.isActive → ¬ j.isSpawned → net.firstFree? j.origin j.kind.originRole = none →
    Decided net j .keep
  /-- No other track of the destination is free. -/
  | blocked {o : Track} : ¬ j.isActive → ¬ j.isSpawned →
    net.firstFree? j.origin j.kind.originRole = some o →
    net.firstFreeExcept? j.destination j.kind.destinationRole (some o) = none → Decided net j .keep
  | spawn {o t : Track} : ¬ j.isActive → ¬ j.isSpawned →
    net.firstFree? j.origin j.kind.originRole = some o →
    net.firstFreeExcept? j.destination j.kind.destinationRole (some o) = some t →
    Decided net j (.spawn o t)

/-- The decision about a job, case by case. -/
theorem decided (net : Network) (j : Job) : net.Decided j (net.decision j) := by
  rw [decision]
  split
  · rename_i ha
    exact .active ha
  rename_i ha
  split
  · rename_i hs
    split
    · rename_i hp
      exact .proposed ha hs hp
    · split
      · rename_i t ht
        exact .retarget ha hs ht
      · rename_i ht
        split
        · rename_i hr
          exact .reserved ha hs ht hr
        · rename_i hr
          exact .despawn ha hs ht hr
  · rename_i hs
    split
    · rename_i ho
      exact .full ha hs ho
    · rename_i o ho
      split
      · rename_i t ht
        exact .spawn ha hs ho ht
      · rename_i ht
        exact .blocked ha hs ho ht

theorem decision_of_isActive (h : j.isActive) : net.decision j = .keep := by
  rw [decision, if_pos h]

/-- A spawned job is kept when its proposal is free, or when it is reserved and no track of
    its destination is free. -/
theorem decision_eq_keep_iff_of_spawned (ha : ¬ j.isActive) (hs : j.isSpawned) :
    net.decision j = .keep ↔ j.proposedTrack.any net.isFree ∨
      (net.firstFree? j.destination j.kind.destinationRole = none ∧ j.isReserved) := by
  rw [decision, if_neg ha, if_pos hs]
  cases j.proposedTrack.any net.isFree <;>
    cases net.firstFree? j.destination j.kind.destinationRole <;> simp

/-- A queued job is kept when its origin has no free track, or its destination none besides. -/
theorem decision_eq_keep_iff_of_queued (ha : ¬ j.isActive) (hs : ¬ j.isSpawned) :
    net.decision j = .keep ↔ ∀ o, net.firstFree? j.origin j.kind.originRole = some o →
      net.firstFreeExcept? j.destination j.kind.destinationRole (some o) = none := by
  rw [decision, if_neg ha, if_neg hs]
  cases net.firstFree? j.origin j.kind.originRole with
  | none => simp
  | some o =>
    cases h : net.firstFreeExcept? j.destination j.kind.destinationRole (some o) <;> simp [h]

end RailFreight.Network
