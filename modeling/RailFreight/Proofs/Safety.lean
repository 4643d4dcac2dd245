import RailFreight.Proofs.Audit
import RailFreight.Proofs.Decision
import RailFreight.Proofs.Run
import Mathlib.Data.List.Flatten

/-!
# Safety of the tracks

Which job holds a track is read off the jobs, so nothing but the way in which jobs change
keeps two of them off one track. A network is *safe* when no track is held twice, and when
each job stands in the queue of its origin and *fits*: its tracks suit it and tell
consistently how far it has come, and it carries no more cars than the ceiling. A job only
ever gets a track that is free at that moment, so safety is kept by every operation, and by
every single visit of a re-validation.

* `Job.Fits.after`: a job still fits when the decision about it is carried out;
* `Network.Safe.modifyJobAt`: a network stays safe when a job that changes still fits, and
  gets free tracks only;
* `Network.Safe.upkept`, `Network.Safe.perform`: steps of upkeep and operations;
* `Reachable.no_violations`: reachable networks are safe, and an audit finds nothing in them.
-/

namespace RailFreight

/-- The job carries no more cars than the ceiling, and its tracks suit it. -/
structure Job.Fits (ceiling : Nat) (j : Job) : Prop where
  cars_le : j.cars ≤ ceiling
  /-- The origin track belongs to the origin, and has the role that suits the kind. -/
  originTrack_mem : ∀ t, j.originTrack = some t → t ∈ tracksOf j.origin j.kind.originRole
  /-- The track that is proposed or held at the destination belongs there, has the role that
      suits the kind, and is not the track that the job starts from. -/
  target_mem : ∀ t, j.proposedTrack = some t ∨ j.destinationTrack = some t →
    t ∈ tracksOf j.destination j.kind.destinationRole ∧ j.originTrack ≠ some t
  active : j.isActive → j.isSpawned ∧ j.isReserved ∧ j.proposedTrack = none
  spawned : j.isSpawned → ¬ j.isActive → j.proposedTrack.isSome
  queued : ¬ j.isSpawned → j.proposedTrack = none ∧ j.destinationTrack = none

/-- Every job stands in the queue of its origin and fits, and no track is held twice. -/
structure Network.Safe (net : Network) : Prop where
  filed : net.Filed
  fits : ∀ place j, net.jobAt? place = some j → j.origin = place.1 ∧ j.Fits net.config.maxCars
  nodup : (net.jobs.flatMap Job.occupiedTracks).Nodup

variable {net net' : Network} {place : Place} {j j' : Job} {t : Track} {ceiling : Nat}

namespace Job

theorem destinationTrack_of_not_isActive (h : ¬ j.isActive) : j.destinationTrack = none :=
  Option.not_isSome_iff_eq_none.1 h

theorem originTrack_of_not_isSpawned (h : ¬ j.isSpawned) : j.originTrack = none :=
  Option.not_isSome_iff_eq_none.1 h

theorem occupies_iff : j.occupies t ↔ j.originTrack = some t ∨ j.destinationTrack = some t := by
  rw [occupies, Bool.or_eq_true, decide_eq_true_eq, decide_eq_true_eq]

/-- A job of the network does not start from a free track. -/
theorem originTrack_ne_of_isFree (hj : j ∈ net.jobs) (ht : net.isFree t) :
    j.originTrack ≠ some t :=
  fun h => Network.not_isFree_of_occupies hj (occupies_iff.2 (.inl h)) ht

/-! ## Jobs that fit -/

theorem fits_queued (id : JobId) (kind : JobKind) (origin destination : StationCode) {cars : Nat}
    (cargo : Cargo) (wage : Nat) (h : cars ≤ ceiling) :
    (Job.queued id kind origin destination cars cargo wage).Fits ceiling where
  cars_le := h
  originTrack_mem _ h := nomatch h
  target_mem _ h := h.elim nofun nofun
  active := nofun
  spawned := nofun
  queued _ := ⟨rfl, rfl⟩

namespace Fits

theorem withCars {cars : Nat} (h : j.Fits ceiling) (hcars : cars ≤ ceiling) :
    { j with cars }.Fits ceiling :=
  { h with cars_le := hcars }

theorem reserve (h : j.Fits ceiling) (user : User) : (j.reserve user).Fits ceiling :=
  { h with active := fun ha => ⟨(h.active ha).1, rfl, (h.active ha).2.2⟩ }

/-- A reserved job that is spawned may be taken to a free track of its destination. -/
theorem activate (h : j.Fits ceiling) (hj : j ∈ net.jobs) (hs : j.isSpawned) (hr : j.isReserved)
    (ht : t ∈ tracksOf j.destination j.kind.destinationRole) (hfree : net.isFree t) :
    (j.activate t).Fits ceiling where
  cars_le := h.cars_le
  originTrack_mem := h.originTrack_mem
  target_mem u hu := by
    obtain rfl : t = u := hu.elim nofun Option.some.inj
    have hne : j.originTrack ≠ some t := originTrack_ne_of_isFree hj hfree
    exact ⟨ht, hne⟩
  active _ := ⟨hs, hr, rfl⟩
  spawned _ ha := absurd rfl ha
  queued hn := absurd hs hn

/-- A job still fits when the decision about it is carried out. -/
theorem after (h : j.Fits ceiling) (hj : j ∈ net.jobs) :
    (j.after (net.decision j)).Fits ceiling := by
  have hd := net.decided j
  generalize net.decision j = d at hd ⊢
  cases hd with
  | active | proposed | reserved | full | blocked => exact h
  | @retarget t ha hs ht =>
    obtain ⟨hmem, hfree⟩ := Network.firstFree?_eq_some ht
    have hne : j.originTrack ≠ some t := originTrack_ne_of_isFree hj hfree
    refine ⟨h.cars_le, h.originTrack_mem, fun u hu => ?_, fun h => absurd h ha, fun _ _ => rfl,
      fun hn => absurd hs hn⟩
    rcases hu with hu | hu
    · obtain rfl : t = u := Option.some.inj hu
      exact ⟨hmem, hne⟩
    · exact h.target_mem u (.inr hu)
  | despawn ha hs ht hr =>
    have hd := destinationTrack_of_not_isActive ha
    refine ⟨h.cars_le, nofun, fun u hu => ?_, fun h => absurd h ha, nofun, fun _ => ⟨rfl, hd⟩⟩
    rcases hu with hu | hu
    · exact absurd hu nofun
    · exact absurd (hd.symm.trans hu) nofun
  | @spawn o t ha hs ho ht =>
    -- The choice of the second track has left out the first one.
    have hd := destinationTrack_of_not_isActive ha
    obtain ⟨hmem, hne, -⟩ := Network.firstFreeExcept?_eq_some ht
    refine ⟨h.cars_le, fun u hu => ?_, fun u hu => ?_, fun h => absurd h ha, fun _ _ => rfl,
      fun hn => absurd rfl hn⟩
    · obtain rfl : o = u := Option.some.inj hu
      exact (Network.firstFree?_eq_some ho).1
    · rcases hu with hu | hu
      · obtain rfl : t = u := Option.some.inj hu
        exact ⟨hmem, hne.symm⟩
      · exact absurd (hd.symm.trans hu) nofun

/-- A job that fits does not hold one track twice. -/
theorem nodup_occupiedTracks (h : j.Fits ceiling) : j.occupiedTracks.Nodup := by
  rw [occupiedTracks]
  cases hd : j.destinationTrack with
  | none => cases j.originTrack <;> simp
  | some t =>
    have hne := (h.target_mem t (.inr hd)).2
    cases ho : j.originTrack with
    | none => simp
    | some o =>
      have hot : o ≠ t := fun e => hne (ho.trans (congrArg some e))
      simp [hot]

end Fits

/-- When the decision about a job is carried out, the job gets free tracks only. -/
theorem occupies_after (h : (j.after (net.decision j)).occupies t) :
    j.occupies t ∨ net.isFree t := by
  have hd := net.decided j
  generalize net.decision j = d at hd h
  cases hd with
  | active | proposed | reserved | full | blocked | retarget => exact .inl h
  | despawn =>
    rcases occupies_iff.1 h with h | h
    · exact absurd h nofun
    · exact .inl (occupies_iff.2 (.inr h))
  | @spawn o u _ _ ho =>
    rcases occupies_iff.1 h with h | h
    · obtain rfl : o = t := Option.some.inj h
      exact .inr (Network.firstFree?_eq_some ho).2
    · exact .inl (occupies_iff.2 (.inr h))

end Job

/-! ## Safe networks -/

/-- A change of a station leaves the tracks that its jobs hold alone. -/
theorem Station.Change.occupiedTracks_eq {s s' : Station} (h : s.Change ceiling s') :
    s'.queue.flatMap Job.occupiedTracks = s.queue.flatMap Job.occupiedTracks := by
  cases h with
  | kept _ _ hq => rw [hq]
  | queued _ _ _ _ _ _ _ _ hq =>
    rw [hq, List.flatMap_append]
    exact List.append_nil _
  | filled before after load cargo cars _ _ _ _ _ hq hq' =>
    rw [hq, hq', List.flatMap_append, List.flatMap_append]
    rfl

namespace Network.Safe

theorem fits_of_mem (h : net.Safe) (hj : j ∈ net.jobs) : j.Fits net.config.maxCars := by
  obtain ⟨place, hp⟩ := mem_jobs_iff_jobAt?.1 hj
  exact (h.fits place j hp).2

/-- The network without stations is safe. -/
theorem empty (config : Config) : (Network.empty config).Safe := by
  refine ⟨?_, ?_, List.nodup_nil⟩
  · intro code s hs
    exact absurd ((Table.get?_empty code).symm.trans hs) nofun
  · intro place j hj
    exact absurd (mem_jobs_of_jobAt? hj) List.not_mem_nil

/-- A network of which jobs are taken away stays safe. -/
theorem of_sublist (h : net.Safe) (hconfig : net'.config = net.config) (hf : net'.Filed)
    (hjobAt : ∀ place j, net'.jobAt? place = some j → ∃ p, net.jobAt? p = some j ∧ p.1 = place.1)
    (hjobs : net'.jobs.Sublist net.jobs) : net'.Safe := by
  refine ⟨hf, ?_, h.nodup.sublist (hjobs.flatMap _)⟩
  intro place j hj
  obtain ⟨p, hp, he⟩ := hjobAt place j hj
  rw [hconfig, ← he]
  exact h.fits p j hp

/-- A network stays safe when a job that changes still fits, and gets free tracks only. -/
theorem modifyJobAt {f : Job → Job} (h : net.Safe) (hj : net.jobAt? place = some j)
    (horigin : (f j).origin = j.origin) (hfits : (f j).Fits net.config.maxCars)
    (htracks : ∀ t, (f j).occupies t → j.occupies t ∨ net.isFree t) :
    (net.modifyJobAt place f).Safe := by
  refine ⟨h.filed.modifyJobAt place f, ?_, ?_⟩
  · intro p k hk
    rw [jobAt?_modifyJobAt] at hk
    split at hk
    · rename_i hp
      subst hp
      rw [hj, Option.map_some, Option.some.injEq] at hk
      subst hk
      exact ⟨horigin.trans (h.fits place j hj).1, hfits⟩
    · exact h.fits p k hk
  · obtain ⟨before, after, hjobs, hmod⟩ := exists_jobs_eq_of_jobAt? hj
    have hnodup := h.nodup
    rw [hjobs, (List.perm_middle.flatMap_right _).nodup_iff, List.flatMap_cons,
      List.nodup_append'] at hnodup
    obtain ⟨-, hothers, hdisjoint⟩ := hnodup
    rw [hmod, (List.perm_middle.flatMap_right _).nodup_iff, List.flatMap_cons, List.nodup_append']
    refine ⟨hfits.nodup_occupiedTracks, hothers, ?_⟩
    intro t ht ht'
    -- A track that the job holds now was its own before, or it was free: no other job holds it.
    rcases htracks t (Job.mem_occupiedTracks.1 ht) with hold | hfree
    · exact hdisjoint (Job.mem_occupiedTracks.2 hold) ht'
    · obtain ⟨k, hk, htk⟩ := List.mem_flatMap.1 ht'
      refine not_isFree_of_occupies ?_ (Job.mem_occupiedTracks.1 htk) hfree
      rw [hjobs]
      exact List.perm_middle.mem_iff.2 (List.mem_cons_of_mem _ hk)

/-- A network stays safe when one of its stations changes. -/
theorem modifyStation {code : StationCode} {s s' : Station} (h : net.Safe)
    (hs : net.station? code = some s) (hch : s.Change net.config.maxCars s') :
    (net.modifyStation code fun _ => s').Safe := by
  have hup : net.Upkeep (net.modifyStation code fun _ => s') := .changed hs hch rfl
  refine ⟨hup.filed h.filed, ?_, ?_⟩
  · intro p k hk
    have hold : ∀ k ∈ s.queue, k.origin = code ∧ k.Fits net.config.maxCars := by
      intro k hk
      obtain ⟨i, hi⟩ := List.getElem?_of_mem hk
      exact h.fits (code, i) k (jobAt?_eq_some_iff.2 ⟨s, hs, hi⟩)
    obtain ⟨u, hu, hi⟩ := jobAt?_eq_some_iff.1 hk
    rcases station?_modifyStation_eq_some hu with hu | ⟨_, hcode, -, hus⟩
    · exact h.fits p k (jobAt?_eq_some_iff.2 ⟨u, hu, hi⟩)
    -- The job is in the queue of the changed station: an old one, a new one, or the load that
    -- was filled.
    have hmem := List.mem_of_getElem? hi
    rw [hus] at hmem
    rw [← hcode]
    cases hch with
    | kept _ _ hq => exact hold k (hq ▸ hmem)
    | queued kind destination cars cargo wage _ _ hcars hq =>
      rw [hq, List.mem_append, List.mem_singleton] at hmem
      rcases hmem with hmem | rfl
      · exact hold k hmem
      · exact ⟨h.filed code s hs, Job.fits_queued _ kind _ _ cargo wage hcars⟩
    | filled before after load cargo cars _ _ _ _ hcars hq hq' =>
      obtain ⟨horigin, hfits⟩ := hold load (by simp [hq])
      rw [hq', List.mem_append, List.mem_cons] at hmem
      rcases hmem with hmem | rfl | hmem
      · exact hold k (by simp [hq, hmem])
      · exact ⟨horigin, hfits.withCars (by have := hfits.cars_le; omega)⟩
      · exact hold k (by simp [hq, hmem])
  · obtain ⟨before, after, hjobs, hmod⟩ := exists_jobs_eq hs
    have hnodup := h.nodup
    rw [hjobs] at hnodup
    rw [hmod]
    simpa only [List.flatMap_append, hch.occupiedTracks_eq] using hnodup

/-- A network stays safe in a step of upkeep. -/
theorem upkeep (h : net.Safe) (hup : net.Upkeep net') : net'.Safe := by
  cases hup with
  | drawn generator he =>
    subst he
    exact ⟨h.filed, h.fits, h.nodup⟩
  | changed hs hch he =>
    subst he
    exact h.modifyStation hs hch
  | @assigned place j hj he =>
    subst he
    have hmem := mem_jobs_of_jobAt? hj
    refine h.modifyJobAt hj ?_ ((h.fits place j hj).2.after hmem) fun t => Job.occupies_after
    cases net.decision j <;> rfl

theorem upkept (h : net.Safe) (hup : net.Upkept net') : net'.Safe := by
  induction hup with
  | refl => exact h
  | tail _ hup ih => exact ih.upkeep hup

/-- A network stays safe when a job is taken out of its queue. -/
theorem removeJobAt (h : net.Safe) (hj : net.jobAt? place = some j) :
    (net.removeJobAt place).Safe := by
  refine h.of_sublist rfl (h.filed.modifyStation fun u hu => h.filed _ u hu) ?_ ?_
  · intro p k hk
    obtain ⟨u, hu, hk⟩ := jobAt?_eq_some_iff.1 hk
    rcases station?_modifyStation_eq_some hu with hu | ⟨v, hcode, hv, rfl⟩
    · exact ⟨p, jobAt?_eq_some_iff.2 ⟨u, hu, hk⟩, rfl⟩
    · have hmem : k ∈ v.queue := List.mem_of_mem_eraseIdx (List.mem_of_getElem? hk)
      obtain ⟨i, hi⟩ := List.getElem?_of_mem hmem
      exact ⟨(p.1, i), jobAt?_eq_some_iff.2 ⟨v, hv, hi⟩, rfl⟩
  · obtain ⟨before, after, hjobs, hremoved⟩ := exists_jobs_eq_of_removeJobAt hj
    rw [hremoved, hjobs]
    exact (List.sublist_cons_self j after).append_left before

/-- A network stays safe when a station without jobs is added, also in the stead of another. -/
theorem addStation (h : net.Safe) (code : StationCode) (minCars maxCars : Nat) :
    (net.addStation code minCars maxCars).Safe := by
  refine h.of_sublist rfl ?_ ?_ (jobs_putStation_sublist rfl)
  · intro c u hu
    rw [Network.addStation, station?_putStation] at hu
    split at hu
    · rename_i hc
      exact Option.some.inj hu ▸ hc
    · exact h.filed c u hu
  · intro p k hk
    obtain ⟨u, hu, hk⟩ := jobAt?_eq_some_iff.1 hk
    rw [Network.addStation, station?_putStation] at hu
    split at hu
    · cases hu
      exact absurd hk nofun
    · exact ⟨p, jobAt?_eq_some_iff.2 ⟨u, hu, hk⟩, rfl⟩

/-! ## Operations -/

/-- The track that a job claims is a free track of its destination. -/
theorem trackToClaim?_eq_some (h : net.Safe) (hj : j ∈ net.jobs)
    (ht : net.trackToClaim? j = some t) :
    t ∈ tracksOf j.destination j.kind.destinationRole ∧ net.isFree t := by
  rw [trackToClaim?, Option.or_eq_some_iff] at ht
  rcases ht with ht | ⟨-, ht⟩
  · obtain ⟨hp, hfree⟩ := Option.filter_eq_some_iff.1 ht
    exact ⟨((h.fits_of_mem hj).target_mem t (.inl hp)).1, hfree⟩
  · exact firstFree?_eq_some ht

variable {user : User} {id : JobId} {action : Action}

/-- A network stays safe when a request that is not refused changes its job. -/
theorem claimed (h : net.Safe) (hj : net.jobAt? place = some j)
    (hcause : net.refusal? action user id (some j) = none)
    (hclaimed : net.Claimed user place j action net') : net'.Safe := by
  have hmem := mem_jobs_of_jobAt? hj
  have hfits := h.fits_of_mem hmem
  cases hclaimed with
  | reserve => exact h.modifyJobAt hj rfl (hfits.reserve user) fun t ht => .inl ht
  | @take track htrack =>
    obtain ⟨-, hheld, hspawned, -⟩ := refusal?_take_eq_none_iff.1 hcause
    obtain ⟨htracks, hfree⟩ := h.trackToClaim?_eq_some hmem htrack
    have hreserved : j.isReserved := by
      rw [Job.isHeldBy, decide_eq_true_eq] at hheld
      rw [Job.isReserved, hheld, Option.isSome_some]
    have hactivated := hfits.activate hmem hspawned hreserved htracks hfree
    refine h.modifyJobAt hj rfl hactivated ?_
    intro t ht
    rcases Job.occupies_iff.1 ht with ht | ht
    · exact .inl (Job.occupies_iff.2 (.inl ht))
    · exact .inr (Option.some.inj ht ▸ hfree)
  | finish => exact h.removeJobAt hj

/-- A granted request changes its job, and the rest is upkeep. -/
theorem exists_claimed (h : net.Safe) (hj : net.jobAt? place = some j)
    (hgranted : net.Granted user place j action net') :
    ∃ n, net.Claimed user place j action n ∧ n.Upkept net' :=
  hgranted.exists_claimed h.filed (h.fits_of_mem (mem_jobs_of_jobAt? hj)).cars_le

/-- A network stays safe in every operation. -/
theorem perform {op : Operation} {outcome : Outcome} (h : net.Safe)
    (hp : net.perform op = .ok (outcome, net')) : net'.Safe := by
  cases perform_effect hp with
  | stationAdded => exact h.addStation _ _ _
  | upkept _ hup => exact h.upkept hup
  | answered ha =>
    cases ha with
    | refused => exact h
    | granted _ hcause hj _ _ hgranted =>
      obtain ⟨n, hclaimed, hup⟩ := h.exists_claimed hj hgranted
      exact (h.claimed hj hcause hclaimed).upkept hup

/-- An audit of the jobs finds nothing in a safe network. -/
theorem violations_eq_nil (h : net.Safe) : net.violations = [] := by
  refine violations_eq_nil_iff.2 ⟨fun s hs j hj => ?_, h.nodup⟩
  obtain ⟨code, hs⟩ := mem_stationList_iff.1 hs
  obtain ⟨i, hi⟩ := List.getElem?_of_mem hj
  obtain ⟨horigin, hfits⟩ := h.fits (code, i) j (jobAt?_eq_some_iff.2 ⟨s, hs, hi⟩)
  refine Job.violations_eq_nil_iff.2 ⟨horigin.trans (h.filed code s hs).symm, hfits.cars_le,
    fun ha => (hfits.active ha).1, fun t ht => mem_tracksOf (hfits.originTrack_mem t ht),
    fun t ht => ?_⟩
  -- The target is the track held at the destination, or else the proposal.
  have htarget : j.proposedTrack = some t ∨ j.destinationTrack = some t := by
    rw [Job.targetTrack, Option.or_eq_some_iff] at ht
    exact ht.elim .inr fun ht => .inl ht.2
  exact mem_tracksOf (hfits.target_mem t htarget).1

end Network.Safe

/-! ## Reachable networks -/

/-- No operation changes the configuration. -/
theorem Network.Safe.perform_config_eq {op : Operation} {outcome : Outcome} (h : net.Safe)
    (hp : net.perform op = .ok (outcome, net')) : net'.config = net.config := by
  cases perform_effect hp with
  | stationAdded => rfl
  | upkept _ hup => exact hup.config_eq
  | answered ha =>
    cases ha with
    | refused => rfl
    | granted _ _ hj _ _ hgranted =>
      obtain ⟨n, hclaimed, hup⟩ := h.exists_claimed hj hgranted
      exact hup.config_eq.trans hclaimed.config_eq

/-- Reachable networks are safe. -/
theorem Reachable.safe {config : Config} (h : Reachable config net) : net.Safe :=
  h.invariant (.empty config) fun _ _ _ _ hsafe hp => hsafe.perform hp

/-- What the operations keep of safe networks holds in every reachable network. -/
theorem Reachable.safe_invariant {config : Config} {P : Network → Prop}
    (hempty : P (.empty config))
    (hstep : ∀ net op outcome net', net.Safe → P net → net.perform op = .ok (outcome, net') →
      P net') (h : Reachable config net) : P net := by
  have hboth : net.Safe ∧ P net := by
    refine h.invariant (P := fun n => n.Safe ∧ P n) ⟨.empty config, hempty⟩ ?_
    rintro n op outcome n' ⟨hsafe, hP⟩ hp
    exact ⟨hsafe.perform hp, hstep n op outcome n' hsafe hP hp⟩
  exact hboth.2

theorem Reachable.config_eq {config : Config} (h : Reachable config net) : net.config = config := by
  refine h.safe_invariant (P := fun n => n.config = config) rfl ?_
  intro n op outcome n' hsafe hconfig hp
  exact (hsafe.perform_config_eq hp).trans hconfig

/-- Whatever was performed, no track is held twice, each job stands in the queue of its
    origin and fits, and an audit of the jobs finds nothing. -/
theorem Reachable.no_violations {config : Config} (h : Reachable config net) :
    (net.jobs.flatMap Job.occupiedTracks).Nodup ∧
      (∀ code s, net.station? code = some s →
        ∀ j ∈ s.queue, j.origin = code ∧ j.Fits config.maxCars) ∧
      net.violations = [] := by
  refine ⟨h.safe.nodup, fun code s hs j hj => ?_, h.safe.violations_eq_nil⟩
  obtain ⟨i, hi⟩ := List.getElem?_of_mem hj
  rw [← h.config_eq]
  exact h.safe.fits (code, i) j (Network.jobAt?_eq_some_iff.2 ⟨s, hs, hi⟩)

/-- A run in which a load of coal is reserved and taken while another one waits. -/
def coalRun : List Operation :=
  let user : User := ⟨"ada", by decide +kernel, by decide⟩
  let load := JobId.of .cm .shuntingLoad 1
  [.addStation .cm 1 3, .createJob .cm .shuntingLoad .cm 2 .coal 5,
    .createJob .cm .shuntingLoad .cm 20 .coal 5, .revalidate, .request .reserve user load,
    .request .take user load]

/-- The run with the loads of coal ends in a network with a job that is active, in which an
    audit of the jobs finds nothing. -/
theorem coalRun_no_violations :
    ∃ net, (Network.empty {}).performAll coalRun = .ok net ∧ net.jobs.any Job.isActive ∧
      (net.jobs.flatMap Job.occupiedTracks).Nodup ∧
      (∀ code s, net.station? code = some s → ∀ j ∈ s.queue, j.origin = code ∧ j.Fits 12) ∧
      net.violations = [] := by
  obtain ⟨net, hrun, hreachable, hactive⟩ := exists_reachable {} coalRun
    (fun net => net.jobs.any Job.isActive) (by decide +kernel)
  exact ⟨net, hrun, hactive, hreachable.no_violations⟩

end RailFreight
