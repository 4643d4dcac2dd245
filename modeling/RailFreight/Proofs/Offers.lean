import RailFreight.Proofs.Maximality
import RailFreight.Proofs.Taking

/-!
# Offers

An open job is shown with the track that it proposes, which it does not hold, and which may be
proposed by other open jobs as well. Still it is an offer that is kept. A re-validation that ends
with a round that changes no job leaves every open job with a proposal that is free. Whatever leaves
the tracks alone afterwards leaves it so: jobs are reserved, and new ones are queued. So whoever
reserves a job that is open and takes it at once gets the track that was shown, whichever of the
open jobs it is.

* `Network.Revalidates`: the network whose tracks an operation brings up to date;
* `Network.Offered`: every open job that is spawned has a free proposal;
* `Network.EndsSettled.offered`: a settled re-validation leaves the network so;
* `Network.Offered.perform`: so do the operations that leave the tracks alone;
* `Network.Offered.exists_take`: an open job is taken to the track that it shows;
* `Reachable.exists_take_shown`: the same after any such operations.
-/

namespace RailFreight

/-- Whether the operation neither holds tracks, nor sets them free, nor moves any job: only jobs are
    reserved or queued. -/
def Operation.leavesTracks : Operation → Bool
  | addProcessor .. | createJob .. | request .reserve .. => true
  | _ => false

namespace Network

variable {net n net' : Network} {code : StationCode} {j : Job} {t : Track} {op : Operation}
  {outcome : Outcome}

/-- The tracks of `n` are brought up to date in the end of the operation. -/
inductive Revalidates (net : Network) : Operation → Network → Prop
  | revalidate : Revalidates net .revalidate net
  | take {user : User} {id : JobId} {j : Job} {track : Track} {n : Network} :
    net.job? id = .ok (some j) → net.refusal? .take user id (some j) = none →
    net.trackToClaim? j = some track → net.modifyJob id (·.activate track) = .ok n →
    Revalidates net (.request .take user id) n
  | finish {user : User} {id : JobId} {j : Job} {m n : Network} {d : Dispatch} :
    net.job? id = .ok (some j) → net.refusal? .finish user id (some j) = none →
    net.removeJob id = .ok m → m.dispatch j = .ok (d, n) →
    Revalidates net (.request .finish user id) n

/-- A request that there is no cause to refuse is granted where the job is found. -/
theorem exists_granted {action : Action} {user : User} {id : JobId} (hnumbered : net.Numbered)
    (hjob : net.job? id = .ok (some j)) (hcause : net.refusal? action user id (some j) = none)
    (hp : net.perform (.request action user id) = .ok (outcome, net')) :
    ∃ place, net.Granted user place j action net' ∧
      (∀ f, net.modifyJob id f = .ok (net.modifyJobAt place f)) ∧
      net.removeJob id = .ok (net.removeJobAt place) := by
  cases perform_request hp with
  | refused hjob' hcause' =>
    cases hjob.symm.trans hjob'
    exact absurd (hcause.symm.trans hcause') nofun
  | @granted place k _ _ hjob' _ hj _ _ hgranted =>
    cases hjob.symm.trans hjob'
    obtain ⟨q, hq, -, hmodify, hremove⟩ := exists_jobAt?_of_job? hjob
    obtain rfl : q = place := hnumbered.place_eq hq hj rfl
    exact ⟨q, hgranted, hmodify, hremove⟩

/-- An operation that re-validates ends with that. -/
theorem Revalidates.eq_revalidate (h : net.Revalidates op n) (hnumbered : net.Numbered)
    (hp : net.perform op = .ok (outcome, net')) : net' = n.revalidate.2 := by
  cases h with
  | revalidate =>
    cases hp
    rfl
  | take hjob hcause htrack hn =>
    obtain ⟨place, hgranted, hmodify, -⟩ := exists_granted hnumbered hjob hcause hp
    cases (hmodify _).symm.trans hn
    cases hgranted with
    | take htrack' =>
      cases htrack.symm.trans htrack'
      rfl
  | finish hjob hcause hm hd =>
    obtain ⟨place, hgranted, -, hremove⟩ := exists_granted hnumbered hjob hcause hp
    cases hremove.symm.trans hm
    cases hgranted with
    | finish hd' =>
      cases hd.symm.trans hd'
      rfl

/-! ## Free proposals -/

/-- Every open job that is spawned has a free proposal. -/
def Offered (net : Network) : Prop :=
  ∀ j ∈ net.jobs, j.isSpawned → ¬ j.isReserved → ∃ t, j.proposedTrack = some t ∧ net.isFree t

/-- A job of a safe network that is not reserved is not active. -/
theorem Safe.not_isActive (h : net.Safe) (hj : j ∈ net.jobs) (hr : ¬ j.isReserved) :
    ¬ j.isActive :=
  fun ha => hr ((h.fits_of_mem hj).active ha).2.1

theorem EndsSettled.offered (h : net.EndsSettled) (hsafe : net.revalidate.2.Safe) :
    net.revalidate.2.Offered := by
  intro j hj hs hr
  have hopen := h.settled.free_of_spawned hj hs (hsafe.not_isActive hj hr)
  exact hopen.resolve_right fun hreserved => hr hreserved.1

namespace Offered

/-- The proposals stay free when jobs are reserved, and when jobs without tracks are added. -/
theorem of_jobs (h : net.Offered) (hjobs : ∀ k ∈ net'.jobs, k ∈ net.jobs ∨
    (∃ j ∈ net.jobs, ∃ user, k = j.reserve user) ∨ k.occupiedTracks = []) : net'.Offered := by
  have hfree : ∀ t, net.isFree t → net'.isFree t := by
    intro t ht
    refine isFree_iff.2 fun k hk hholds => ?_
    rcases hjobs k hk with hk | ⟨j, hj, user, rfl⟩ | hnone
    · exact isFree_iff.1 ht k hk hholds
    · exact isFree_iff.1 ht j hj hholds
    · have hmem := Job.mem_occupiedTracks.2 hholds
      exact absurd (hnone ▸ hmem) List.not_mem_nil
  intro k hk hs hr
  rcases hjobs k hk with hk | ⟨j, -, user, rfl⟩ | hnone
  · obtain ⟨t, ht, htfree⟩ := h k hk hs hr
    exact ⟨t, ht, hfree t htfree⟩
  · exact absurd rfl hr
  · obtain ⟨o, ho⟩ := Option.isSome_iff_exists.1 hs
    simp [Job.occupiedTracks, ho] at hnone

theorem modifyStation {s : Station} {f : Station → Station} (h : net.Offered)
    (hs : net.station? code = some s)
    (hqueue : ∀ k ∈ (f s).queue, k ∈ s.queue ∨ k.occupiedTracks = []) :
    (net.modifyStation code f).Offered := by
  obtain ⟨before, after, hjobs, hmod⟩ := exists_jobs_eq hs
  refine h.of_jobs fun k hk => ?_
  rw [hmod, List.mem_append, List.mem_append] at hk
  rw [hjobs, List.mem_append, List.mem_append]
  rcases hk with (hk | hk) | hk
  · exact .inl (.inl (.inl hk))
  · exact (hqueue k hk).imp (fun hk => .inl (.inr hk)) .inr
  · exact .inl (.inr hk)

theorem createJob {kind : JobKind} {destination : StationCode} {cars : Nat} {cargo : Cargo}
    {wage : Nat} {id : JobId} (h : net.Offered)
    (hjob : net.createJob code kind destination cars cargo wage = .ok (id, net')) :
    net'.Offered := by
  obtain ⟨s, overflow, hs, -, rfl⟩ := createJob_eq_ok hjob
  refine h.modifyStation hs fun k hk => ?_
  refine (List.mem_append.1 hk).imp_right fun hk => ?_
  rw [List.mem_singleton.1 hk]
  rfl

theorem addProcessor {p : Processor} {seeded : Option JobId} (h : net.Offered)
    (hadd : net.addProcessor code p = .ok (seeded, net')) : net'.Offered := by
  rcases addProcessor_eq_ok hadd with ⟨-, rfl⟩ | ⟨s, hs, hadded⟩
  · exact h
  · have hadded' : (net.modifyStation code (·.addProcessor p)).Offered :=
      h.modifyStation hs fun k hk => .inl hk
    rcases hadded with ⟨-, rfl⟩ | ⟨-, load, hseed⟩
    · exact hadded'
    · obtain ⟨generator, cars, wage, -, hjob⟩ := exists_createJob_of_seedLoad hseed
      have hdrawn : Offered { net.modifyStation code (·.addProcessor p) with generator } := hadded'
      exact hdrawn.createJob hjob

/-- The proposals stay free in every operation that leaves the tracks alone. -/
theorem perform (h : net.Offered) (hop : op.leavesTracks)
    (hp : net.perform op = .ok (outcome, net')) : net'.Offered := by
  cases op with
  | addProcessor code p =>
    obtain ⟨⟨seeded, n⟩, hadd, hp⟩ := Faulty.bind_eq_ok_iff.1 hp
    cases hp
    exact h.addProcessor hadd
  | createJob origin kind destination cars cargo wage =>
    obtain ⟨⟨id, n⟩, hjob, hp⟩ := Faulty.bind_eq_ok_iff.1 hp
    cases hp
    exact h.createJob hjob
  | request action user id =>
    cases action with
    | reserve =>
      cases perform_request hp with
      | refused => exact h
      | granted _ _ hj _ _ hgranted =>
        cases hgranted with
        | reserve =>
          obtain ⟨before, after, hjobs, hmod⟩ := exists_jobs_eq_of_jobAt? hj
          refine h.of_jobs fun k hk => ?_
          rw [hmod, List.mem_append, List.mem_cons] at hk
          rcases hk with hk | rfl | hk
          · exact .inl (by simp [hjobs, hk])
          · exact .inr (.inl ⟨_, mem_jobs_of_jobAt? hj, user, rfl⟩)
          · exact .inl (by simp [hjobs, hk])
    | take | finish => exact absurd hop nofun
  | addStation | revalidate => exact absurd hop nofun

theorem performAll {ops : List Operation} (h : net.Offered) (hops : ∀ op ∈ ops, op.leavesTracks)
    (hrun : net.performAll ops = .ok net') : net'.Offered := by
  induction ops generalizing net with
  | nil =>
    cases hrun
    exact h
  | cons op ops ih =>
    obtain ⟨hop, hops⟩ := List.forall_mem_cons.1 hops
    rw [Network.performAll, List.foldlM_cons] at hrun
    obtain ⟨n, hn, hrun⟩ := Faulty.bind_eq_ok_iff.1 hrun
    obtain ⟨⟨outcome, n'⟩, hp, hn⟩ := Faulty.bind_eq_ok_iff.1 hn
    cases hn
    exact ih (h.perform hop hp) hops hrun

end Offered

/-! ## Reserved and taken at once -/

/-- An open job is reserved. -/
theorem reserve_of_modifyJob {user : User} {id : JobId} (hjob : net.job? id = .ok (some j))
    (hcause : net.refusal? .reserve user id (some j) = none)
    (hn : net.modifyJob id (·.reserve user) = .ok n) :
    net.reserve user id = .ok (.ok (j.reserve user), n) := by
  obtain ⟨ha, hr⟩ := refusal?_reserve_eq_none_iff.1 hcause
  have hholder : j.holder = none := Option.not_isSome_iff_eq_none.1 hr
  rw [reserve, hjob]
  refine Faulty.bind_eq_ok_iff.2 ⟨some j, rfl, ?_⟩
  simp only [ha, hholder, Bool.false_eq_true, if_false]
  exact Faulty.bind_eq_ok_iff.2 ⟨n, hn, rfl⟩

/-- A job whose proposal is free is taken there by the user who has reserved it. -/
theorem exists_take_proposed {user : User} (hsafe : net.Safe) (hnumbered : net.Numbered)
    (hj : j ∈ net.jobs) (ha : ¬ j.isActive) (hu : j.isHeldBy user) (hs : j.isSpawned)
    (hproposed : j.proposedTrack = some t) (hfree : net.isFree t) :
    ∃ report net', net.take user j.id = .ok (.ok report, net') ∧ j.activate t ∈ net'.jobs := by
  have hgrant : net.refusal? .take user j.id (some j) = none := by
    refine refusal?_take_eq_none_iff.2 ⟨ha, hu, hs, ?_⟩
    rw [trackToClaim?_of_isFree hproposed hfree, Option.isSome_some]
  obtain ⟨report, net', htake⟩ := (exists_take_ok_iff hsafe hnumbered).2 ⟨j, hj, rfl, hgrant⟩
  obtain ⟨k, hk, hid, track, -, htakes⟩ := take_takes hsafe htake
  obtain rfl : k = j := hnumbered.eq_of_id hk hj hid
  obtain rfl : track = t := htakes.proposed t hproposed hfree
  exact ⟨report, net', htake, htakes.mem⟩

/-- An open job that is spawned can be reserved by anybody, who can then take it to the track that
    it shows. -/
theorem Offered.exists_take (h : net.Offered) (hsafe : net.Safe) (hnumbered : net.Numbered)
    (hj : j ∈ net.jobs) (hs : j.isSpawned) (hr : ¬ j.isReserved) (user : User) :
    ∃ n t net' track, net.reserve user j.id = .ok (.ok (j.reserve user), n) ∧
      n.take user j.id = .ok (.ok t, net') ∧ j.targetTrack = some track ∧
      (j.reserve user).activate track ∈ net'.jobs := by
  obtain ⟨track, hproposed, hfree⟩ := h j hj hs hr
  have ha := hsafe.not_isActive hj hr
  have hjob := (hnumbered.job?_eq_some_iff hsafe.filed).2 ⟨hj, rfl⟩
  have hcause : net.refusal? .reserve user j.id (some j) = none :=
    refusal?_reserve_eq_none_iff.2 ⟨ha, hr⟩
  obtain ⟨place, hplace, -, hmodify, -⟩ := exists_jobAt?_of_job? hjob
  let n := net.modifyJobAt place (·.reserve user)
  have hclaimed : net.Claimed user place j .reserve n := .reserve
  have hreserved : n.jobAt? place = some (j.reserve user) := by
    rw [jobAt?_modifyJobAt, if_pos rfl, hplace, Option.map_some]
  -- The reservation moves no track, so the proposal is free when the job is taken.
  have hfree' : n.isFree track := by
    rw [isFree_modifyJobAt_congr hplace rfl]
    exact hfree
  obtain ⟨t, net', htake, hmem⟩ := exists_take_proposed (hsafe.claimed hplace hcause hclaimed)
    (hnumbered.claimed hplace hclaimed) (mem_jobs_of_jobAt? hreserved) ha (decide_eq_true rfl) hs
    hproposed hfree'
  refine ⟨n, t, net', track, reserve_of_modifyJob hjob hcause (hmodify _), htake, ?_, hmem⟩
  rw [Job.targetTrack, Job.destinationTrack_of_not_isActive ha, Option.none_or, hproposed]

end Network

/-- When the last re-validation has ended with a round that changed no job, and since then jobs have
    only been reserved or created, anybody can reserve any open job that is spawned and take it at
    once, and gets the track that it was shown with. -/
theorem Reachable.exists_take_shown {config : Config} {net₀ n net₁ net : Network} {op : Operation}
    {outcome : Outcome} {ops : List Operation} (h : Reachable config net₀)
    (hrevalidates : net₀.Revalidates op n) (hend : n.EndsSettled)
    (hp : net₀.perform op = .ok (outcome, net₁)) (hops : ∀ op ∈ ops, op.leavesTracks)
    (hrun : net₁.performAll ops = .ok net) :
    ∀ j ∈ net.jobs, j.isSpawned → ¬ j.isReserved → ∀ user, ∃ n' t net' track,
      net.reserve user j.id = .ok (.ok (j.reserve user), n') ∧
      n'.take user j.id = .ok (.ok t, net') ∧ j.targetTrack = some track ∧
      j.view.targetTrack = track.name ∧ (j.reserve user).activate track ∈ net'.jobs := by
  obtain rfl := hrevalidates.eq_revalidate h.numbered hp
  have hreachable := h.step hp
  have hoffered := (hend.offered hreachable.safe).performAll hops hrun
  obtain ⟨history, hhistory⟩ := hreachable
  obtain ⟨later, -, hlater⟩ := hhistory.performAll (fun _ _ _ => trivial) hrun
  have hreachable' := hlater.reachable
  intro j hj hs hr user
  obtain ⟨n', t, net', track, hreserve, htake, htarget, hmem⟩ :=
    hoffered.exists_take hreachable'.safe hreachable'.numbered hj hs hr user
  refine ⟨n', t, net', track, hreserve, htake, htarget, ?_, hmem⟩
  rw [Job.view, htarget]
  rfl

/-- A run with hauls from three stations to the same sawmill. -/
def sharedTrackRun : List Operation :=
  [StationCode.cm, .gf, .sm, .sw].map (.addStation · 1 2) ++
    [StationCode.cm, .gf, .sm].map (.createJob · .logistics .sw 1 .coal 1)

/-- One of the hauls is reserved, and two more jobs are queued. -/
def sharedTrackOperations : List Operation :=
  [.request .reserve .eve (.of .sm .logistics 1), .createJob .gf .logistics .sw 1 .coal 1,
    .addProcessor .sw (.generative .boards [.gf])]

/-- The two hauls that are still open show the same track, and either of them can be taken there. -/
theorem sharedTrackRun_exists_take_shown :
    ∃ net₀ net, (Network.empty {}).performAll sharedTrackRun = .ok net₀ ∧ net₀.EndsSettled ∧
      net₀.revalidate.2.performAll sharedTrackOperations = .ok net ∧
      ((net.jobs.filter fun j => j.isSpawned && !j.isReserved).map fun j =>
        (j.origin, j.view.targetTrack)) = [(.cm, "SW-B-01-S"), (.gf, "SW-B-01-S")] ∧
      ∀ j ∈ net.jobs, j.isSpawned → ¬ j.isReserved → ∀ user, ∃ n' t net' track,
        net.reserve user j.id = .ok (.ok (j.reserve user), n') ∧
        n'.take user j.id = .ok (.ok t, net') ∧ j.targetTrack = some track ∧
        j.view.targetTrack = track.name ∧ (j.reserve user).activate track ∈ net'.jobs := by
  obtain ⟨net₀, hrun₀, hreachable, h⟩ := exists_reachable {} sharedTrackRun
    (fun net₀ => net₀.revalidate.1.rounds = 2 ∧ net₀.afterRound.Settled ∧
      (net₀.revalidate.2.performAll sharedTrackOperations).toOption.any fun net =>
        ((net.jobs.filter fun j => j.isSpawned && !j.isReserved).map fun j =>
          (j.origin, j.view.targetTrack)) = [(.cm, "SW-B-01-S"), (.gf, "SW-B-01-S")])
    (by decide +kernel)
  obtain ⟨hrounds, hsettled, h⟩ := of_decide_eq_true h
  have hend : net₀.EndsSettled := ⟨1, hrounds, hsettled⟩
  cases hrun : net₀.revalidate.2.performAll sharedTrackOperations with
  | error fault => simp [hrun, Except.toOption] at h
  | ok net =>
    rw [hrun] at h
    exact ⟨net₀, net, hrun₀, hend, hrun, of_decide_eq_true h,
      hreachable.exists_take_shown .revalidate hend rfl (by decide) hrun⟩

end RailFreight
