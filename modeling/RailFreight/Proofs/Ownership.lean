import RailFreight.Proofs.Numbering

/-!
# Ownership of jobs

Whoever reserves a job owns it until it is finished. The requests for a job that are granted
in a run are a reservation, then a take, then a finish, all by one user, or a first part of
these; how far they have come is the *phase* of the job (`phase`), and it decides how any
further request for the job is answered (`Phase.Allows`). The stations of the run may be
added in the midst of it, but none is replaced, for its jobs would vanish and its numbers
start again.

* `Network.claim?`: who holds a job and whether it is active, which is all of the network
  that the phase depends on;
* `Network.Numbered.claim?_upkeep`: upkeep does not touch claims, apart from new jobs with new
  ids;
* `Stage.claimed`, `Stage.allows`: what a granted request does to the stage of a job, and how
  the stage tells the answer to a request;
* `Run.stage`: in every run the granted requests and the claim of a job go together;
* `Run.exclusive_ownership`: the granted requests and the answers of every run.
-/

namespace RailFreight

/-! ## Phases -/

/-- The run may add stations, but replaces none. -/
def KeepsStations (net : Network) : Operation → Prop
  | .addStation code _ _ => net.station? code = none
  | _ => True

/-- The request for a job that was granted in an event. -/
def Event.grant? (id : JobId) (e : Event) : Option (Action × User) :=
  match e.operation with
  | .request action user asked =>
    if asked = id ∧ e.outcome.isGrant then some (action, user) else none
  | _ => none

/-- The requests for a job that were granted, the first one first. -/
def grants (id : JobId) (history : List Event) : List (Action × User) :=
  history.reverse.filterMap (Event.grant? id)

/-- Whether the job has been in the network. -/
def seen (id : JobId) (history : List Event) : Bool :=
  history.any fun e => e.network.jobs.any (·.id = id)

/-- How far a job has come with its user. -/
inductive Phase
  | unseen
  | unclaimed
  | reserved (user : User)
  | active (user : User)
  | finished

/-- The phase of a job for which these requests were granted, and which has been in the network
    or not. -/
def Phase.of : List (Action × User) → Bool → Phase
  | [], false => .unseen
  | [], true => .unclaimed
  | [(_, user)], _ => .reserved user
  | [_, (_, user)], _ => .active user
  | _, _ => .finished

/-- The phase of a job after a run. -/
def phase (id : JobId) (history : List Event) : Phase := .of (grants id history) (seen id history)

/-- How a request for a job may be answered in a phase. -/
def Phase.Allows (id : JobId) : Phase → Action → User → Outcome → Prop
  | .unseen, _, _, outcome => outcome = .refused (.jobNotFound id)
  | .unclaimed, .reserve, _, outcome => outcome.isGrant = true
  | .unclaimed, .take, user, outcome => outcome = .refused (.notReservedBy id user)
  | .unclaimed, .finish, _, outcome => outcome = .refused (.notActive id)
  | .reserved holder, .reserve, _, outcome => outcome = .refused (.alreadyReserved id holder)
  | .reserved holder, .take, user, outcome =>
    if user = holder then
      outcome.isGrant = true ∨ outcome = .refused (.notSpawned id) ∨
        outcome = .refused (.noDestinationTrack id)
    else outcome = .refused (.notReservedBy id user)
  | .reserved _, .finish, _, outcome => outcome = .refused (.notActive id)
  | .active _, .reserve, _, outcome => outcome = .refused (.alreadyActive id)
  | .active _, .take, _, outcome => outcome = .refused (.alreadyActive id)
  | .active holder, .finish, user, outcome =>
    if user = holder then outcome.isGrant = true else outcome = .refused (.notAssignedTo id user)
  | .finished, _, _, outcome => outcome = .refused (.jobNotFound id)

variable {net net' : Network} {id : JobId} {j : Job} {place : Place} {user : User}
  {action : Action} {outcome : Outcome}

/-! ## Claims -/

/-- The id of a job, who holds it, and whether it is active. -/
def Job.claim (j : Job) : JobId × Option User × Bool := (j.id, j.holder, j.isActive)

namespace Network

/-- Who holds the job of that id, and whether it is active. -/
def claim? (net : Network) (id : JobId) : Option (Option User × Bool) :=
  (net.jobs.find? (·.id = id)).map fun j => (j.holder, j.isActive)

theorem claim?_eq_find? (net : Network) (id : JobId) :
    net.claim? id = ((net.jobs.map Job.claim).find? (·.1 = id)).map Prod.snd := by
  rw [List.find?_map, Option.map_map]
  rfl

theorem claim?_congr (h : net'.jobs.map Job.claim = net.jobs.map Job.claim) (id : JobId) :
    net'.claim? id = net.claim? id := by
  rw [claim?_eq_find?, claim?_eq_find?, h]

theorem claim?_eq_none_iff : net.claim? id = none ↔ id ∉ net.jobs.map Job.id := by
  rw [claim?, Option.map_eq_none_iff, List.find?_eq_none, List.mem_map]
  simp only [decide_eq_true_eq, not_exists, not_and]

/-- With unique ids, every job has its own claim. -/
theorem Numbered.claim?_of_mem (h : net.Numbered) (hj : j ∈ net.jobs) :
    net.claim? j.id = some (j.holder, j.isActive) := by
  rw [claim?, h.find?_id hj, Option.map_some]

/-- In a step of upkeep the claim of a job stays, or the job is a new one with a new id. -/
theorem Numbered.claim?_upkeep (h : net.Numbered) (hf : net.Filed) (hup : net.Upkeep net')
    (id : JobId) :
    net'.claim? id = net.claim? id ∨
      (net'.claim? id = some (none, false) ∧ net.claim? id = none ∧ ¬ net.Issued id) := by
  have hnumbered := h.upkeep hf hup
  cases hup with
  | drawn generator he =>
    subst he
    exact .inl rfl
  | @assigned place j hj he =>
    subst he
    refine .inl (claim?_congr (jobs_map_modifyJobAt hj ?_) id)
    cases net.decision j <;> rfl
  | @changed code s s' hs hch he =>
    subst he
    obtain ⟨before, after, hjobs, hmod⟩ := exists_jobs_eq hs
    cases hch with
    | kept _ _ hq =>
      refine .inl (claim?_congr ?_ id)
      rw [hmod, hjobs, hq]
    | filled first rest load cargo cars _ _ _ _ _ hq hq' =>
      refine .inl (claim?_congr ?_ id)
      rw [hmod, hjobs, hq, hq']
      simp only [List.map_append, List.map_cons]
      rfl
    | queued kind destination cars cargo wage _ _ _ hq =>
      -- The new job either is the one asked about, or it does not match.
      have hnew := not_issued_of_nextNumber ((hf code s hs).symm ▸ hs) kind
      have hmem := hmod fun _ => s'
      rw [hq] at hmem
      generalize hk : Job.queued _ kind _ destination cars cargo wage = k at hmem
      have hkid : k.id = JobId.of s.code kind s.nextNumber := by rw [← hk]; rfl
      by_cases hid : k.id = id
      · rw [← hid]
        rw [← hkid] at hnew
        refine .inr ⟨?_, claim?_eq_none_iff.2 fun hm => hnew (h.issued hm), hnew⟩
        rw [hnumbered.claim?_of_mem (j := k) (by simp [hmem]), ← hk]
        rfl
      · refine .inl ?_
        rw [claim?, claim?, hmem, hjobs]
        simp [List.find?_append, hid]

/-- A request for one job leaves the claims of the others. -/
theorem Claimed.claim?_of_ne (h : net.Claimed user place j action net')
    (hj : net.jobAt? place = some j) (hid : j.id ≠ id) : net'.claim? id = net.claim? id := by
  cases h with
  | finish =>
    obtain ⟨before, after, hjobs, hremoved⟩ := exists_jobs_eq_of_removeJobAt hj
    rw [claim?, claim?, hremoved, hjobs]
    simp [List.find?_append, hid]
  | reserve | take =>
    obtain ⟨before, after, hjobs, hmod⟩ := exists_jobs_eq_of_jobAt? hj
    rw [claim?, claim?, hmod, hjobs]
    simp [List.find?_append, hid, Job.reserve, Job.activate]

end Network

/-! ## Stages -/

/-- What the claim of a job is, given which requests for it were granted, and whether it has
    been in the network. -/
inductive Stage (net : Network) (id : JobId) : List (Action × User) → Bool → Prop
  | unseen : net.claim? id = none → Stage net id [] false
  | unclaimed : net.claim? id = some (none, false) → Stage net id [] true
  | reserved {holder : User} : net.claim? id = some (some holder, false) →
    Stage net id [(.reserve, holder)] true
  | active {holder : User} : net.claim? id = some (some holder, true) →
    Stage net id [(.reserve, holder), (.take, holder)] true
  /-- The id of a finished job does not come back, for it has been issued. -/
  | finished {holder : User} : net.claim? id = none → net.Issued id →
    Stage net id [(.reserve, holder), (.take, holder), (.finish, holder)] true

namespace Stage

open Network

variable {given : List (Action × User)} {known : Bool}

/-- A job that is in the network has been seen. -/
theorem known_eq (h : Stage net id given known) : (known || (net.claim? id).isSome) = known := by
  cases h with
  | unseen h => rw [h]; rfl
  | unclaimed | reserved | active | finished => rfl

/-- A stage lasts while the claim does. -/
theorem of_claim?_eq (h : Stage net id given known) (hclaim : net'.claim? id = net.claim? id)
    (hissued : net.Issued id → net'.Issued id) : Stage net' id given known := by
  cases h with
  | unseen h => exact .unseen (hclaim.trans h)
  | unclaimed h => exact .unclaimed (hclaim.trans h)
  | reserved h => exact .reserved (hclaim.trans h)
  | active h => exact .active (hclaim.trans h)
  | finished h hi => exact .finished (hclaim.trans h) (hissued hi)

/-- A step of upkeep may bring a job that has not been seen, and else leaves its stage alone. -/
theorem upkeep (h : Stage net id given known) (hnumbered : net.Numbered) (hf : net.Filed)
    (hup : net.Upkeep net') : Stage net' id given (known || (net'.claim? id).isSome) := by
  rcases hnumbered.claim?_upkeep hf hup id with hclaim | ⟨hnew, hnone, hissued⟩
  · rw [hclaim, h.known_eq]
    exact h.of_claim?_eq hclaim fun hi => hi.upkeep hup
  · rw [hnew]
    cases h with
    | unseen => exact .unclaimed hnew
    | unclaimed h => exact absurd (hnone.symm.trans h) nofun
    | reserved h => exact absurd (hnone.symm.trans h) nofun
    | active h => exact absurd (hnone.symm.trans h) nofun
    | finished _ hi => exact absurd hi hissued

theorem upkept (h : Stage net id given known) (hnumbered : net.Numbered) (hf : net.Filed)
    (hup : net.Upkept net') : Stage net' id given (known || (net'.claim? id).isSome) := by
  induction hup with
  | refl =>
    rw [h.known_eq]
    exact h
  | @tail mid net' hups hup ih =>
    have hfmid : mid.Filed := Upkept.filed hups hf
    have hnext := ih.upkeep (hnumbered.upkept hf hups) hfmid hup
    -- A job that upkeep has brought stays in the network.
    have hstays : (mid.claim? id).isSome → (net'.claim? id).isSome := by
      intro hsome
      rcases (hnumbered.upkept hf hups).claim?_upkeep hfmid hup id with h | ⟨h, -, -⟩
      · rwa [h]
      · rw [h]; rfl
    cases hm : (mid.claim? id).isSome with
    | false => rwa [hm, Bool.or_false] at hnext
    | true =>
      rw [hstays hm, Bool.or_true] at hnext ⊢
      exact hnext

/-- The requests that are granted come from one user, and in their order. -/
theorem isPrefix (h : Stage net id given known) :
    ∃ user, given <+: [(.reserve, user), (.take, user), (.finish, user)] := by
  cases h with
  | unseen | unclaimed => exact ⟨⟨"nobody", by decide +kernel, by decide⟩, List.nil_prefix⟩
  | @reserved holder => exact ⟨holder, [(.take, holder), (.finish, holder)], rfl⟩
  | @active holder => exact ⟨holder, [(.finish, holder)], rfl⟩
  | @finished holder => exact ⟨holder, List.prefix_rfl⟩

/-- A request that is granted is the next one for the stage of the job. -/
theorem claimed (h : Stage net j.id given known) (hnumbered : net.Numbered)
    (hj : net.jobAt? place = some j) (hcause : net.refusal? action user id (some j) = none)
    (hclaimed : net.Claimed user place j action net') :
    known = true ∧ Stage net' j.id (given ++ [(action, user)]) true := by
  have hmem := mem_jobs_of_jobAt? hj
  have hclaim := hnumbered.claim?_of_mem hmem
  have hissued := (hnumbered.issued (List.mem_map_of_mem hmem)).claimed hclaimed
  have hnumbered' := hnumbered.claimed hj hclaimed
  -- A change of the job at its place changes its claim.
  have hchanged : ∀ f : Job → Job, (net.modifyJobAt place f).Numbered → (f j).id = j.id →
      (net.modifyJobAt place f).claim? j.id = some ((f j).holder, (f j).isActive) := by
    intro f hn hid
    have hp : (net.modifyJobAt place f).jobAt? place = some (f j) := by
      rw [jobAt?_modifyJobAt, if_pos rfl, hj, Option.map_some]
    rw [← hid]
    exact hn.claim?_of_mem (mem_jobs_of_jobAt? hp)
  cases hclaimed with
  | reserve =>
    obtain ⟨ha, hr⟩ := refusal?_reserve_eq_none_iff.1 hcause
    have hholder : j.holder = none := Option.not_isSome_iff_eq_none.1 hr
    have hactive : j.isActive = false := Bool.eq_false_iff.2 ha
    have hnew := hchanged (·.reserve user) hnumbered' rfl
    rw [hholder, hactive] at hclaim
    cases h with
    | unclaimed => exact ⟨rfl, .reserved (hnew.trans (by rw [← hactive]; rfl))⟩
    | unseen h | finished h => exact absurd (hclaim.symm.trans h) nofun
    | reserved h | active h => exact absurd (hclaim.symm.trans h) nofun
  | @take track htrack =>
    obtain ⟨ha, hu, -, -⟩ := refusal?_take_eq_none_iff.1 hcause
    have hholder : j.holder = some user := of_decide_eq_true hu
    have hactive : j.isActive = false := Bool.eq_false_iff.2 ha
    have hnew := hchanged (·.activate track) hnumbered' rfl
    rw [hholder, hactive] at hclaim
    cases h with
    | reserved h =>
      cases hclaim.symm.trans h
      exact ⟨rfl, .active (hnew.trans (by rw [← hholder]; rfl))⟩
    | unseen h | finished h => exact absurd (hclaim.symm.trans h) nofun
    | unclaimed h | active h => exact absurd (hclaim.symm.trans h) nofun
  | finish =>
    obtain ⟨ha, hu⟩ := refusal?_finish_eq_none_iff.1 hcause
    have hholder : j.holder = some user := of_decide_eq_true hu
    rw [hholder, ha] at hclaim
    have hnone : (net.removeJobAt place).claim? j.id = none := by
      obtain ⟨before, after, hjobs, hremoved⟩ := exists_jobs_eq_of_removeJobAt hj
      have hnodup := hnumbered.nodup
      rw [hjobs, List.map_append, List.map_cons, List.perm_middle.nodup_iff,
        List.nodup_cons] at hnodup
      rw [claim?_eq_none_iff, hremoved, List.map_append]
      exact hnodup.1
    cases h with
    | active h =>
      cases hclaim.symm.trans h
      exact ⟨rfl, .finished hnone hissued⟩
    | unseen h | finished h => exact absurd (hclaim.symm.trans h) nofun
    | unclaimed h | reserved h => exact absurd (hclaim.symm.trans h) nofun

end Stage

/-! ## Answers -/

namespace Network.Answered

variable {job : Option Job}

theorem eq_refused {cause : Refusal} (h : net.Answered action user id outcome net')
    (hjob : net.job? id = .ok job) (hcause : net.refusal? action user id job = some cause) :
    outcome = .refused cause := by
  cases h with
  | refused hjob' hcause' =>
    cases hjob.symm.trans hjob'
    cases hcause.symm.trans hcause'
    rfl
  | granted hjob' hcause' =>
    cases hjob.symm.trans hjob'
    exact absurd (hcause.symm.trans hcause') nofun

theorem isGrant (h : net.Answered action user id outcome net') (hjob : net.job? id = .ok job)
    (hcause : net.refusal? action user id job = none) : outcome.isGrant = true := by
  cases h with
  | refused hjob' hcause' =>
    cases hjob.symm.trans hjob'
    exact absurd (hcause.symm.trans hcause') nofun
  | granted _ _ _ _ hgrant => exact hgrant

end Network.Answered

/-- A request is answered as the phase of the job allows. -/
theorem Stage.allows {given : List (Action × User)} {known : Bool} (h : Stage net id given known)
    (hnumbered : net.Numbered) (hf : net.Filed) (ha : net.Answered action user id outcome net') :
    (Phase.of given known).Allows id action user outcome := by
  have hjob := hnumbered.job?_eq_find? hf id
  cases h with
  | unseen h | finished h =>
    rw [Option.map_eq_none_iff.1 h] at hjob
    have hrefused : outcome = .refused (.jobNotFound id) :=
      ha.eq_refused hjob (by cases action <;> rfl)
    cases action <;> exact hrefused
  | unclaimed h =>
    obtain ⟨j, hj, hclaim⟩ := Option.map_eq_some_iff.1 h
    obtain ⟨hholder, hactive⟩ := Prod.mk.inj hclaim
    rw [hj] at hjob
    cases action with
    | reserve => exact ha.isGrant hjob (by simp [Network.refusal?, hactive, hholder])
    | take => exact ha.eq_refused hjob (by simp [Network.refusal?, Job.isHeldBy, hactive, hholder])
    | finish => exact ha.eq_refused hjob (by simp [Network.refusal?, hactive])
  | @reserved holder h =>
    obtain ⟨j, hj, hclaim⟩ := Option.map_eq_some_iff.1 h
    obtain ⟨hholder, hactive⟩ := Prod.mk.inj hclaim
    rw [hj] at hjob
    cases action with
    | reserve => exact ha.eq_refused hjob (by simp [Network.refusal?, hactive, hholder])
    | take =>
      show if user = holder then _ else _
      split
      · rename_i hu
        have hheld : j.isHeldBy user := by simp [Job.isHeldBy, hholder, hu]
        by_cases hs : j.isSpawned
        · cases ht : net.trackToClaim? j with
          | none =>
            refine .inr (.inr (ha.eq_refused hjob ?_))
            simp [Network.refusal?, hactive, hheld, hs, ht]
          | some t =>
            refine .inl (ha.isGrant hjob ?_)
            simp [Network.refusal?, hactive, hheld, hs, ht]
        · refine .inr (.inl (ha.eq_refused hjob ?_))
          simp [Network.refusal?, hactive, hheld, hs]
      · rename_i hu
        have hheld : ¬ j.isHeldBy user := by simp [Job.isHeldBy, hholder, Ne.symm hu]
        exact ha.eq_refused hjob (by simp [Network.refusal?, hactive, hheld])
    | finish => exact ha.eq_refused hjob (by simp [Network.refusal?, hactive])
  | @active holder h =>
    obtain ⟨j, hj, hclaim⟩ := Option.map_eq_some_iff.1 h
    obtain ⟨hholder, hactive⟩ := Prod.mk.inj hclaim
    rw [hj] at hjob
    cases action with
    | reserve => exact ha.eq_refused hjob (by simp [Network.refusal?, hactive])
    | take => exact ha.eq_refused hjob (by simp [Network.refusal?, hactive])
    | finish =>
      show if user = holder then _ else _
      split
      · rename_i hu
        have hheld : j.isHeldBy user := by simp [Job.isHeldBy, hholder, hu]
        exact ha.isGrant hjob (by simp [Network.refusal?, hactive, hheld])
      · rename_i hu
        have hheld : ¬ j.isHeldBy user := by simp [Job.isHeldBy, hholder, Ne.symm hu]
        exact ha.eq_refused hjob (by simp [Network.refusal?, hactive, hheld])

/-! ## Runs -/

theorem seen_cons (id : JobId) (e : Event) (history : List Event) :
    seen id (e :: history) = (seen id history || (e.network.claim? id).isSome) := by
  have hsome : (e.network.claim? id).isSome = e.network.jobs.any (·.id = id) := by
    rw [Network.claim?, Option.isSome_map, List.isSome_find?]
  rw [seen, List.any_cons, Bool.or_comm, hsome]
  rfl

theorem grants_cons (id : JobId) (e : Event) (history : List Event) :
    grants id (e :: history) = grants id history ++ (e.grant? id).toList := by
  rw [grants, List.reverse_cons, List.filterMap_append, ← grants]
  cases h : e.grant? id <;> simp [h]

theorem Event.grant?_of_not_isRequest {e : Event} (h : e.operation.isRequest = false) (id : JobId) :
    e.grant? id = none := by
  rw [grant?]
  cases ho : e.operation <;> simp_all [Operation.isRequest]

/-- In every run the requests that were granted for a job tell its stage. -/
theorem Run.stage {config : Config} {history : List Event}
    (h : Run KeepsStations config history net) (id : JobId) :
    Stage net id (grants id history) (seen id history) := by
  induction h with
  | start => exact .unseen rfl
  | @step history net net' op outcome hrun hallowed hp ih =>
    have hsafe := hrun.reachable.safe
    have hnumbered := hrun.reachable.numbered
    rw [grants_cons, seen_cons]
    cases Network.perform_effect hp with
    | @stationAdded code minCars maxCars =>
      have hnew : net.station? code = none := hallowed
      have hclaim : (net.addStation code minCars maxCars).claim? id = net.claim? id :=
        Network.claim?_congr (congrArg _ (Network.jobs_putStation rfl hnew)) id
      show Stage _ id (grants id history ++ []) (_ || (Network.claim? _ id).isSome)
      rw [List.append_nil, hclaim, ih.known_eq]
      exact ih.of_claim?_eq hclaim fun hi => hi.addStation hnew minCars maxCars
    | upkept hrequest hup =>
      rw [Event.grant?_of_not_isRequest hrequest, Option.toList_none, List.append_nil]
      exact ih.upkept hnumbered hsafe.filed hup
    | @answered action user asked _ _ ha =>
      cases ha with
      | @refused _ cause =>
        have hgrant : Event.grant? id ⟨.request action user asked, .refused cause, net⟩ = none :=
          if_neg fun h => absurd h.2 nofun
        rw [hgrant, Option.toList_none, List.append_nil, ih.known_eq]
        exact ih
      | @granted place j _ _ hjob hcause hj hid hgrant hgranted =>
        obtain ⟨n, hclaimed, hup⟩ := hsafe.exists_claimed hj hgranted
        have hfiled := (hsafe.claimed hj hcause hclaimed).filed
        have hnumbered' := hnumbered.claimed hj hclaimed
        by_cases hasked : asked = id
        · -- The request is the next one for this job.
          subst hasked
          subst hid
          have hgrant : Event.grant? j.id ⟨.request action user j.id, outcome, net'⟩ =
              some (action, user) := if_pos ⟨rfl, hgrant⟩
          obtain ⟨hknown, hnext⟩ := ih.claimed hnumbered hj hcause hclaimed
          rw [hgrant, Option.toList_some, hknown]
          exact hnext.upkept hnumbered' hfiled hup
        · have hgrant : Event.grant? id ⟨.request action user asked, outcome, net'⟩ = none :=
            if_neg fun h => hasked h.1
          have hsame := hclaimed.claim?_of_ne hj (hid.trans_ne hasked)
          rw [hgrant, Option.toList_none, List.append_nil]
          exact (ih.of_claim?_eq hsame fun hi => hi.claimed hclaimed).upkept hnumbered' hfiled hup

/-- Whatever the order of the operations, the requests granted for a job are a reservation, a
    take and a finish by one user, or a first part of these, and any further request for the
    job is answered as its phase allows. -/
theorem Run.exclusive_ownership {config : Config} {history : List Event}
    (h : Run KeepsStations config history net) (id : JobId) :
    (∃ user, grants id history <+: [(.reserve, user), (.take, user), (.finish, user)]) ∧
      ∀ action user outcome net', net.perform (.request action user id) = .ok (outcome, net') →
        (phase id history).Allows id action user outcome := by
  refine ⟨(h.stage id).isPrefix, ?_⟩
  intro action user outcome net' hp
  exact (h.stage id).allows h.reachable.numbered h.reachable.safe.filed (Network.perform_request hp)

/-- The load of coal that is reserved and taken is owned by one user all along. -/
theorem coalRun_exclusive_ownership :
    ∃ history net, history.map Event.operation = coalRun.reverse ∧
      Run KeepsStations {} history net ∧
      (∃ user, grants (.of .cm .shuntingLoad 1) history <+:
        [(.reserve, user), (.take, user), (.finish, user)]) ∧
      ∀ action user outcome net',
        net.perform (.request action user (.of .cm .shuntingLoad 1)) = .ok (outcome, net') →
        (phase (.of .cm .shuntingLoad 1) history).Allows (.of .cm .shuntingLoad 1) action user
          outcome := by
  have hnew : KeepsStations (.empty {}) (.addStation .cm 1 3) := rfl
  have hstart : Run KeepsStations {} [_] ((Network.empty {}).addStation .cm 1 3) :=
    Run.start.step hnew rfl
  have hrest : (((Network.empty {}).addStation .cm 1 3).performAll coalRun.tail).isOk := by
    decide +kernel
  cases hnet : ((Network.empty {}).addStation .cm 1 3).performAll coalRun.tail with
  | error fault => exact absurd (hnet ▸ hrest) nofun
  | ok net =>
    obtain ⟨later, hlater, hrun⟩ := hstart.performAll (by
      intro op hop n
      simp only [coalRun, List.tail_cons, List.mem_cons, List.not_mem_nil, or_false] at hop
      rcases hop with rfl | rfl | rfl | rfl | rfl <;> trivial) hnet
    refine ⟨_, net, ?_, hrun, hrun.exclusive_ownership _⟩
    rw [List.map_append, hlater]
    rfl

end RailFreight
