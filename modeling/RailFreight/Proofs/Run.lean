import RailFreight.Proofs.Upkeep

/-!
# Runs of a network

A run starts from a network without stations and performs one operation after the other:
stations and processors are added, jobs are created, the tracks are re-validated, and users
request jobs. Operations may be refused, but none of them meets a fault. Which operations
may occur is a parameter of the run (`Run`); a network is *reachable* when some run without
any restriction ends in it.

* `Network.refusal?`: why a request is refused, as a function of the job asked for;
* `Network.perform_request`: a request is refused for such a cause only, and leaves the
  network as it is then; otherwise it is granted, with the effect of `Network.Granted`;
* `Network.perform_effect`: an operation adds a station, or answers a request, or is upkeep;
* `Reachable.invariant`: what the operations keep holds in every reachable network.
-/

namespace RailFreight

/-! ## Operations -/

/-- What a user asks for. -/
inductive Action
  | reserve | take | finish
  deriving DecidableEq, Repr

/-- An operation on a network. -/
inductive Operation
  | addStation (code : StationCode) (minCars maxCars : Nat)
  | addProcessor (code : StationCode) (p : Processor)
  | createJob (origin : StationCode) (kind : JobKind) (destination : StationCode) (cars : Nat)
    (cargo : Cargo) (wage : Nat)
  | revalidate
  | request (action : Action) (user : User) (id : JobId)

/-- Whether a user asks for something. -/
def Operation.isRequest : Operation → Bool
  | request .. => true
  | _ => false

/-- What comes of an operation. -/
inductive Outcome
  | stationAdded
  | processorAdded (seeded : Option JobId)
  | jobCreated (id : JobId)
  | revalidated (report : Revalidation)
  /-- A job was reserved. -/
  | reserved (job : Job)
  /-- A job was taken or finished. -/
  | moved (transition : Transition)
  /-- A request was refused. -/
  | refused (cause : Refusal)

namespace Outcome

/-- What comes of a request. -/
def ofReply {α : Type} (grant : α → Outcome) : Reply α → Outcome × Network
  | (.ok a, net) => (grant a, net)
  | (.error cause, net) => (.refused cause, net)

/-- Whether a request was granted. -/
def isGrant : Outcome → Bool
  | reserved _ | moved _ => true
  | _ => false

end Outcome

namespace Network

/-- Performs an operation. -/
def perform (net : Network) : Operation → Faulty (Outcome × Network)
  | .addStation code minCars maxCars => return (.stationAdded, net.addStation code minCars maxCars)
  | .addProcessor code p => do
    let (seeded, net) ← net.addProcessor code p
    return (.processorAdded seeded, net)
  | .createJob origin kind destination cars cargo wage => do
    let (id, net) ← net.createJob origin kind destination cars cargo wage
    return (.jobCreated id, net)
  | .revalidate => return (.revalidated net.revalidate.1, net.revalidate.2)
  | .request .reserve user id => do return Outcome.ofReply .reserved (← net.reserve user id)
  | .request .take user id => do return Outcome.ofReply .moved (← net.take user id)
  | .request .finish user id => do return Outcome.ofReply .moved (← net.finish user id)

/-- Performs operations one after the other. -/
def performAll (net : Network) (ops : List Operation) : Faulty Network :=
  ops.foldlM (fun n op => do return (← n.perform op).2) net

end Network

/-- An operation that was performed, what came of it, and the network after it. -/
structure Event where
  operation : Operation
  outcome : Outcome
  network : Network

/-- The runs with operations that are `Allowed` where they are performed: the events, the
    latest one first, and the network that they end in. -/
inductive Run (Allowed : Network → Operation → Prop) (config : Config) :
    List Event → Network → Prop
  | start : Run Allowed config [] (.empty config)
  | step {history : List Event} {net net' : Network} {op : Operation} {outcome : Outcome} :
    Run Allowed config history net → Allowed net op → net.perform op = .ok (outcome, net') →
    Run Allowed config (⟨op, outcome, net'⟩ :: history) net'

/-- The networks that some run ends in. -/
def Reachable (config : Config) (net : Network) : Prop :=
  ∃ history, Run (fun _ _ => True) config history net

/-- What is allowed less freely is allowed. -/
theorem Run.mono {Allowed Allowed' : Network → Operation → Prop} {config : Config}
    {history : List Event} {net : Network} (h : Run Allowed config history net)
    (himp : ∀ n op, Allowed n op → Allowed' n op) : Run Allowed' config history net := by
  induction h with
  | start => exact .start
  | step _ hop hp ih => exact ih.step (himp _ _ hop) hp

theorem Run.reachable {Allowed : Network → Operation → Prop} {config : Config}
    {history : List Event} {net : Network} (h : Run Allowed config history net) :
    Reachable config net :=
  ⟨history, h.mono fun _ _ _ => trivial⟩

/-- Operations that are allowed everywhere continue a run. -/
theorem Run.performAll {Allowed : Network → Operation → Prop} {config : Config}
    {history : List Event} {net net' : Network} {ops : List Operation}
    (h : Run Allowed config history net) (hallowed : ∀ op ∈ ops, ∀ n, Allowed n op)
    (hops : net.performAll ops = .ok net') :
    ∃ later, later.map Event.operation = ops.reverse ∧
      Run Allowed config (later ++ history) net' := by
  induction ops generalizing history net with
  | nil =>
    cases hops
    exact ⟨[], rfl, h⟩
  | cons op ops ih =>
    rw [Network.performAll, List.foldlM_cons] at hops
    obtain ⟨n, hop, hops⟩ := Faulty.bind_eq_ok_iff.1 hops
    obtain ⟨⟨outcome, n'⟩, hp, hn⟩ := Faulty.bind_eq_ok_iff.1 hop
    cases hn
    obtain ⟨hfirst, hrest⟩ := List.forall_mem_cons.1 hallowed
    obtain ⟨later, hlater, hrun⟩ := ih (h.step (hfirst net) hp) hrest hops
    refine ⟨later ++ [⟨op, outcome, n'⟩], ?_, ?_⟩
    · rw [List.map_append, hlater, List.reverse_cons]
      rfl
    · rw [List.append_assoc]
      exact hrun

/-- The reachable networks are those that operations lead to from the network without
    stations. -/
theorem reachable_iff {config : Config} {net : Network} :
    Reachable config net ↔ ∃ ops, (Network.empty config).performAll ops = .ok net := by
  constructor
  · rintro ⟨history, hrun⟩
    induction hrun with
    | start => exact ⟨[], rfl⟩
    | @step history n n' op outcome _ _ hp ih =>
      obtain ⟨ops, hops⟩ := ih
      refine ⟨ops ++ [op], ?_⟩
      rw [Network.performAll, List.foldlM_append]
      refine Faulty.bind_eq_ok_iff.2 ⟨n, hops, ?_⟩
      simp [hp, bind, Except.bind, pure, Except.pure]
  · rintro ⟨ops, hops⟩
    obtain ⟨later, -, hrun⟩ := Run.start.performAll (fun _ _ _ => trivial) hops
    exact ⟨_, hrun⟩

/-- Operations that meet no fault reach a network, of which any test of their result tells. -/
theorem exists_reachable (config : Config) (ops : List Operation) (p : Network → Bool)
    (h : ((Network.empty config).performAll ops).toOption.any p) :
    ∃ net, (Network.empty config).performAll ops = .ok net ∧ Reachable config net ∧ p net := by
  cases hops : (Network.empty config).performAll ops with
  | error fault => simp [hops, Except.toOption] at h
  | ok net =>
    rw [hops] at h
    exact ⟨net, rfl, reachable_iff.2 ⟨ops, hops⟩, h⟩

/-- After operations that meet no fault another one is performed, of which any test tells. -/
theorem exists_reachable_perform (config : Config) (ops : List Operation) (op : Operation)
    (p : Network → Outcome → Network → Bool)
    (h : ((Network.empty config).performAll ops).toOption.any fun net =>
      (net.perform op).toOption.any fun (outcome, net') => p net outcome net') :
    ∃ net outcome net', (Network.empty config).performAll ops = .ok net ∧ Reachable config net ∧
      net.perform op = .ok (outcome, net') ∧ p net outcome net' := by
  obtain ⟨net, hrun, hreachable, h⟩ := exists_reachable config ops _ h
  cases hp : net.perform op with
  | error fault => simp [hp, Except.toOption] at h
  | ok result =>
    rw [hp] at h
    exact ⟨net, result.1, result.2, hrun, hreachable, hp, h⟩

/-- A user of the runs on which results are shown. -/
def User.bob : User := ⟨"bob", by decide +kernel, by decide⟩

/-- Another user. -/
def User.eve : User := ⟨"eve", by decide +kernel, by decide⟩

theorem Reachable.step {config : Config} {net net' : Network} {op : Operation} {outcome : Outcome}
    (h : Reachable config net) (hp : net.perform op = .ok (outcome, net')) :
    Reachable config net' := by
  obtain ⟨history, hrun⟩ := h
  exact ⟨_, hrun.step trivial hp⟩

/-- What the operations keep holds in every reachable network. -/
theorem Reachable.invariant {config : Config} {P : Network → Prop} (hempty : P (.empty config))
    (hstep : ∀ net op outcome net', P net → net.perform op = .ok (outcome, net') → P net')
    {net : Network} (h : Reachable config net) : P net := by
  obtain ⟨history, hrun⟩ := h
  induction hrun with
  | start => exact hempty
  | step _ _ hp ih => exact hstep _ _ _ _ ih hp

/-! ## Requests -/

/-- The first match of a list stands somewhere, and is changed and taken out there. -/
theorem exists_getElem?_of_find? {α : Type} {p : α → Bool} {xs : List α} {x : α}
    (h : xs.find? p = some x) :
    ∃ i, xs[i]? = some x ∧ (∀ f, modifyFirst p f xs = xs.modify i f) ∧
      xs.eraseP p = xs.eraseIdx i := by
  induction xs with
  | nil => simp at h
  | cons y ys ih =>
    rw [List.find?_cons] at h
    split at h
    · rename_i hy
      cases h
      exact ⟨0, rfl, fun f => by rw [modifyFirst, if_pos hy, List.modify_zero_cons],
        by rw [List.eraseP_cons_of_pos hy, List.eraseIdx_cons_zero]⟩
    · rename_i hy
      obtain ⟨i, hi, hm, he⟩ := ih h
      refine ⟨i + 1, hi, fun f => ?_, ?_⟩
      · rw [modifyFirst, if_neg (by simp [hy]), hm, List.modify_succ_cons]
      · rw [List.eraseP_cons_of_neg (by simp [hy]), he, List.eraseIdx_cons_succ]

namespace Network

variable {net net' : Network} {place : Place} {j : Job} {id : JobId} {user : User}

/-- Takes the job at a place out of its queue. -/
def removeJobAt (net : Network) (place : Place) : Network :=
  net.modifyStation place.1 fun s => { s with queue := s.queue.eraseIdx place.2 }

theorem Filed.removeJobAt (hf : net.Filed) (place : Place) : (net.removeJobAt place).Filed :=
  hf.modifyStation fun s hs => hf place.1 s hs

/-- A job that is found stands somewhere, and is changed and taken out there. -/
theorem exists_jobAt?_of_job? (h : net.job? id = .ok (some j)) :
    ∃ place, net.jobAt? place = some j ∧ j.id = id ∧
      (∀ f, net.modifyJob id f = .ok (net.modifyJobAt place f)) ∧
      net.removeJob id = .ok (net.removeJobAt place) := by
  obtain ⟨code?, hloc, h⟩ := Faulty.bind_eq_ok_iff.1 h
  have h := Except.ok.inj h
  obtain ⟨s, hs, hj⟩ := Option.bind_eq_some_iff.1 h
  obtain ⟨code, rfl, hs⟩ := Option.bind_eq_some_iff.1 hs
  obtain ⟨i, hi, hm, he⟩ := exists_getElem?_of_find? hj
  refine ⟨(code, i), jobAt?_eq_some_iff.2 ⟨s, hs, hi⟩, (Job.of_find?_id hj).2, fun f => ?_, ?_⟩
  · rw [modifyJob, hloc]
    exact congrArg Except.ok (modifyStation_congr hs (by rw [Station.modifyJob, hm]))
  · rw [removeJob, hloc]
    exact congrArg Except.ok (modifyStation_congr hs (by rw [Station.removeJob, he]))

/-- A job that is taken out of its queue is missing among the jobs. -/
theorem exists_jobs_eq_of_removeJobAt {place : Place} (h : net.jobAt? place = some j) :
    ∃ before after, net.jobs = before ++ j :: after ∧
      (net.removeJobAt place).jobs = before ++ after := by
  obtain ⟨s, hs, hj⟩ := jobAt?_eq_some_iff.1 h
  obtain ⟨before, after, hjobs, hmod⟩ := exists_jobs_eq_of_getElem? hs hj
  refine ⟨before, after, hjobs, ?_⟩
  rw [removeJobAt, hmod _ [], List.append_nil]
  rw [List.eraseIdx_eq_take_drop_succ, List.append_nil]

/-- Why a request is refused, given the job it asks for, if there is such a job. -/
def refusal? (net : Network) (action : Action) (user : User) (id : JobId) :
    Option Job → Option Refusal
  | none => some (.jobNotFound id)
  | some j =>
    match action with
    | .reserve =>
      if j.isActive then some (.alreadyActive id) else j.holder.map (.alreadyReserved id)
    | .take =>
      if j.isActive then some (.alreadyActive id)
      else if !j.isHeldBy user then some (.notReservedBy id user)
      else if !j.isSpawned then some (.notSpawned id)
      else if (net.trackToClaim? j).isNone then some (.noDestinationTrack id)
      else none
    | .finish =>
      if !j.isActive then some (.notActive id)
      else if !j.isHeldBy user then some (.notAssignedTo id user)
      else none

/-- An open job is reserved. -/
theorem refusal?_reserve_eq_none_iff :
    net.refusal? .reserve user id (some j) = none ↔ ¬ j.isActive ∧ ¬ j.isReserved := by
  rw [refusal?, Job.isReserved]
  cases j.isActive <;> cases j.holder <;> simp

/-- A spawned job is taken by the user who reserved it, if there is a track to claim. -/
theorem refusal?_take_eq_none_iff :
    net.refusal? .take user id (some j) = none ↔
      ¬ j.isActive ∧ j.isHeldBy user ∧ j.isSpawned ∧ (net.trackToClaim? j).isSome := by
  rw [refusal?]
  cases j.isActive <;> cases j.isHeldBy user <;> cases j.isSpawned <;>
    cases net.trackToClaim? j <;> simp

/-- An active job is finished by the user who took it. -/
theorem refusal?_finish_eq_none_iff :
    net.refusal? .finish user id (some j) = none ↔ j.isActive ∧ j.isHeldBy user := by
  rw [refusal?]
  cases j.isActive <;> cases j.isHeldBy user <;> simp

/-- What a granted request for the job at a place makes of the network. -/
inductive Granted (net : Network) (user : User) (place : Place) (j : Job) :
    Action → Network → Prop
  | reserve : Granted net user place j .reserve (net.modifyJobAt place (·.reserve user))
  | take {track : Track} : net.trackToClaim? j = some track →
    Granted net user place j .take (net.modifyJobAt place (·.activate track)).revalidate.2
  | finish {d : Dispatch} {n : Network} : (net.removeJobAt place).dispatch j = .ok (d, n) →
    Granted net user place j .finish n.revalidate.2

/-- What a granted request does to the job at a place. -/
inductive Claimed (net : Network) (user : User) (place : Place) (j : Job) :
    Action → Network → Prop
  | reserve : Claimed net user place j .reserve (net.modifyJobAt place (·.reserve user))
  | take {track : Track} : net.trackToClaim? j = some track →
    Claimed net user place j .take (net.modifyJobAt place (·.activate track))
  | finish : Claimed net user place j .finish (net.removeJobAt place)

theorem Claimed.config_eq {action : Action} (h : net.Claimed user place j action net') :
    net'.config = net.config := by
  cases h <;> rfl

/-- Only the station of the job is touched. -/
theorem Claimed.station?_eq {action : Action} {c : StationCode}
    (h : net.Claimed user place j action net') (hc : c ≠ place.1) :
    net'.station? c = net.station? c := by
  cases h with
  | reserve | take | finish => exact station?_modifyStation_of_ne hc _

/-- Whatever else happens when a request is granted is upkeep. -/
theorem Granted.exists_claimed {action : Action} (hf : net.Filed)
    (hcars : j.cars ≤ net.config.maxCars) (h : net.Granted user place j action net') :
    ∃ n, net.Claimed user place j action n ∧ n.Upkept net' := by
  cases h with
  | reserve => exact ⟨_, .reserve, .refl⟩
  | take ht => exact ⟨_, .take ht, revalidate_upkept _⟩
  | finish hd =>
    have hup := (dispatch_upkeptAt (hf.removeJobAt place) hcars hd).upkept
    exact ⟨_, .finish, hup.trans (revalidate_upkept _)⟩

/-- How a request is answered: refused for its cause, with the network left as it is, or
    granted when there is no cause to refuse it. -/
inductive Answered (net : Network) (action : Action) (user : User) (id : JobId) :
    Outcome → Network → Prop
  | refused {job : Option Job} {cause : Refusal} : net.job? id = .ok job →
    net.refusal? action user id job = some cause → Answered net action user id (.refused cause) net
  | granted {place : Place} {j : Job} {outcome : Outcome} {net' : Network} :
    net.job? id = .ok (some j) → net.refusal? action user id (some j) = none →
    net.jobAt? place = some j → j.id = id → outcome.isGrant → net.Granted user place j action net' →
    Answered net action user id outcome net'

theorem perform_reserve {outcome : Outcome}
    (h : net.perform (.request .reserve user id) = .ok (outcome, net')) :
    net.Answered .reserve user id outcome net' := by
  obtain ⟨reply, hr, h⟩ := Faulty.bind_eq_ok_iff.1 h
  obtain ⟨job, hjob, hr⟩ := Faulty.bind_eq_ok_iff.1 hr
  cases job with
  | none =>
    cases hr
    cases h
    exact .refused hjob rfl
  | some j =>
    simp only at hr
    split at hr
    · rename_i ha
      cases hr
      cases h
      exact .refused hjob (by simp [refusal?, ha])
    · rename_i ha
      split at hr
      · rename_i holder hh
        cases hr
        cases h
        exact .refused hjob (by simp [refusal?, ha, hh])
      · rename_i hh
        obtain ⟨place, hp, hid, hm, -⟩ := exists_jobAt?_of_job? hjob
        obtain ⟨n, hn, hr⟩ := Faulty.bind_eq_ok_iff.1 hr
        cases (hm _).symm.trans hn
        cases hr
        cases h
        exact .granted hjob (by simp [refusal?, ha, hh]) hp hid rfl .reserve

theorem perform_take {outcome : Outcome}
    (h : net.perform (.request .take user id) = .ok (outcome, net')) :
    net.Answered .take user id outcome net' := by
  obtain ⟨reply, hr, h⟩ := Faulty.bind_eq_ok_iff.1 h
  obtain ⟨job, hjob, hr⟩ := Faulty.bind_eq_ok_iff.1 hr
  cases job with
  | none =>
    cases hr
    cases h
    exact .refused hjob rfl
  | some j =>
    simp only at hr
    split at hr
    · rename_i ha
      cases hr
      cases h
      exact .refused hjob (by simp [refusal?, ha])
    · rename_i ha
      split at hr
      · rename_i hu
        cases hr
        cases h
        exact .refused hjob (by simp_all [refusal?])
      · rename_i hu
        split at hr
        · rename_i hs
          cases hr
          cases h
          exact .refused hjob (by simp_all [refusal?])
        · rename_i hs
          split at hr
          · rename_i ht
            cases hr
            cases h
            exact .refused hjob (by simp_all [refusal?])
          · rename_i track ht
            obtain ⟨place, hp, hid, hm, -⟩ := exists_jobAt?_of_job? hjob
            obtain ⟨n, hn, hr⟩ := Faulty.bind_eq_ok_iff.1 hr
            cases (hm _).symm.trans hn
            have hcause : net.refusal? .take user id (some j) = none := by simp_all [refusal?]
            have hgranted : net.Granted user place j .take _ := .take ht
            -- What is reported does not matter for what happens to the network.
            obtain ⟨t, -, hr⟩ := Faulty.bind_eq_ok_iff.1 hr
            split at hr
            · cases hr
              cases h
              exact .granted hjob hcause hp hid rfl hgranted
            · obtain ⟨taken, -, hr⟩ := Faulty.bind_eq_ok_iff.1 hr
              cases hr
              cases h
              exact .granted hjob hcause hp hid rfl hgranted

theorem perform_finish {outcome : Outcome}
    (h : net.perform (.request .finish user id) = .ok (outcome, net')) :
    net.Answered .finish user id outcome net' := by
  obtain ⟨reply, hr, h⟩ := Faulty.bind_eq_ok_iff.1 h
  obtain ⟨job, hjob, hr⟩ := Faulty.bind_eq_ok_iff.1 hr
  cases job with
  | none =>
    cases hr
    cases h
    exact .refused hjob rfl
  | some j =>
    simp only at hr
    split at hr
    · rename_i ha
      cases hr
      cases h
      exact .refused hjob (by simp_all [refusal?])
    · rename_i ha
      split at hr
      · rename_i hu
        cases hr
        cases h
        exact .refused hjob (by simp_all [refusal?])
      · rename_i hu
        obtain ⟨place, hp, hid, -, hrem⟩ := exists_jobAt?_of_job? hjob
        obtain ⟨n, hn, hr⟩ := Faulty.bind_eq_ok_iff.1 hr
        cases hrem.symm.trans hn
        obtain ⟨⟨d, n⟩, hd, hr⟩ := Faulty.bind_eq_ok_iff.1 hr
        have hcause : net.refusal? .finish user id (some j) = none := by simp_all [refusal?]
        obtain ⟨t, -, hr⟩ := Faulty.bind_eq_ok_iff.1 hr
        obtain ⟨t', -, hr⟩ := Faulty.bind_eq_ok_iff.1 hr
        obtain ⟨created, -, hr⟩ := Faulty.bind_eq_ok_iff.1 hr
        cases hr
        cases h
        exact .granted hjob hcause hp hid rfl (.finish hd)

/-- A request that meets no fault is refused for its cause, or granted for want of one. -/
theorem perform_request {action : Action} {outcome : Outcome}
    (h : net.perform (.request action user id) = .ok (outcome, net')) :
    net.Answered action user id outcome net' := by
  cases action with
  | reserve => exact perform_reserve h
  | take => exact perform_take h
  | finish => exact perform_finish h

/-! ## Effects of operations -/

/-- What an operation does to a network. -/
inductive Effect (net : Network) : Operation → Outcome → Network → Prop
  | stationAdded {code : StationCode} {minCars maxCars : Nat} :
    Effect net (.addStation code minCars maxCars) .stationAdded
      (net.addStation code minCars maxCars)
  /-- An operation that is no request is upkeep, unless it adds a station. -/
  | upkept {op : Operation} {outcome : Outcome} {net' : Network} :
    op.isRequest = false → net.Upkept net' → Effect net op outcome net'
  | answered {action : Action} {user : User} {id : JobId} {outcome : Outcome} {net' : Network} :
    net.Answered action user id outcome net' → Effect net (.request action user id) outcome net'

/-- Every operation that meets no fault has one of three effects. -/
theorem perform_effect {op : Operation} {outcome : Outcome}
    (h : net.perform op = .ok (outcome, net')) : net.Effect op outcome net' := by
  cases op with
  | addStation code minCars maxCars =>
    cases h
    exact .stationAdded
  | addProcessor code p =>
    obtain ⟨⟨seeded, n⟩, hadd, h⟩ := Faulty.bind_eq_ok_iff.1 h
    cases h
    exact .upkept rfl (addProcessor_upkeptAt hadd).upkept
  | createJob origin kind destination cars cargo wage =>
    obtain ⟨⟨id, n⟩, hjob, h⟩ := Faulty.bind_eq_ok_iff.1 h
    cases h
    exact .upkept rfl (createJob_upkeptAt hjob).upkept
  | revalidate =>
    cases h
    exact .upkept rfl (revalidate_upkept net)
  | request action user id => exact .answered (perform_request h)

end Network

end RailFreight
