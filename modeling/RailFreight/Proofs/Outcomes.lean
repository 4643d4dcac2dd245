import RailFreight.CommandLine.Execution
import RailFreight.Proofs.Listings
import RailFreight.Proofs.Loads
import RailFreight.Proofs.Observation

/-!
# What comes of a scenario

A scenario is run by many parts: its users and steps are resolved, a board answers their requests
and announces stations, the notifier passes the announcements on to an observer, and at the end the
events and the counts are printed and the failed steps told. What is sent to the notifier, and
everything else but what is lost, can be told from the network alone: how each step ends when the
requests are made of it directly, one step after the other (`Scenario.outcomes`). What is lost
depends on the pace of the notifier. If it has handled everything before the observer begins to
draw, that is what comes after the outbox was full for the first time; if it has not, then less may
be lost (`Invocation.narrowRun_execute_late`).

A step that took its job also finishes it. The job is held and active after the take, no other
request comes in between, and the re-validation of the take does not touch claims.

* `Scenario.outcomes`: how the steps of a scenario end;
* `Reachable.finish_isOk`: a job that was just taken is finished;
* `ScenarioRun.step_after`, `Scenario.play_eq`: what a step and all steps come to;
* `Scenario.run_of_outcomes`: what is reported of them;
* `Invocation.execute_scenario`: what is printed, and the exit code.
-/

namespace RailFreight

/-! ## Outcomes -/

/-- How a step of a scenario ends. -/
inductive StepOutcome
  /-- The name of the user is blank. -/
  | nameless
  | unreserved (cause : Refusal)
  | untaken (cause : Refusal)
  /-- The job is reserved and taken, and is asked to be finished. -/
  | taken (transition : Transition) (finish : Except Refusal Transition)
  deriving DecidableEq

namespace StepOutcome

/-- The stations that are notified in the step, in order. -/
def notified : StepOutcome → List StationCode
  | taken t (.ok t') => t.notified ++ t'.notified
  | taken t (.error _) => t.notified
  | _ => []

/-- Whether the user has a name, and the job was reserved and taken. -/
def isTaken : StepOutcome → Bool
  | taken .. => true
  | _ => false

/-- Whether the job was finished after that. -/
def isFinished : StepOutcome → Bool
  | taken _ (.ok _) => true
  | _ => false

end StepOutcome

namespace Network

/-- Reserves, takes and finishes a job, up to the first refusal. -/
def runJob (net : Network) (user : User) (id : JobId) : Faulty (StepOutcome × Network) := do
  match ← net.reserve user id with
  | (.error cause, net) => return (.unreserved cause, net)
  | (.ok _, net) =>
    match ← net.take user id with
    | (.error cause, net) => return (.untaken cause, net)
    | (.ok t, net) =>
      let (finish, net) ← net.finish user id
      return (.taken t finish, net)

/-- Runs a step under the name of its user. -/
def runStep (net : Network) (user : String) (job : String) : Faulty (StepOutcome × Network) :=
  match User.ofText? user with
  | none => return (.nameless, net)
  | some user => net.runJob user ⟨job⟩

/-- Runs steps of a scenario one after the other. -/
def runSteps (net : Network) (s : Scenario) :
    List ScenarioStep → Faulty (List StepOutcome × Network)
  | [] => return ([], net)
  | step :: steps => do
    let (outcome, net) ← net.runStep (s.userFor step) step.job
    let (outcomes, net) ← net.runSteps s steps
    return (outcome :: outcomes, net)

end Network

/-- How the steps of a scenario end on the standard network. -/
def Scenario.outcomes (s : Scenario) (config : Config) : Faulty (List StepOutcome) := do
  let (outcomes, _) ← (← Network.standard config).runSteps s s.steps
  return outcomes

/-- The scenario that a command runs. -/
def Command.scenario? (files : Files) : Command → Option Scenario
  | .scenario user ids => if ids = [] then none else some (Scenario.ofJobs user ids)
  | .script user path =>
    (Scenario.load files path).toOption.map fun s => { s with user := user.or s.user }
  | .stations _ | .jobs _ _ _ | .check => none

/-! ## Jobs -/

section Jobs

variable {config : Config} {net n n' : Network} {user : User} {id : JobId}

theorem Reachable.reserve {result : Except Refusal Job} (h : Reachable config net)
    (hr : net.reserve user id = .ok (result, n)) : Reachable config n :=
  h.call (c := .request .reserve user id) (Faulty.bind_eq_ok_iff.2 ⟨_, hr, rfl⟩)

theorem Reachable.take {result : Except Refusal Transition} (h : Reachable config net)
    (ht : net.take user id = .ok (result, n)) : Reachable config n :=
  h.call (c := .request .take user id) (Faulty.bind_eq_ok_iff.2 ⟨_, ht, rfl⟩)

theorem Reachable.finish {result : Except Refusal Transition} (h : Reachable config net)
    (hf : net.finish user id = .ok (result, n)) : Reachable config n :=
  h.call (c := .request .finish user id) (Faulty.bind_eq_ok_iff.2 ⟨_, hf, rfl⟩)

/-- Whoever has just taken a job is not refused to finish it. -/
theorem Reachable.finish_isOk {t : Transition} {result : Except Refusal Transition}
    (h : Reachable config net) (ht : net.take user id = .ok (.ok t, n))
    (hf : n.finish user id = .ok (result, n')) : ∃ t', result = .ok t' := by
  have htake : net.perform (.request .take user id) = .ok (.moved t, n) :=
    Faulty.bind_eq_ok_iff.2 ⟨_, ht, rfl⟩
  have hfinish : n.perform (.request .finish user id) = .ok (Outcome.ofReply .moved (result, n')) :=
    Faulty.bind_eq_ok_iff.2 ⟨_, hf, rfl⟩
  have hn : Reachable config n := h.take ht
  cases Network.perform_request htake with
  | @granted place j _ _ hjob hcause hj hid _ hgranted =>
    -- Before the take the job is reserved; the claim and the re-validation that follows leave it
    -- at a stage where only its user may finish it, and that is who asks.
    obtain ⟨ha, hu, -, -⟩ := Network.refusal?_take_eq_none_iff.1 hcause
    have hholder : j.holder = some user := of_decide_eq_true hu
    have hactive : j.isActive = false := Bool.eq_false_iff.2 ha
    have hclaim := h.numbered.claim?_of_mem (Network.mem_jobs_of_jobAt? hj)
    rw [hholder, hactive] at hclaim
    obtain ⟨m, hclaimed, hup⟩ := h.safe.exists_claimed hj hgranted
    have hstage : Stage net j.id [(.reserve, user)] true := .reserved hclaim
    obtain ⟨-, hstage⟩ := hstage.claimed h.numbered hj hcause hclaimed
    have hstage := hstage.upkept (h.numbered.claimed hj hclaimed)
      (h.safe.claimed hj hcause hclaimed).filed hup
    rw [hid] at hstage
    have hallows := hstage.allows hn.numbered hn.safe.filed (Network.perform_request hfinish)
    cases result with
    | ok t' => exact ⟨t', rfl⟩
    | error cause =>
      simp [Phase.of, Phase.Allows, Outcome.isGrant] at hallows

/-- A job is run to a network that can be reached, and is finished if it was taken. -/
theorem Reachable.runJob {outcome : StepOutcome} (h : Reachable config net)
    (hrun : net.runJob user id = .ok (outcome, n)) :
    Reachable config n ∧ outcome.isFinished = outcome.isTaken := by
  rw [Network.runJob] at hrun
  obtain ⟨⟨reserved, n₁⟩, hreserve, hrun⟩ := Faulty.bind_eq_ok_iff.1 hrun
  have h₁ := h.reserve hreserve
  cases reserved with
  | error cause =>
    cases hrun
    exact ⟨h₁, rfl⟩
  | ok j =>
    obtain ⟨⟨taken, n₂⟩, htake, hrun⟩ := Faulty.bind_eq_ok_iff.1 hrun
    have h₂ := h₁.take htake
    cases taken with
    | error cause =>
      cases hrun
      exact ⟨h₂, rfl⟩
    | ok t =>
      obtain ⟨⟨finished, n₃⟩, hfinish, hrun⟩ := Faulty.bind_eq_ok_iff.1 hrun
      cases hrun
      obtain ⟨t', rfl⟩ := h₁.finish_isOk htake hfinish
      exact ⟨h₂.finish hfinish, rfl⟩

/-- A step leads to a network that can be reached, and is finished if it took its job. -/
theorem Reachable.runStep {outcome : StepOutcome} {name job : String} (h : Reachable config net)
    (hrun : net.runStep name job = .ok (outcome, n)) :
    Reachable config n ∧ outcome.isFinished = outcome.isTaken := by
  rw [Network.runStep] at hrun
  cases hname : User.ofText? name with
  | none =>
    rw [hname] at hrun
    cases hrun
    exact ⟨h, rfl⟩
  | some user =>
    rw [hname] at hrun
    exact h.runJob hrun

theorem Reachable.runSteps {s : Scenario} {steps : List ScenarioStep}
    {outcomes : List StepOutcome} (h : Reachable config net)
    (hrun : net.runSteps s steps = .ok (outcomes, n)) :
    outcomes.length = steps.length ∧ ∀ o ∈ outcomes, o.isFinished = o.isTaken := by
  induction steps generalizing net outcomes with
  | nil =>
    rw [Network.runSteps] at hrun
    cases hrun
    exact ⟨rfl, fun _ ho => absurd ho List.not_mem_nil⟩
  | cons step steps ih =>
    rw [Network.runSteps] at hrun
    obtain ⟨⟨outcome, n₁⟩, hstep, hrun⟩ := Faulty.bind_eq_ok_iff.1 hrun
    obtain ⟨⟨rest, n₂⟩, hsteps, hrun⟩ := Faulty.bind_eq_ok_iff.1 hrun
    cases hrun
    obtain ⟨h₁, hfirst⟩ := h.runStep hstep
    obtain ⟨hlength, hrest⟩ := ih h₁ hsteps
    exact ⟨congrArg (· + 1) hlength, List.forall_mem_cons.2 ⟨hfirst, hrest⟩⟩

end Jobs

/-! ## Runs -/

namespace ScenarioRun

variable {config : Config} {net n : Network} {pace : Pace} {settings : NotifierConfig}

/-- The state after steps with these outcomes, over the network that they left. -/
def after (pace : Pace) (settings : NotifierConfig) (net : Network)
    (outcomes : List StepOutcome) : ScenarioRun where
  board := Board.new net
  relay := (observed pace settings).publishAll
    ((outcomes.flatMap StepOutcome.notified).map StationChanged.mk)
  failed := outcomes.countP (!·.isFinished)

theorem after_nil (pace : Pace) (settings : NotifierConfig) (net : Network) :
    after pace settings net [] = ⟨Board.new net, observed pace settings, 0⟩ := by
  rw [after, List.flatMap_nil, List.map_nil, Relay.publishAll_nil, List.countP_nil]

/-- The run publishes what a new board announces. -/
theorem request_new {α : Type} {ask : Board → Faulty (BoardReply α)} {answer : Faulty (Reply α)}
    (announced : Except Refusal α → List StationCode)
    (hask : ask (Board.new net) = do
      let (result, n) ← answer
      return ⟨result, announced result, Board.new n⟩)
    (relay : Relay) (failed : Nat) :
    request ⟨Board.new net, relay, failed⟩ ask = do
      let (result, n) ← answer
      return (result.isOk,
        ⟨Board.new n, relay.publishAll ((announced result).map StationChanged.mk), failed⟩) := by
  rw [request, hask]
  cases answer <;> rfl

/-- A job that is run over a network is announced as far as it comes. -/
theorem runJob_new (h : Reachable config net) (relay : Relay) (failed : Nat) (user : User)
    (id : JobId) :
    runJob ⟨Board.new net, relay, failed⟩ user id = do
      let (outcome, n) ← net.runJob user id
      return (outcome.isFinished,
        ⟨Board.new n, relay.publishAll (outcome.notified.map StationChanged.mk), failed⟩) := by
  rw [runJob, Network.runJob, request_new (fun _ => []) (Board.reserve_new h user id)]
  cases hreserve : net.reserve user id with
  | error fault => rfl
  | ok reply =>
    obtain ⟨reserved, n₁⟩ := reply
    have h₁ := h.reserve hreserve
    cases reserved with
    | error cause => rfl
    | ok j =>
      show (request ⟨Board.new n₁, relay, failed⟩ (·.take user id) >>= _) =
        (n₁.take user id >>= _) >>= _
      rw [request_new (fun result => Call.announced (.request .take user id) (.moved result))
        (Board.take_new h₁ user id)]
      cases htake : n₁.take user id with
      | error fault => rfl
      | ok reply =>
        obtain ⟨taken, n₂⟩ := reply
        have h₂ := h₁.take htake
        cases taken with
        | error cause => rfl
        | ok t =>
          show request ⟨Board.new n₂, _, failed⟩ (·.finish user id) =
            (n₂.finish user id >>= _) >>= _
          rw [request_new (fun result => Call.announced (.request .finish user id) (.moved result))
            (Board.finish_new h₂ user id)]
          cases n₂.finish user id with
          | error fault => rfl
          | ok reply =>
            obtain ⟨finish, n₃⟩ := reply
            cases finish with
            | error cause => rfl
            | ok t' =>
              -- By now the stations of the take are published; those of the finish come behind.
              have hannounced := relay.publishAll_append (t.notified.map StationChanged.mk)
                (t'.notified.map StationChanged.mk)
              rw [← List.map_append] at hannounced
              exact congrArg (fun r => Except.ok (true, (⟨Board.new n₃, r, failed⟩ : ScenarioRun)))
                hannounced.symm

/-- A step adds how it ends to the outcomes. -/
theorem step_after (h : Reachable config net) (outcomes : List StepOutcome) (user job : String) :
    (after pace settings net outcomes).step user job = do
      let (outcome, n) ← net.runStep user job
      return after pace settings n (outcomes ++ [outcome]) := by
  have hafter (n : Network) (o : StepOutcome) : after pace settings n (outcomes ++ [o]) =
      ⟨Board.new n,
        ((observed pace settings).publishAll
          ((outcomes.flatMap StepOutcome.notified).map StationChanged.mk)).publishAll
            (o.notified.map StationChanged.mk),
        outcomes.countP (!·.isFinished) + if o.isFinished then 0 else 1⟩ := by
    rw [← Relay.publishAll_append, ← List.map_append, after, List.flatMap_append,
      List.flatMap_singleton, List.countP_append, List.countP_singleton]
    cases o.isFinished <;> rfl
  rw [step, Network.runStep]
  cases User.ofText? user with
  | none => exact congrArg Except.ok (hafter net .nameless).symm
  | some u =>
    show (runJob ⟨Board.new net, _, _⟩ u ⟨job⟩ >>= _) = (net.runJob u ⟨job⟩ >>= _)
    rw [runJob_new h]
    cases net.runJob u ⟨job⟩ with
    | error fault => rfl
    | ok reply =>
      obtain ⟨outcome, n⟩ := reply
      refine Eq.trans ?_ (congrArg Except.ok (hafter n outcome)).symm
      show Except.ok (if outcome.isFinished = true then _ else _) = _
      cases outcome.isFinished <;> rfl

/-- Steps add how they end to the outcomes, one after the other. -/
theorem foldlM_after {s : Scenario} {steps : List ScenarioStep} (h : Reachable config net)
    (outcomes : List StepOutcome) :
    steps.foldlM (fun r step => r.step (s.userFor step) step.job)
        (after pace settings net outcomes) = do
      let (more, n) ← net.runSteps s steps
      return after pace settings n (outcomes ++ more) := by
  induction steps generalizing net outcomes with
  | nil =>
    rw [List.foldlM_nil, Network.runSteps]
    exact congrArg (fun o => Except.ok (after pace settings net o)) outcomes.append_nil.symm
  | cons step steps ih =>
    rw [List.foldlM_cons, Network.runSteps, step_after h]
    cases hstep : net.runStep (s.userFor step) step.job with
    | error fault => rfl
    | ok reply =>
      obtain ⟨outcome, n⟩ := reply
      obtain ⟨hn, -⟩ := h.runStep hstep
      refine (ih hn (outcomes ++ [outcome])).trans ?_
      show _ = ((n.runSteps s steps >>= _) >>= _)
      cases n.runSteps s steps with
      | error fault => rfl
      | ok reply =>
        obtain ⟨more, n'⟩ := reply
        exact congrArg (fun o => Except.ok (after pace settings n' o))
          (List.append_assoc outcomes _ more)

end ScenarioRun

namespace Scenario

variable {s : Scenario} {config : Config} {outcomes : List StepOutcome}

/-- Every step has an outcome, and every step that took its job finished it. -/
theorem outcomes_isFinished (h : s.outcomes config = .ok outcomes) :
    outcomes.length = s.steps.length ∧ ∀ o ∈ outcomes, o.isFinished = o.isTaken := by
  obtain ⟨net, hnet, h⟩ := Faulty.bind_eq_ok_iff.1 h
  obtain ⟨⟨outcomes, n⟩, hsteps, h⟩ := Faulty.bind_eq_ok_iff.1 h
  cases h
  obtain ⟨history, hrun, -⟩ := exists_run_standard hnet
  exact hrun.reachable.runSteps hsteps

/-- What a scenario is played to is told from how its steps end. -/
theorem play_eq (s : Scenario) (pace : Pace) (config : Config) : s.play pace config = do
    let net ← Network.standard config
    let (outcomes, net) ← net.runSteps s s.steps
    return .after pace config.notifier net outcomes := by
  rw [play, ScenarioRun.start]
  cases hnet : Network.standard config with
  | error fault => rfl
  | ok net =>
    obtain ⟨history, hrun, -⟩ := exists_run_standard hnet
    have hsteps : s.steps.foldlM _ (ScenarioRun.after pace config.notifier net []) = _ :=
      ScenarioRun.foldlM_after (s := s) hrun.reachable []
    rw [ScenarioRun.after_nil] at hsteps
    exact hsteps

/-- A scenario is played to its end, or meets the fault that its steps meet. -/
theorem play_cases (s : Scenario) (pace : Pace) (config : Config) :
    (∃ fault, s.outcomes config = .error fault ∧ s.play pace config = .error fault) ∨
    ∃ outcomes net, s.outcomes config = .ok outcomes ∧
      s.play pace config = .ok (.after pace config.notifier net outcomes) := by
  rw [play_eq, outcomes]
  cases Network.standard config with
  | error fault => exact .inl ⟨fault, rfl, rfl⟩
  | ok net =>
    cases hsteps : net.runSteps s s.steps with
    | error fault =>
      refine .inl ⟨fault, ?_, ?_⟩ <;>
      simp only [bind, Except.bind, hsteps]
    | ok reply =>
      refine .inr ⟨reply.1, reply.2, ?_, ?_⟩ <;>
      simp only [bind, Except.bind, pure, Except.pure, hsteps]

theorem run_of_fault {fault : Fault} (h : s.outcomes config = .error fault) (pace : Pace) :
    s.run pace config = .error fault := by
  rcases s.play_cases pace config with ⟨fault', hout, hplay⟩ | ⟨outcomes, net, hout, -⟩
  · rw [hout] at h
    cases h
    rw [run, hplay]
    rfl
  · rw [hout] at h
    cases h

/-- What the report of a scenario says. -/
theorem run_of_outcomes (h : s.outcomes config = .ok outcomes) (pace : Pace) :
    ∃ r last printed delivered, s.play pace config = .ok r ∧
      r.relay = (ScenarioRun.observed pace config.notifier).publishAll
        ((outcomes.flatMap StepOutcome.notified).map StationChanged.mk) ∧
      r.relay.drawAll (ScenarioRun.observerId config.notifier) =
        (printed.map StationChanged.mk, last) ∧
      s.run pace config = .ok {
        events := printed.map StationChanged.mk
        stats := {
          published := (outcomes.flatMap StepOutcome.notified).length
          delivered := delivered.length
          droppedFull := (outcomes.flatMap StepOutcome.notified).length - delivered.length }
        steps := s.steps.length
        failed := outcomes.countP (!·.isTaken) } ∧
      printed <+: delivered ∧ delivered.Sublist (outcomes.flatMap StepOutcome.notified) ∧
      (outcomes.flatMap StepOutcome.notified).take config.notifier.outboxCapacity <+: delivered ∧
      (last.inbox = [] → printed = delivered) ∧
      (r.relay.turn.inbox = [] → printed = delivered ∧ delivered =
        (outcomes.flatMap StepOutcome.notified).take config.notifier.outboxCapacity) := by
  rcases s.play_cases pace config with ⟨fault', hout, -⟩ | ⟨outcomes, net, hout, hplay⟩
  · rw [hout] at h
    cases h
  rw [hout] at h
  cases h
  -- Every event is that of its station, so the lists of events are told as lists of stations.
  have hmap (codes : List StationCode) :
      (codes.map StationChanged.mk).map StationChanged.station = codes := by
    rw [List.map_map]
    exact List.map_id codes
  have hmk (events : List StationChanged) :
      (events.map StationChanged.station).map StationChanged.mk = events := by
    rw [List.map_map]
    exact List.map_id events
  have hrelay : (ScenarioRun.after pace config.notifier net outcomes).relay =
      (ScenarioRun.observed pace config.notifier).publishAll
        ((outcomes.flatMap StepOutcome.notified).map StationChanged.mk) := by
    rw [ScenarioRun.after]
  have hfailed : (ScenarioRun.after pace config.notifier net outcomes).failed =
      outcomes.countP (!·.isTaken) := by
    obtain ⟨-, hfinished⟩ := outcomes_isFinished hout
    exact List.countP_congr fun o ho => by rw [hfinished o ho]
  generalize ScenarioRun.after pace config.notifier net outcomes = r at hplay hrelay hfailed
  obtain ⟨printed, delivered, last, hdraw, hstats, hprinted, hsublist, hfirst, hend, hprompt⟩ :=
    ScenarioRun.observed_draw pace config.notifier _ hrelay
  rw [List.length_map] at hstats
  refine ⟨r, last, printed.map StationChanged.station, delivered.map StationChanged.station, hplay,
    hrelay, (hmk printed).symm ▸ hdraw, ?_, hprinted.map _, ?_, ?_, fun h => ?_, fun h => ?_⟩
  · rw [run, hplay, hmk, List.length_map, ← hstats, ← hfailed]
    show Except.ok
      (ScenarioReport.mk (r.relay.drawAll _).1 (r.relay.drawAll _).2.shutdown.stats _ _) = _
    rw [hdraw]
  · have hsublist := hsublist.map StationChanged.station
    rwa [hmap] at hsublist
  · have hfirst := hfirst.map StationChanged.station
    rwa [← List.map_take, hmap] at hfirst
  · rw [hend h]
  · obtain ⟨hsame, htake⟩ := hprompt h
    rw [hsame, htake, ← List.map_take, hmap]
    exact ⟨rfl, rfl⟩

end Scenario

/-! ## Commands -/

theorem Command.execute_of_scenario? {command : Command} {pace : Pace} {config : Config}
    {files : Files} {scenario : Scenario} (h : command.scenario? files = some scenario) :
    command.execute pace config files = runScenario pace config scenario := by
  cases command with
  | scenario user ids =>
    cases ids with
    | nil => cases h
    | cons id ids =>
      obtain rfl := Option.some.inj h
      rfl
  | script user path =>
    show (Except.mapError CommandError.script (Scenario.load files path) >>= _) = _
    rw [scenario?] at h
    cases hload : Scenario.load files path with
    | error cause =>
      rw [hload] at h
      cases h
    | ok s =>
      rw [hload] at h
      obtain rfl := Option.some.inj h
      exact pure_bind (m := Except CommandError) s _
  | stations | jobs | check => cases h

theorem StationChanged.send_eq (event : StationChanged) :
    Wire.send event = "\x7b\"station_id\":\"" ++ event.station.name ++ "\"\x7d" := by
  obtain ⟨code⟩ := event
  cases code <;> decide +kernel

theorem NotifierStats.pretty_encode (s : NotifierStats) : (encode s).pretty =
    "\x7b\n  \"published\": " ++ toString s.published ++
    ",\n  \"delivered\": " ++ toString s.delivered ++
    ",\n  \"dropped_full\": " ++ toString s.droppedFull ++
    ",\n  \"dropped_timeout\": " ++ toString s.droppedTimeout ++
    ",\n  \"pruned_subscribers\": " ++ toString s.prunedSubscribers ++ "\n\x7d" := by
  have hencode : encode s = .object
      [("published".toList, .ofNat s.published), ("delivered".toList, .ofNat s.delivered),
        ("dropped_full".toList, .ofNat s.droppedFull),
        ("dropped_timeout".toList, .ofNat s.droppedTimeout),
        ("pruned_subscribers".toList, .ofNat s.prunedSubscribers)] := rfl
  apply String.toList_injective
  rw [hencode]
  simp [Json.pretty, Json.writePretty, Json.writePrettyMembers, Json.newLine, Json.quoted,
    Json.ofNat]

/-- The report of a scenario tells its events, each on a line, and then the counts. -/
theorem ScenarioReport.text_eq (r : ScenarioReport) : r.text =
    String.join (r.events.map fun e => "\x7b\"station_id\":\"" ++ e.station.name ++ "\"\x7d\n") ++
      "\x7b\n  \"published\": " ++ toString r.stats.published ++
      ",\n  \"delivered\": " ++ toString r.stats.delivered ++
      ",\n  \"dropped_full\": " ++ toString r.stats.droppedFull ++
      ",\n  \"dropped_timeout\": " ++ toString r.stats.droppedTimeout ++
      ",\n  \"pruned_subscribers\": " ++ toString r.stats.prunedSubscribers ++ "\n\x7d\n" := by
  have hline : (fun line => line ++ "\n") ∘ Wire.send = fun e : StationChanged =>
      "\x7b\"station_id\":\"" ++ e.station.name ++ "\"\x7d\n" := by
    funext e
    simp [StationChanged.send_eq, String.append_assoc]
  rw [text, Text.lines, List.map_append, List.map_map, hline, List.map_singleton,
    String.join_append, NotifierStats.pretty_encode]
  simp [String.append_assoc]

theorem ScenarioReport.failures_eq (r : ScenarioReport) : r.failures = if r.failed = 0 then "" else
    toString r.failed ++ " of " ++ toString r.steps ++ " steps failed\n" := by
  simp [failures, Text.lines, String.append_assoc]

theorem StepOutcome.countP_eq_zero {outcomes : List StepOutcome} :
    outcomes.countP (!·.isTaken) = 0 ↔ outcomes.all StepOutcome.isTaken := by
  simp

namespace Invocation

variable {i : Invocation} {folder : String} {files : Files} {config : Config}
  {scenario : Scenario} {pace : Pace}

theorem execute_eq (hconfig : i.loadConfig folder files = .ok config)
    (hscenario : i.command.scenario? files = some scenario) :
    i.execute pace folder files = Command.runScenario pace config scenario := by
  rw [execute, hconfig]
  exact Command.execute_of_scenario? hscenario

/-- A command that runs a scenario comes to an end at any pace of the notifier. The exit code is
    zero if every user has a name and every job was reserved and taken; then it was finished as
    well. Otherwise the code is one, and the number of steps for which this is not so is told.

    The events are the stations that the steps notify, first those of a take and then those of the
    finish. Some of them are delivered to the observer, in order, and all others are lost; in any
    case the first ones are delivered, as many as the outbox of the observer has room for. What is
    delivered is printed, each event on a line, but for what comes after the observer gave up
    (`last` is where they do), and then all is counted. If the notifier has handled every event by
    the time the observer first looks, no others than the first are delivered, and these are
    printed. -/
theorem execute_scenario (pace : Pace) (hconfig : i.loadConfig folder files = .ok config)
    (hscenario : i.command.scenario? files = some scenario) :
    (∀ fault, scenario.outcomes config = .error fault →
      i.execute pace folder files = .error (.fault fault)) ∧
    ∀ outcomes, scenario.outcomes config = .ok outcomes →
      outcomes.length = scenario.steps.length ∧ (∀ o ∈ outcomes, o.isTaken → o.isFinished) ∧
      let stations := outcomes.flatMap StepOutcome.notified
      let room := config.notifier.outboxCapacity
      let succeeded := outcomes.all StepOutcome.isTaken
      let failed := outcomes.countP (!·.isTaken)
      ∃ r last printed delivered, scenario.play pace config = .ok r ∧
        r.relay = (ScenarioRun.observed pace config.notifier).publishAll
          (stations.map StationChanged.mk) ∧
        r.relay.drawAll (ScenarioRun.observerId config.notifier) =
          (printed.map StationChanged.mk, last) ∧
        i.execute pace folder files = .ok {
          code := if succeeded then 0 else 1
          output :=
            String.join
                (printed.map fun code => "\x7b\"station_id\":\"" ++ code.name ++ "\"\x7d\n") ++
              "\x7b\n  \"published\": " ++ toString stations.length ++
              ",\n  \"delivered\": " ++ toString delivered.length ++
              ",\n  \"dropped_full\": " ++ toString (stations.length - delivered.length) ++
              ",\n  \"dropped_timeout\": 0,\n  \"pruned_subscribers\": 0\n\x7d\n"
          errors :=
            if succeeded then ""
            else
              toString failed ++ " of " ++ toString scenario.steps.length ++ " steps failed\n" } ∧
        printed <+: delivered ∧ delivered.Sublist stations ∧ stations.take room <+: delivered ∧
        (last.inbox = [] → printed = delivered) ∧
        (r.relay.turn.inbox = [] → printed = delivered ∧ delivered = stations.take room) := by
  refine ⟨fun fault hfault => ?_, fun outcomes houtcomes => ?_⟩
  · rw [execute_eq hconfig hscenario, Command.runScenario, Scenario.run_of_fault hfault]
    rfl
  · obtain ⟨hlength, hfinished⟩ := Scenario.outcomes_isFinished houtcomes
    obtain ⟨r, last, printed, delivered, hplay, hrelay, hdraw, hreport, hdelivered⟩ :=
      Scenario.run_of_outcomes houtcomes pace
    refine ⟨hlength, fun o ho htaken => (hfinished o ho).trans htaken, r, last, printed, delivered,
      hplay, hrelay, hdraw, ?_, hdelivered⟩
    have hnone : ",\n  \"dropped_timeout\": " ++ toString 0 ++ ",\n  \"pruned_subscribers\": " ++
        toString 0 ++ "\n\x7d\n" =
          ",\n  \"dropped_timeout\": 0,\n  \"pruned_subscribers\": 0\n\x7d\n" := by
      decide +kernel
    rw [execute_eq hconfig hscenario, Command.runScenario, hreport]
    show Except.ok (CommandResult.mk (if outcomes.countP (!·.isTaken) = 0 then 0 else 1)
      (ScenarioReport.text _) (ScenarioReport.failures _)) = _
    rw [ScenarioReport.text_eq, ScenarioReport.failures_eq]
    simp only [StepOutcome.countP_eq_zero, List.map_map, ← hnone, String.append_assoc]
    rfl

/-- Files of which one leaves room for four events. -/
def narrowFiles : Files := fun path =>
  if path = "narrow.json" then
    some (.text "\x7b\"notifier\":\x7b\"outbox_capacity\":4\x7d\x7d")
  else none

/-- What these files configure, with another seed. -/
def narrowConfig : Config := { seed := 3, notifier := { outboxCapacity := 4 } }

/-- A load that is taken, a job that is not there, and the freight that the load goes on as. -/
def narrowScenario : Scenario := .ofJobs (some "bob") ["CSW-SSL-1", "nowhere", "CSW-SFH-2"]

/-- The command that runs it with these files. -/
def narrowRun : Invocation where
  config := some "narrow.json"
  seed := some 3
  command := .scenario (some "bob") ["CSW-SSL-1", "nowhere", "CSW-SFH-2"]

theorem narrowRun_loadConfig : narrowRun.loadConfig "" narrowFiles = .ok narrowConfig := by
  have hloaded : Config.loadOrStandard narrowFiles narrowRun.config "" =
      .ok { notifier := { outboxCapacity := 4 } } := by
    decide +kernel
  rw [loadConfig, hloaded]
  rfl

/-- The steps notify six stations, and the second step fails. -/
theorem exists_narrowScenario_outcomes :
    ∃ outcomes, narrowScenario.outcomes narrowConfig = .ok outcomes ∧
      outcomes.flatMap StepOutcome.notified = [.csw, .csw, .csw, .sm, .csw, .sm] ∧
      outcomes.countP (!·.isTaken) = 1 ∧ outcomes.all StepOutcome.isTaken = false := by
  have hends : (narrowScenario.outcomes narrowConfig).toOption.map (fun outcomes =>
        (outcomes.flatMap StepOutcome.notified, outcomes.countP (!·.isTaken),
          outcomes.all StepOutcome.isTaken)) =
      some ([.csw, .csw, .csw, .sm, .csw, .sm], 1, false) := by
    -- The kernel does not evaluate a sort, so the stations to notify are picked from all stations.
    simp only [Scenario.outcomes, narrowScenario, Scenario.ofJobs, List.map, Network.runSteps,
      Network.runStep, Network.runJob, Network.take, Network.finish, Network.affectedStations,
      Network.revalidate, StationCode.sortedUnique_eq_filter]
    decide +kernel
  cases houtcomes : narrowScenario.outcomes narrowConfig with
  | error fault =>
    rw [houtcomes] at hends
    cases hends
  | ok outcomes =>
    rw [houtcomes] at hends
    obtain ⟨hstations, hfailed, hall⟩ : _ = _ ∧ _ = _ ∧ _ = _ := by
      simpa only [Prod.mk.injEq] using Option.some.inj hends
    exact ⟨outcomes, rfl, hstations, hfailed, hall⟩

/-- The notifier keeps up. Two stations of the last step find no room, and the second step is told
    to have failed. -/
theorem narrowRun_execute_scenario :
    narrowRun.loadConfig "" narrowFiles = .ok narrowConfig ∧
    narrowRun.command.scenario? narrowFiles = some narrowScenario ∧
    (∃ r, narrowScenario.play .steady narrowConfig = .ok r ∧ r.relay.turn.inbox = []) ∧
    narrowRun.execute .steady "" narrowFiles = .ok {
      code := 1
      output := "\x7b\"station_id\":\"CSW\"\x7d\n\x7b\"station_id\":\"CSW\"\x7d\n" ++
        "\x7b\"station_id\":\"CSW\"\x7d\n\x7b\"station_id\":\"SM\"\x7d\n" ++
        "\x7b\n  \"published\": 6,\n  \"delivered\": 4,\n  \"dropped_full\": 2,\n" ++
        "  \"dropped_timeout\": 0,\n  \"pruned_subscribers\": 0\n\x7d\n"
      errors := "1 of 3 steps failed\n" } := by
  have hconfig := narrowRun_loadConfig
  have hscenario : narrowRun.command.scenario? narrowFiles = some narrowScenario := rfl
  obtain ⟨outcomes, houtcomes, hstations, hfailed, hall⟩ := exists_narrowScenario_outcomes
  obtain ⟨-, hends⟩ := execute_scenario .steady hconfig hscenario
  obtain ⟨-, -, r, last, printed, delivered, hplay, hrelay, -, hexecute, -, -, -, -, hprompt⟩ :=
    hends outcomes houtcomes
  have hinbox : r.relay.turn.inbox = [] := by
    rw [hrelay]
    exact ScenarioRun.inbox_turn_observed_steady _ _
  obtain ⟨rfl, hprinted⟩ := hprompt hinbox
  rw [hstations] at hprinted
  obtain rfl : printed = [.csw, .csw, .csw, .sm] := hprinted
  rw [hstations, hfailed, hall] at hexecute
  exact ⟨hconfig, hscenario, ⟨r, hplay, hinbox⟩, hexecute.trans (by decide +kernel)⟩

/-- How the notifier keeps up but with the last event, which it handles after the observer has drawn
    the first one. -/
def latePace : Pace := fun turn => if turn = 24 then 0 else 1

/-- The relay when the observer begins to draw: the outbox is full, and one event was lost. -/
def lateRelay : Relay where
  notifier := ScenarioRun.observing narrowConfig.notifier StationCode.all
    ([StationCode.csw, .csw, .csw, .sm].map StationChanged.mk) 4 1
  inbox := [.publish ⟨.sm⟩]
  room := 256
  pace := latePace
  turns := 24

theorem observed_latePace {r : Relay}
    (hr : r = (ScenarioRun.observed latePace narrowConfig.notifier).publishAll
      ([StationCode.csw, .csw, .csw, .sm, .csw, .sm].map StationChanged.mk)) : r = lateRelay := by
  obtain ⟨waiting, hseen⟩ := ScenarioRun.exists_observation latePace narrowConfig.notifier
    ([StationCode.csw, .csw, .csw, .sm, .csw, .sm].map StationChanged.mk)
  have hframe : r.inbox = [.publish ⟨.sm⟩] ∧ r.room = 256 ∧ r.turns = 24 := by
    rw [hr]
    decide +kernel
  have hpace : r.pace = latePace := by
    rw [hr]
    rfl
  rw [← hr, hframe.1] at hseen
  obtain ⟨rfl, hnotifier⟩ := hseen.before_draws (by decide)
  obtain ⟨notifier, inbox, room, pace, turns⟩ := r
  obtain ⟨rfl, rfl, rfl⟩ : inbox = _ ∧ room = _ ∧ turns = _ := hframe
  obtain rfl : pace = _ := hpace
  obtain rfl : notifier = _ := hnotifier
  rfl

/-- The observer has made room for the last event by then, so five of the six events are delivered
    to an outbox that holds four. -/
theorem narrowRun_execute_late :
    narrowRun.loadConfig "" narrowFiles = .ok narrowConfig ∧
    narrowConfig.notifier.outboxCapacity = 4 ∧
    narrowRun.command.scenario? narrowFiles = some narrowScenario ∧
    (∃ outcomes, narrowScenario.outcomes narrowConfig = .ok outcomes ∧
      outcomes.flatMap StepOutcome.notified = [.csw, .csw, .csw, .sm, .csw, .sm]) ∧
    narrowRun.execute latePace "" narrowFiles = .ok {
      code := 1
      output := "\x7b\"station_id\":\"CSW\"\x7d\n\x7b\"station_id\":\"CSW\"\x7d\n" ++
        "\x7b\"station_id\":\"CSW\"\x7d\n\x7b\"station_id\":\"SM\"\x7d\n" ++
        "\x7b\"station_id\":\"SM\"\x7d\n" ++
        "\x7b\n  \"published\": 6,\n  \"delivered\": 5,\n  \"dropped_full\": 1,\n" ++
        "  \"dropped_timeout\": 0,\n  \"pruned_subscribers\": 0\n\x7d\n"
      errors := "1 of 3 steps failed\n" } := by
  have hconfig := narrowRun_loadConfig
  have hscenario : narrowRun.command.scenario? narrowFiles = some narrowScenario := rfl
  obtain ⟨outcomes, houtcomes, hstations, hfailed, -⟩ := exists_narrowScenario_outcomes
  obtain ⟨r, last, printed, delivered, hplay, hrelay, hdraw, hrun, -, -, -, hend, -⟩ :=
    Scenario.run_of_outcomes houtcomes latePace
  rw [hstations] at hrelay
  rw [observed_latePace hrelay] at hdraw
  have hlate : ∀ draw, lateRelay.drawAll 1 = draw →
      draw.1.map StationChanged.station = [.csw, .csw, .csw, .sm, .sm] ∧ draw.2.inbox = [] := by
    rintro _ rfl
    decide +kernel
  obtain ⟨hprinted, hinbox⟩ := hlate _ hdraw
  rw [List.map_map] at hprinted
  obtain rfl : printed = [.csw, .csw, .csw, .sm, .sm] := (List.map_id printed).symm.trans hprinted
  obtain rfl := hend hinbox
  rw [hstations, hfailed] at hrun
  refine ⟨hconfig, rfl, hscenario, ⟨outcomes, houtcomes, hstations⟩, ?_⟩
  rw [execute_eq hconfig hscenario, Command.runScenario, hrun]
  decide +kernel

end Invocation

end RailFreight
