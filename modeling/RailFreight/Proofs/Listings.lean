import RailFreight.Board
import RailFreight.Proofs.Announcement

/-!
# The listings of the board

The board answers listings from copies of the queues. It renews the copy of one station after
a reservation and all of them after a transition, and none after a refusal. That is enough: the
board is at any time the one that would be created anew over its network. So it answers every
call as the network itself does, and what it announces can be told from the answers.

* `Board.listJobs_new`: a new board lists what its network shows;
* `Board.publish_new`: which copies have to be renewed;
* `Board.call_new`: what one call does;
* `Reachable.board_callAll`: what calls do one after the other.
-/

namespace RailFreight

/-! ## Ascending keys -/

section Ascending

variable {κ : Type} [Ranked κ] [BEq κ] [LawfulBEq κ]

theorem eraseDups_ascending {keys : List κ} (h : keys.Pairwise fun a b => rank a ≤ rank b) :
    keys.eraseDups.Pairwise fun a b => rank a < rank b := by
  match keys with
  | [] => exact .nil
  | k :: keys =>
    obtain ⟨hk, hkeys⟩ := List.pairwise_cons.1 h
    rw [List.eraseDups_cons]
    refine List.pairwise_cons.2 ⟨fun j hj => ?_, eraseDups_ascending (hkeys.filter _)⟩
    obtain ⟨hmem, hne⟩ := List.mem_filter.1 (List.mem_eraseDups.1 hj)
    have hne : k ≠ j := by
      rintro rfl
      simp at hne
    exact Nat.lt_of_le_of_ne (hk j hmem) fun hr => hne (rank_injective hr)
termination_by keys.length
decreasing_by exact Nat.lt_succ_of_le (List.length_filter_le _ _)

theorem sortedUnique_ascending (keys : List κ) :
    (sortedUnique keys).Pairwise fun a b => rank a < rank b := by
  refine eraseDups_ascending ?_
  have hsorted : (sortByRank keys).Pairwise fun a b => decide (rank a ≤ rank b) := by
    refine List.pairwise_mergeSort (fun a b c hab hbc => ?_) (fun a b => ?_) keys
    · exact decide_eq_true (Nat.le_trans (of_decide_eq_true hab) (of_decide_eq_true hbc))
    · simpa using Nat.le_total (rank a) (rank b)
  exact hsorted.imp fun h => of_decide_eq_true h

end Ascending

/-- Codes that are put in order are those among all codes. -/
theorem StationCode.sortedUnique_eq_filter (codes : List StationCode) :
    sortedUnique codes = all.filter (· ∈ codes) := by
  have hall : all.Pairwise fun a b => rank a < rank b := by decide
  have hkept := hall.filter (· ∈ codes)
  have hnodup : ∀ {l : List StationCode}, l.Pairwise (fun a b => rank a < rank b) → l.Nodup :=
    fun h => h.imp fun hlt heq => Nat.ne_of_lt hlt (congrArg rank heq)
  -- Both sides ascend, so they are equal as soon as they have the same members.
  have hperm : (sortedUnique codes).Perm (all.filter (· ∈ codes)) := by
    refine (List.perm_ext_iff_of_nodup (hnodup (sortedUnique_ascending codes)) (hnodup hkept)).2 ?_
    intro code
    simp [mem_sortedUnique, mem_all]
  exact hperm.eq_of_pairwise (fun a b _ _ h h' => absurd h' (Nat.lt_asymm h))
    (sortedUnique_ascending codes) hkept

/-! ## Calls -/

/-- What is asked of a board. -/
inductive Call
  | request (action : Action) (user : User) (id : JobId)
  | list (code : StationCode) (user : Option User)
  | notify (code : StationCode)

/-- The answer to a call. -/
inductive Answer
  | reserved (result : Except Refusal Job)
  | moved (result : Except Refusal Transition)
  | listed (jobs : List Job)
  | announced

/-- The stations that are announced at a call: those that a taken or finished job notifies, and
    one that is asked for. -/
def Call.announced : Call → Answer → List StationCode
  | notify code, _ => [code]
  | _, .moved (.ok t) => t.notified
  | _, _ => []

/-- Answers a call from the network itself. -/
def Network.call (net : Network) : Call → Faulty (Answer × Network)
  | .request .reserve user id => do
    let (result, net) ← net.reserve user id
    return (.reserved result, net)
  | .request .take user id => do
    let (result, net) ← net.take user id
    return (.moved result, net)
  | .request .finish user id => do
    let (result, net) ← net.finish user id
    return (.moved result, net)
  | .list code user => return (.listed (net.visibleJobs code user), net)
  | .notify _ => return (.announced, net)

/-- Answers calls one after the other. -/
def Network.callAll (net : Network) : List Call → Faulty (List Answer × Network)
  | [] => return ([], net)
  | c :: calls => do
    let (answer, net) ← net.call c
    let (answers, net) ← net.callAll calls
    return (answer :: answers, net)

namespace Board

/-- Answers a call from the board, and announces stations. -/
def call (b : Board) : Call → Faulty (Answer × List StationCode × Board)
  | .request .reserve user id => do
    let reply ← b.reserve user id
    return (.reserved reply.result, reply.announced, reply.board)
  | .request .take user id => do
    let reply ← b.take user id
    return (.moved reply.result, reply.announced, reply.board)
  | .request .finish user id => do
    let reply ← b.finish user id
    return (.moved reply.result, reply.announced, reply.board)
  | .list code user => return (.listed (b.listJobs code user), [], b)
  | .notify code => return (.announced, b.notifyStation code, b)

/-- Answers calls one after the other. -/
def callAll (b : Board) : List Call → Faulty (List Answer × List StationCode × Board)
  | [] => return ([], [], b)
  | c :: calls => do
    let (answer, announced, b) ← b.call c
    let (answers, later, b) ← b.callAll calls
    return (answer :: answers, announced ++ later, b)

/-! ## Listings -/

variable {net n : Network} {code c : StationCode}

/-- What is published for a station is its queue; the others are listed as before. -/
theorem get?_publish (listings : Table StationCode (List Job)) (net : Network)
    (codes : List StationCode) (c : StationCode) : (publish listings net codes).get? c =
      if c ∈ codes then ((net.station? c).map Station.queue).or (listings.get? c)
      else listings.get? c := by
  induction codes generalizing listings with
  | nil => rfl
  | cons code codes ih =>
    rw [publish]
    cases hs : net.station? code with
    | none =>
      by_cases hc : c = code
      · subst hc
        rw [ih, hs]
        simp
      · rw [ih]
        simp [hc]
    | some s =>
      by_cases hc : c = code
      · subst hc
        rw [ih, hs, Table.get?_insert]
        simp
      · have hne : ¬ rank code = rank c := fun hr => hc (rank_injective hr).symm
        rw [ih, Table.get?_insert, if_neg hne]
        simp [hc]

/-- A new board lists every queue. -/
theorem get?_new (net : Network) (c : StationCode) :
    (Board.new net).listings.get? c = (net.station? c).map Station.queue := by
  rw [new, get?_publish]
  simp only [Network.mem_keys_iff, Table.get?_empty]
  cases net.station? c <;> rfl

theorem listJobs_new (net : Network) (code : StationCode) (user : Option User) :
    (Board.new net).listJobs code user = net.visibleJobs code user := by
  rw [listJobs, Table.getD, get?_new, Network.visibleJobs_eq, Network.queueOf]
  cases net.station? code <;> rfl

/-- A board is renewed by publishing the queues that changed. -/
theorem publish_new {codes : List StationCode} (hkeys : n.stations.keys = net.stations.keys)
    (hsame : ∀ c, c ∉ codes → n.queueOf c = net.queueOf c) :
    ({ network := n, listings := publish (Board.new net).listings n codes } : Board) =
      Board.new n := by
  have hlistings : publish (Board.new net).listings n codes = (Board.new n).listings := by
    refine Table.ext_get? fun c => ?_
    have hfound : (n.station? c).isSome ↔ (net.station? c).isSome := by
      rw [← Network.mem_keys_iff, ← Network.mem_keys_iff, hkeys]
    rw [get?_publish, get?_new, get?_new]
    have hqueue := hsame c
    simp only [Network.queueOf] at hqueue
    split
    · cases hn : n.station? c <;> cases hs : net.station? c <;> simp_all
    · cases hn : n.station? c <;> cases hs : net.station? c <;> simp_all
  rw [hlistings]
  rfl

/-! ## Requests -/

end Board

namespace Network

variable {net net' : Network} {place : Place} {j : Job} {user : User} {id : JobId}
  {action : Action}

theorem Claimed.keys_eq (h : net.Claimed user place j action net') :
    net'.stations.keys = net.stations.keys := by
  cases h with
  | reserve | take => rw [modifyJobAt, modifyStation, Table.keys_modify]
  | finish => rw [removeJobAt, modifyStation, Table.keys_modify]

/-- A request adds no station. -/
theorem Answered.keys_eq {outcome : Outcome} (hsafe : net.Safe)
    (h : net.Answered action user id outcome net') : net'.stations.keys = net.stations.keys := by
  cases h with
  | refused => rfl
  | granted _ _ hj _ _ hgranted =>
    obtain ⟨n, hclaimed, hup⟩ := hsafe.exists_claimed hj hgranted
    exact hup.keys_eq.trans hclaimed.keys_eq

theorem Answered.eq_of_refused {cause : Refusal}
    (h : net.Answered action user id (.refused cause) net') : net' = net := by
  cases h with
  | refused => rfl
  | granted _ _ _ _ hgrant => exact absurd hgrant nofun

theorem reserve_eq_ok (hjob : net.job? id = .ok (some j))
    (hcause : net.refusal? .reserve user id (some j) = none) {job : Job}
    (h : net.reserve user id = .ok (.ok job, net')) : job = j.reserve user := by
  obtain ⟨ha, hr⟩ := refusal?_reserve_eq_none_iff.1 hcause
  have hholder : j.holder = none := Option.not_isSome_iff_eq_none.1 hr
  rw [reserve, hjob] at h
  obtain ⟨k, hk, h⟩ := Faulty.bind_eq_ok_iff.1 h
  cases hk
  simp only [ha, hholder, Bool.false_eq_true, if_false] at h
  obtain ⟨n, -, h⟩ := Faulty.bind_eq_ok_iff.1 h
  cases h
  rfl

end Network

namespace Board

variable {config : Config} {net n : Network}

/-- A reservation is listed at the station of the job, and nowhere else. -/
theorem reserve_new (h : Reachable config net) (user : User) (id : JobId) :
    (Board.new net).reserve user id = do
      let (result, n) ← net.reserve user id
      return ⟨result, [], Board.new n⟩ := by
  show (net.reserve user id >>= _) = (net.reserve user id >>= _)
  cases hr : net.reserve user id with
  | error fault => rfl
  | ok reply =>
    obtain ⟨result, n⟩ := reply
    have hp : net.perform (.request .reserve user id) =
        .ok (Outcome.ofReply .reserved (result, n)) := by
      rw [Network.perform, hr]
      rfl
    have hanswered := Network.perform_request hp
    cases result with
    | error cause =>
      obtain rfl : n = net := hanswered.eq_of_refused
      rfl
    | ok job =>
      have hkeys := hanswered.keys_eq h.safe
      cases hanswered with
      | @granted place j _ _ hjob hcause hj _ _ hgranted =>
        obtain rfl := Network.reserve_eq_ok hjob hcause hr
        have horigin : j.origin = place.1 := (h.safe.fits place j hj).1
        have hsame : ∀ c, c ∉ [j.origin] → n.queueOf c = net.queueOf c := by
          intro c hc
          have hne : c ≠ place.1 := fun he => hc (List.mem_singleton.2 (he.trans horigin.symm))
          have hstation : n.station? c = net.station? c := by
            cases hgranted
            exact Network.station?_modifyStation_of_ne hne _
          rw [Network.queueOf, hstation, Network.queueOf]
        have hnew := publish_new hkeys hsame
        show Except.ok _ = Except.ok _
        rw [← hnew]
        rfl

/-- A transition is listed everywhere, and announced at the stations that it notifies. -/
theorem commit_new (h : Reachable config net) {action : Action} {user : User} {id : JobId}
    {reply : Reply Transition}
    (hp : net.perform (.request action user id) = .ok (Outcome.ofReply .moved reply)) :
    (Board.new net).commit reply =
      ⟨reply.1, Call.announced (.request action user id) (.moved reply.1), Board.new reply.2⟩ := by
  obtain ⟨result, n⟩ := reply
  have hanswered := Network.perform_request hp
  cases result with
  | error cause =>
    obtain rfl : n = net := hanswered.eq_of_refused
    rfl
  | ok t =>
    have hkeys : n.stations.keys = net.stations.keys := hanswered.keys_eq h.safe
    have hsame : ∀ c, c ∉ n.stations.keys → n.queueOf c = net.queueOf c := by
      intro c hc
      have hnone : ∀ m : Network, c ∉ m.stations.keys → m.queueOf c = [] := by
        intro m hm
        rw [Network.mem_keys_iff, Option.not_isSome_iff_eq_none] at hm
        rw [Network.queueOf, hm]
        rfl
      rw [hnone n hc, hnone net (hkeys ▸ hc)]
    rw [commit, ← publish_new hkeys hsame]
    rfl

theorem bind_commit_new (h : Reachable config net) {action : Action} {user : User} {id : JobId}
    {x : Faulty (Reply Transition)}
    (hx : net.perform (.request action user id) = do return Outcome.ofReply .moved (← x)) :
    (do return (Board.new net).commit (← x)) = (do
      let (result, n) ← x
      return ⟨result, Call.announced (.request action user id) (.moved result), Board.new n⟩) := by
  cases x with
  | error fault => rfl
  | ok reply => exact congrArg Except.ok (commit_new h hx)

theorem take_new (h : Reachable config net) (user : User) (id : JobId) :
    (Board.new net).take user id = do
      let (result, n) ← net.take user id
      return ⟨result, Call.announced (.request .take user id) (.moved result), Board.new n⟩ :=
  bind_commit_new h rfl

theorem finish_new (h : Reachable config net) (user : User) (id : JobId) :
    (Board.new net).finish user id = do
      let (result, n) ← net.finish user id
      return ⟨result, Call.announced (.request .finish user id) (.moved result), Board.new n⟩ :=
  bind_commit_new h rfl

/-- A board answers a call as its network does, and is a new board over it afterwards. -/
theorem call_new (h : Reachable config net) (c : Call) :
    (Board.new net).call c = do
      let (answer, n) ← net.call c
      return (answer, c.announced answer, Board.new n) := by
  cases c with
  | list code user =>
    rw [call, listJobs_new]
    rfl
  | notify code => rfl
  | request action user id =>
    cases action with
    | reserve =>
      rw [call, Network.call, reserve_new h]
      cases net.reserve user id <;> rfl
    | take =>
      rw [call, Network.call, take_new h]
      cases net.take user id <;> rfl
    | finish =>
      rw [call, Network.call, finish_new h]
      cases net.finish user id <;> rfl

end Board

/-! ## Calls one after the other -/

section Calls

variable {config : Config} {net n : Network} {c : Call} {answer : Answer}

/-- A call is a request, or it leaves the network as it is. -/
theorem Network.call_eq_ok (hc : net.call c = .ok (answer, n)) :
    (n = net ∧ ∀ t, answer ≠ .moved (.ok t)) ∨
      ∃ action user id outcome, net.perform (.request action user id) = .ok (outcome, n) ∧
        ∀ t, answer = .moved (.ok t) → outcome = .moved t := by
  cases c with
  | list code user =>
    cases hc
    exact .inl ⟨rfl, nofun⟩
  | notify code =>
    cases hc
    exact .inl ⟨rfl, nofun⟩
  | request action user id =>
    right
    cases action with
    | reserve =>
      obtain ⟨⟨result, m⟩, hr, hc⟩ := Faulty.bind_eq_ok_iff.1 hc
      cases hc
      refine ⟨.reserve, user, id, (Outcome.ofReply .reserved (result, n)).1, ?_, nofun⟩
      rw [perform, hr]
      cases result <;> rfl
    | take =>
      obtain ⟨⟨result, m⟩, hr, hc⟩ := Faulty.bind_eq_ok_iff.1 hc
      cases hc
      refine ⟨.take, user, id, (Outcome.ofReply .moved (result, n)).1, ?_, ?_⟩
      · rw [perform, hr]
        cases result <;> rfl
      · rintro t ⟨⟩
        rfl
    | finish =>
      obtain ⟨⟨result, m⟩, hr, hc⟩ := Faulty.bind_eq_ok_iff.1 hc
      cases hc
      refine ⟨.finish, user, id, (Outcome.ofReply .moved (result, n)).1, ?_, ?_⟩
      · rw [perform, hr]
        cases result <;> rfl
      · rintro t ⟨⟩
        rfl

theorem Reachable.call (h : Reachable config net) (hc : net.call c = .ok (answer, n)) :
    Reachable config n := by
  rcases Network.call_eq_ok hc with ⟨rfl, -⟩ | ⟨action, user, id, outcome, hp, -⟩
  · exact h
  · exact h.step hp

/-- The stations that a transition notifies ascend, so each is notified once. -/
theorem Reachable.call_ascending {t : Transition} (h : Reachable config net)
    (hc : net.call c = .ok (.moved (.ok t), n)) :
    t.notified.Pairwise fun a b => rank a < rank b := by
  rcases Network.call_eq_ok hc with ⟨-, hnone⟩ | ⟨action, user, id, outcome, hp, hmoved⟩
  · exact absurd rfl (hnone t)
  · rw [hmoved t rfl] at hp
    obtain ⟨j, m, -, -, -, -, -, hnotified⟩ := Network.exists_of_moved h.safe h.numbered hp
    rw [hnotified]
    exact sortedUnique_ascending _

theorem Reachable.callAll_ascending {calls : List Call} {answers : List Answer} {t : Transition}
    (h : Reachable config net) (hc : net.callAll calls = .ok (answers, n))
    (ht : .moved (.ok t) ∈ answers) : t.notified.Pairwise fun a b => rank a < rank b := by
  induction calls generalizing net answers with
  | nil =>
    cases hc
    exact absurd ht List.not_mem_nil
  | cons c calls ih =>
    obtain ⟨⟨answer, m⟩, hfirst, hc⟩ := Faulty.bind_eq_ok_iff.1 hc
    obtain ⟨⟨rest, m'⟩, hrest, hc⟩ := Faulty.bind_eq_ok_iff.1 hc
    cases hc
    rcases List.mem_cons.1 ht with rfl | ht
    · exact h.call_ascending hfirst
    · exact ih (h.call hfirst) hrest ht

/-- A board answers calls as its network does, and is a new board over it afterwards. -/
theorem Board.callAll_new (h : Reachable config net) (calls : List Call) :
    (Board.new net).callAll calls = do
      let (answers, n) ← net.callAll calls
      return (answers, (calls.zipWith Call.announced answers).flatten, Board.new n) := by
  induction calls generalizing net with
  | nil => rfl
  | cons c calls ih =>
    rw [callAll, Network.callAll, call_new h]
    cases hc : net.call c with
    | error fault => rfl
    | ok result =>
      obtain ⟨answer, n⟩ := result
      have hrest := ih (h.call hc)
      cases hn : n.callAll calls with
      | error fault => simp [hrest, hn, bind, Except.bind, pure, Except.pure]
      | ok result => simp [hrest, hn, bind, Except.bind, pure, Except.pure]

end Calls

/-- A board over a reachable network answers calls as the network does, and announces what the
    answers tell. After each of them it lists what its network shows, and what a transition
    notifies is announced once and in order. -/
theorem Reachable.board_callAll {config : Config} {net : Network} (h : Reachable config net)
    (calls : List Call) :
    (Board.new net).callAll calls = (do
      let (answers, n) ← net.callAll calls
      return (answers, (calls.zipWith Call.announced answers).flatten, Board.new n)) ∧
    ∀ answers announced b, (Board.new net).callAll calls = .ok (answers, announced, b) →
      (∀ code user, b.listJobs code user = b.network.visibleJobs code user) ∧
      ∀ t, .moved (.ok t) ∈ answers → t.notified.Pairwise fun a b => rank a < rank b := by
  refine ⟨Board.callAll_new h calls, fun answers announced b hb => ?_⟩
  rw [Board.callAll_new h calls] at hb
  obtain ⟨⟨answers', n⟩, hn, hb⟩ := Faulty.bind_eq_ok_iff.1 hb
  cases hb
  exact ⟨Board.listJobs_new n, fun t ht => h.callAll_ascending hn ht⟩

/-- Calls for the first load of coal: it is listed, reserved, asked for by a user who did not
    reserve it, taken and finished. -/
def coalCalls : List Call :=
  let load := JobId.of .cm .shuntingLoad 1
  [.list .cm none, .request .reserve .bob load, .request .take .eve load, .request .take .bob load,
    .notify .cm, .list .cm (some .eve), .request .finish .bob load]

/-- The calls for the load of coal are answered, and only the other load is left. -/
theorem coalRun_board_callAll :
    ∃ net, (Network.empty {}).performAll (coalRun.take 4) = .ok net ∧
      ((Board.new net).callAll coalCalls).toOption.any (fun r => r.2.2.network.jobCount = 1) ∧
      (Board.new net).callAll coalCalls = (do
        let (answers, n) ← net.callAll coalCalls
        return (answers, (coalCalls.zipWith Call.announced answers).flatten, Board.new n)) ∧
      ∀ answers announced b, (Board.new net).callAll coalCalls = .ok (answers, announced, b) →
        (∀ code user, b.listJobs code user = b.network.visibleJobs code user) ∧
        ∀ t, .moved (.ok t) ∈ answers → t.notified.Pairwise fun a b => rank a < rank b := by
  obtain ⟨net, hrun, hreachable, hok⟩ := exists_reachable {} (coalRun.take 4)
    (fun net => ((Board.new net).callAll coalCalls).toOption.any
      fun r => r.2.2.network.jobCount = 1) (by decide +kernel)
  exact ⟨net, hrun, hok, hreachable.board_callAll coalCalls⟩

end RailFreight
