import RailFreight.Proofs.Announcement
import RailFreight.Proofs.Separation
import Mathlib.Data.List.Induction

/-!
# Subscriptions

Who gets an event is read off the tables of the notifier. They are kept command by command, and what
stands in them can be told from the commands alone: a subscriber is known since they joined, unless
they left or were forgotten since; they watch a station since they asked for it while they were
known, unless they asked for the contrary since; and a subscription is dropped since it was dropped.

* `Since`, `Once`: what was set by some element of a list and not cleared by a later one, if
  anything clears it;
* `Notifier.Sound.knows_step`, `Notifier.Sound.watches_step`, `Notifier.Sound.isDropped_step`: what
  a single command sets and clears;
* `Notifier.after_iff_since`: what each command sets or clears, over a session;
* `Notifier.knows_iff_since`, `Notifier.watches_iff_since`, `Notifier.isDropped_iff_once`: the
  tables of the notifier, told from the commands;
* `Notifier.session_delivery`: deliveries, counts and the roster in any session.
-/

namespace RailFreight

section Since

variable {α : Type} {sets clears : List α → α → Prop} {earlier : List α} {a : α}

/-- Some element of the list sets something, and no later one clears it. What an element does may
    depend on those before it. -/
def Since (sets clears : List α → α → Prop) (elements : List α) : Prop :=
  ∃ before a rest, elements = before ++ a :: rest ∧ sets before a ∧
    ∀ first b last, rest = first ++ b :: last → ¬ clears (before ++ a :: first) b

/-- Some element of the list does something. -/
def Once (does : List α → α → Prop) : List α → Prop :=
  Since does fun _ _ => False

/-- An element of a list with one more element is that one, or an earlier one. -/
theorem eq_or_exists_of_concat_eq {before rest : List α} {b : α}
    (h : earlier ++ [a] = before ++ b :: rest) : (earlier = before ∧ a = b ∧ rest = []) ∨
      ∃ rest', rest = rest' ++ [a] ∧ earlier = before ++ b :: rest' := by
  rcases List.eq_nil_or_concat rest with rfl | ⟨rest, c, rfl⟩
  · obtain ⟨hearlier, ha⟩ := List.append_inj' h rfl
    exact .inl ⟨hearlier, List.singleton_inj.1 ha, rfl⟩
  · rw [List.concat_eq_append, ← List.cons_append, ← List.append_assoc] at h
    obtain ⟨hearlier, ha⟩ := List.append_inj' h rfl
    obtain rfl := List.singleton_inj.1 ha
    exact .inr ⟨rest, List.concat_eq_append, hearlier⟩

theorem not_since_nil : ¬ Since sets clears [] := by
  rintro ⟨before, a, rest, hnil, -⟩
  exact List.append_ne_nil_of_right_ne_nil before (List.cons_ne_nil a rest) hnil.symm

/-- One more element sets it, or it was set before and is not cleared. -/
theorem since_concat :
    Since sets clears (earlier ++ [a]) ↔ sets earlier a ∨ Since sets clears earlier ∧
      ¬ clears earlier a := by
  constructor
  · rintro ⟨before, b, rest, hsplit, hset, hkept⟩
    rcases eq_or_exists_of_concat_eq hsplit with ⟨rfl, rfl, -⟩ | ⟨rest, rfl, rfl⟩
    · exact .inl hset
    · refine .inr ⟨⟨before, b, rest, rfl, hset, fun first d last hrest => ?_⟩, hkept rest a [] rfl⟩
      refine hkept first d (last ++ [a]) ?_
      rw [hrest, List.append_assoc, List.cons_append]
  · rintro (hset | ⟨⟨before, b, rest, rfl, hset, hkept⟩, hlast⟩)
    · refine ⟨earlier, a, [], rfl, hset, fun first b last hnil => ?_⟩
      exact absurd hnil.symm (List.append_ne_nil_of_right_ne_nil first (List.cons_ne_nil b last))
    · refine ⟨before, b, rest ++ [a], by rw [List.append_assoc, List.cons_append], hset,
        fun first d last hrest => ?_⟩
      rcases eq_or_exists_of_concat_eq hrest with ⟨rfl, rfl, -⟩ | ⟨last, -, rfl⟩
      · exact hlast
      · exact hkept first d last rfl

/-- What is kept element by element is what was set and not cleared since. -/
theorem iff_since {P : List α → Prop} (hnil : ¬ P [])
    (hconcat : ∀ earlier a, P (earlier ++ [a]) ↔
      sets earlier a ∨ P earlier ∧ ¬ clears earlier a) (elements : List α) :
    P elements ↔ Since sets clears elements := by
  induction elements using List.reverseRecOn with
  | nil => exact iff_of_false hnil not_since_nil
  | append_singleton earlier a ih => rw [hconcat, since_concat, ih]

end Since

namespace Notifier

variable {n : Notifier} {id : SubscriberId} {c : Command} {station : StationCode}

/-! ## Single commands -/

/-- The command is a join that gives out the id. -/
def Enrols (n : Notifier) (id : SubscriberId) (c : Command) : Prop :=
  ∃ user, (n.step c).1 = .joined (.ok (id, user))

/-- The subscriber leaves, or an event for a station that they watch meets their dropped
    subscription. -/
def Forgets (n : Notifier) (id : SubscriberId) (c : Command) : Prop :=
  c = .leave id ∨ ∃ event, c = .publish event ∧ n.watches id event.station ∧ n.isDropped id

theorem forgets_publish_iff {event : StationChanged} :
    n.Forgets id (.publish event) ↔ n.watches id event.station ∧ n.isDropped id := by
  simp [Forgets]

/-- What is watched after the stations of one subscriber change. -/
theorem watches_modify (i : SubscriberId) (f : Subscriber → Subscriber) :
    ({ n with subscribers := n.subscribers.modify i f } : Notifier).watches id station =
      if i = id then (n.subscribers.get? id).any fun s => station ∈ (f s).watched
      else n.watches id station := by
  have hsub : (n.subscribers.modify i f).get? id =
      if i = id then (n.subscribers.get? id).map f else n.subscribers.get? id :=
    Table.get?_modify ..
  rw [watches, watches, hsub]
  split
  · exact Option.any_map
  · rfl

theorem enrol_watches (user : User) : (n.enrol user).2.watches id station =
    if n.nextId = id then false else n.watches id station := by
  rw [watches, watches, enrol_subscribers]
  split <;> rfl

theorem enrol_isDropped (user : User) : (n.enrol user).2.isDropped id =
    if n.nextId = id then false else n.isDropped id := by
  rw [isDropped, isDropped, enrol_outboxes]
  split <;> rfl

/-- What is dropped after one outbox changes. -/
theorem isDropped_modify (i : SubscriberId) (f : Outbox → Outbox) :
    ({ n with outboxes := n.outboxes.modify i f } : Notifier).isDropped id =
      if i = id then (n.outboxes.get? id).any fun o => (f o).closed else n.isDropped id := by
  rw [isDropped, isDropped, get?_withOutboxes]
  split
  · exact Option.any_map
  · rfl

namespace Sound

variable (h : n.Sound)

include h

theorem fresh_of_knows (hk : n.knows id) : id < n.nextId := h.fresh id (h.outbox id hk)

theorem join_eq (name : String) : n.join name = match User.ofText? name with
    | none => (.error .emptyUsername, n)
    | some user => (.ok (n.nextId, user), (n.enrol user).2) := by
  rw [join]
  cases User.ofText? name with
  | none => rfl
  | some user => exact if_pos h.running

/-- Nobody joins under an id that is in use. -/
theorem not_enrols_of_knows (hk : n.knows id) : ¬ n.Enrols id c := by
  rintro ⟨user, hjoined⟩
  cases c with
  | join name =>
    simp only [step, h.join_eq] at hjoined
    cases hname : User.ofText? name with
    | none => simp [hname] at hjoined
    | some user =>
      simp only [hname, Answer.joined.injEq, Except.ok.injEq, Prod.mk.injEq] at hjoined
      exact Nat.lt_irrefl _ (hjoined.1 ▸ h.fresh_of_knows hk)
  | _ => cases hjoined

/-- Somebody is known who joins, or who was known and is not forgotten. -/
theorem knows_step (c : Command) :
    (n.step c).2.knows id ↔ n.Enrols id c ∨ n.knows id ∧ ¬ n.Forgets id c := by
  cases c with
  | join name =>
    simp only [step, h.join_eq, Enrols, Forgets]
    cases User.ofText? name with
    | none => simp
    | some user => simp [enrol_knows_iff]
  | subscribe i s | unsubscribe i s =>
    simp only [step, subscribe, unsubscribe, h.command_eq]
    exact contains_modify_iff.trans (by simp [Enrols, Forgets, step])
  | leave i =>
    simp only [step, leave, h.command_eq]
    exact contains_erase_iff.trans (by simp [Enrols, Forgets, step, and_comm])
  | publish event =>
    have hnot : ¬ n.Enrols id (.publish event) := by simp [Enrols, step]
    rw [or_iff_right hnot, forgets_publish_iff, step, knows, Table.contains, h.publish_subscribers]
    split
    · rename_i hgone
      exact iff_of_false Bool.false_ne_true fun hstays => hstays.2 hgone
    · rename_i hstays
      exact (and_iff_left hstays).symm
  | drop i | drain i | next i | roster => simp [Enrols, Forgets, step, drop, drain, next, knows]

/-- Somebody has an outbox who joins, or who has one. -/
theorem outbox_step (c : Command) : ((n.step c).2.outboxes.get? id).isSome ↔
    n.Enrols id c ∨ (n.outboxes.get? id).isSome := by
  cases c with
  | join name =>
    simp only [step, h.join_eq, Enrols]
    cases User.ofText? name with
    | none => simp
    | some user =>
      simp only [enrol_outboxes]
      split <;> simp_all
  | subscribe i s | unsubscribe i s | leave i =>
    simp [step, subscribe, unsubscribe, leave, h.command_eq, Enrols]
  | publish event => simp [step, h.publish_isSome, Enrols]
  | drop i | drain i | next i =>
    simp [step, drop, drain, next, isSome_modify_outboxes, Enrols]
  | roster => simp [step, Enrols]

/-- A subscription is dropped if it is dropped now, or was dropped before. -/
theorem isDropped_step (c : Command) : (n.step c).2.isDropped id ↔
    c = .drop id ∧ (n.outboxes.get? id).isSome ∨ n.isDropped id := by
  cases c with
  | join name =>
    simp only [step, h.join_eq]
    cases User.ofText? name with
    | none => simp
    | some user =>
      rw [enrol_isDropped]
      split
      · rename_i hid
        simp [isDropped, h.outbox_eq_none (Nat.le_of_eq hid)]
      · simp
  | subscribe i s | unsubscribe i s | leave i =>
    simp [step, subscribe, unsubscribe, leave, h.command_eq, isDropped]
  | publish event => simp [step, h.publish_isDropped]
  | drop i =>
    rw [step, drop, isDropped_modify]
    split
    · rename_i hi
      subst hi
      cases ho : n.outboxes.get? i <;> simp [isDropped, ho]
    · rename_i hi
      simp [hi]
  | drain i | next i =>
    simp only [step, drain, next, isDropped_modify]
    split <;> simp [isDropped]
  | roster => simp [step]

/-- A station is watched by somebody known who asks for it, or who watched it and does not ask for
    the contrary, and is not forgotten. -/
theorem watches_step (c : Command) : (n.step c).2.watches id station ↔
    c = .subscribe id station ∧ n.knows id ∨
      n.watches id station ∧ ¬ (c = .unsubscribe id station ∨ n.Forgets id c) := by
  cases c with
  | join name =>
    simp only [step, h.join_eq, Forgets]
    cases User.ofText? name with
    | none => simp
    | some user =>
      rw [enrol_watches]
      split
      · rename_i hid
        have hnot : ¬ n.watches id station := fun hw =>
          Nat.lt_irrefl _ (hid ▸ h.fresh_of_knows (knows_of_watches hw))
        simp [hnot]
      · simp
  | subscribe i s =>
    have hforgets : ¬ n.Forgets id (.subscribe i s) := by simp [Forgets]
    simp only [step, subscribe, h.command_eq, watches_modify, hforgets]
    split
    · rename_i hi
      subst hi
      rw [knows, watches, Table.contains]
      cases n.subscribers.get? i with
      | none => simp
      | some sub => simp [mem_sortedUnique, @eq_comm StationCode station]
    · rename_i hi
      simp [hi]
  | unsubscribe i s =>
    have hforgets : ¬ n.Forgets id (.unsubscribe i s) := by simp [Forgets]
    simp only [step, unsubscribe, h.command_eq, watches_modify, hforgets]
    split
    · rename_i hi
      subst hi
      rw [watches]
      cases n.subscribers.get? i with
      | none => simp
      | some sub => simp [@eq_comm StationCode station]
    · rename_i hi
      simp [hi]
  | leave i =>
    have hsub : (n.subscribers.erase i).get? id =
        if i = id then none else n.subscribers.get? id := Table.get?_erase ..
    simp only [step, leave, h.command_eq]
    rw [watches, hsub]
    split
    · rename_i hi
      simp [hi, Forgets]
    · rename_i hi
      simp [hi, Forgets, watches]
  | publish event =>
    rw [step, watches, h.publish_subscribers]
    split
    · rename_i hgone
      simp [forgets_publish_iff.2 hgone]
    · rename_i hstays
      simp [mt forgets_publish_iff.1 hstays, watches]
  | drop i | drain i | next i | roster => simp [Forgets, step, drop, drain, next, watches]

end Sound

/-! ## Sessions -/

section Sessions

variable (config : NotifierConfig) (id : SubscriberId) (commands : List Command)

/-- What each command sets or clears in a notifier in use is told by the commands of a session. -/
theorem after_iff_since (P : Notifier → Prop) (sets clears : Notifier → Command → Prop)
    (hstart : ¬ P (start config))
    (hstep : ∀ n : Notifier, n.Sound → ∀ c, P (n.step c).2 ↔ sets n c ∨ P n ∧ ¬ clears n c) :
    P ((start config).after commands) ↔
      Since (fun before => sets ((start config).after before))
        (fun before => clears ((start config).after before)) commands := by
  refine iff_since (P := fun commands => P ((start config).after commands)) hstart
    (fun earlier c => ?_) commands
  rw [after_append]
  exact hstep _ (sound_after config earlier) c

theorem after_iff_once (P : Notifier → Prop) (does : Notifier → Command → Prop)
    (hstart : ¬ P (start config))
    (hstep : ∀ n : Notifier, n.Sound → ∀ c, P (n.step c).2 ↔ does n c ∨ P n) :
    P ((start config).after commands) ↔
      Once (fun before => does ((start config).after before)) commands :=
  after_iff_since config commands P does (fun _ _ => False) hstart fun n h c => by
    rw [hstep n h, and_iff_left not_false]

/-- A subscriber is known since they joined, unless they were forgotten since. -/
theorem knows_iff_since : ((start config).after commands).knows id ↔
    Since (fun before => ((start config).after before).Enrols id)
      (fun before => ((start config).after before).Forgets id) commands :=
  after_iff_since config commands (fun n => n.knows id) (fun n => n.Enrols id)
    (fun n => n.Forgets id) nofun fun _ h => h.knows_step

/-- A station is watched since the subscriber asked for it while they were known, unless they asked
    for the contrary since, or were forgotten. -/
theorem watches_iff_since (station : StationCode) :
    ((start config).after commands).watches id station ↔
      Since (fun before c => c = .subscribe id station ∧ ((start config).after before).knows id)
        (fun before c => c = .unsubscribe id station ∨ ((start config).after before).Forgets id c)
        commands :=
  after_iff_since config commands (fun n => n.watches id station)
    (fun n c => c = .subscribe id station ∧ n.knows id)
    (fun n c => c = .unsubscribe id station ∨ n.Forgets id c) nofun fun _ h => h.watches_step

/-- There is an outbox for everybody who ever joined. -/
theorem outbox_iff_once : (((start config).after commands).outboxes.get? id).isSome ↔
    Once (fun before => ((start config).after before).Enrols id) commands :=
  after_iff_once config commands (fun n => (n.outboxes.get? id).isSome) (fun n => n.Enrols id) nofun
    fun _ h => h.outbox_step

/-- A subscription is dropped that was ever dropped after somebody had joined under its id. -/
theorem isDropped_iff_once : ((start config).after commands).isDropped id ↔
    Once (fun before c => c = .drop id ∧
      Once (fun first => ((start config).after first).Enrols id) before) commands := by
  simp only [← outbox_iff_once]
  exact after_iff_once config commands (fun n => n.isDropped id)
    (fun n c => c = .drop id ∧ (n.outboxes.get? id).isSome) nofun fun _ h => h.isDropped_step

end Sessions

/-- An exchange of a session is about one of its commands, and begins where those before it end. -/
theorem exists_split_of_mem_exchanges {e : Exchange} {commands : List Command}
    (he : e ∈ n.exchanges commands) : ∃ earlier later, commands = earlier ++ e.command :: later ∧
      e.before = n.after earlier ∧ e.answer = (e.before.step e.command).1 := by
  induction commands generalizing n with
  | nil => exact absurd he List.not_mem_nil
  | cons c rest ih =>
    rcases List.mem_cons.1 he with rfl | he
    · exact ⟨[], rest, rfl, rfl, rfl⟩
    · obtain ⟨earlier, later, hrest, hbefore, hanswer⟩ := ih he
      exact ⟨c :: earlier, later, congrArg (c :: ·) hrest, hbefore, hanswer⟩

/-- The watchers that are counted are those who watch the station. -/
theorem exists_watchers {e : Exchange} {event : StationChanged} (hc : e.command = .publish event) :
    ∃ ids : List SubscriberId, ids.Nodup ∧
      (∀ id, id ∈ ids ↔ e.before.watches id event.station) ∧ e.watchers = ids.length := by
  refine ⟨(e.before.subscribers.entries.filter fun s => event.station ∈ s.2.watched).map Prod.fst,
    ?_, fun id => ?_, ?_⟩
  · refine List.pairwise_map.2 ((e.before.subscribers.ascending.filter _).imp fun hlt heq => ?_)
    exact Nat.lt_irrefl _ (Nat.lt_of_lt_of_eq hlt (congrArg rank heq.symm))
  · rw [← watchedIn_entries, watchedIn, List.any_eq_true]
    simp
  · rw [List.length_map, ← List.countP_eq_length_filter, Exchange.watchers, hc]

/-- In any session, whatever the capacity of the outboxes.

The commands tell who is known, who watches what, and which subscriptions are dropped; and so before
every exchange.

The holder of a subscription that is not dropped has drawn, or has waiting, the events that arrived,
in order, and no outbox holds more than its capacity. The events that were published are counted,
and so is every outbox that one of them met, which are those of the subscribers who watch the
station. The roster lists the subscribers in the order of their ids, with what they watch. One whose
subscription is dropped stays on it until they leave, or until the next event for a station they
watch; and who was on it and is no longer never comes back. -/
theorem session_delivery (config : NotifierConfig) (commands : List Command) :
    let now := (start config).after
    let n := now commands
    let trace := (start config).exchanges commands
    (∀ id, n.knows id ↔
      Since (fun before => (now before).Enrols id) (fun before => (now before).Forgets id)
        commands) ∧
    (∀ id station, n.watches id station ↔
      Since (fun before c => c = .subscribe id station ∧ (now before).knows id)
        (fun before c => c = .unsubscribe id station ∨ (now before).Forgets id c) commands) ∧
    (∀ id, n.isDropped id ↔
      Once (fun before c => c = .drop id ∧ Once (fun first => (now first).Enrols id) before)
        commands) ∧
    (∀ e ∈ trace, ∃ earlier later, commands = earlier ++ e.command :: later ∧
      e.before = now earlier ∧ e.answer = (e.before.step e.command).1 ∧
      e.before.capacity = config.outboxCapacity) ∧
    (∀ e ∈ trace, ∀ event, e.command = .publish event → e.accepted ∧
      ∃ ids : List SubscriberId, ids.Nodup ∧
        (∀ id, id ∈ ids ↔ e.before.watches id event.station) ∧ e.watchers = ids.length) ∧
    (∀ id, .drop id ∉ commands → n.isDropped id = false) ∧
    (∀ id, n.isDropped id = false →
      trace.flatMap (·.drawn id) ++ n.pending id = trace.flatMap (·.arrived id)) ∧
    (∀ id, (n.pending id).length ≤ config.outboxCapacity) ∧
    n.stats.published = trace.countP Exchange.accepted ∧
    n.stats.delivered + n.stats.droppedFull + n.stats.prunedSubscribers =
      (trace.map Exchange.watchers).sum ∧
    (∃ infos, n.roster = .ok infos ∧ (infos.map SubscriberInfo.id).Pairwise (· < ·) ∧
      (∀ id, id ∈ infos.map SubscriberInfo.id ↔ n.knows id) ∧
      ∀ info ∈ infos, ∀ station, station ∈ info.stations ↔ n.watches info.id station) ∧
    (∀ id c, n.knows id → n.isDropped id → ((n.step c).2.knows id ↔
      c ≠ .leave id ∧ ∀ event, c = .publish event → ¬ n.watches id event.station)) ∧
    ∀ id earlier, earlier <+: commands → (now earlier).knows id → ¬ n.knows id →
      ∀ later, ¬ (n.after later).knows id := by
  intro now n trace
  obtain ⟨haccount, hsound⟩ := (sound_start config).accounted commands
  refine ⟨fun id => knows_iff_since config id commands,
    fun id => watches_iff_since config id commands, fun id => isDropped_iff_once config id commands,
    fun e he => ?_, fun e he event hc => ⟨?_, exists_watchers hc⟩, fun id hnone => ?_,
    fun id ho => (haccount.delivered id ho).2, fun id => ?_, ?_, ?_, hsound.exists_roster,
    fun id c hk hd => ?_, ?_⟩
  · obtain ⟨earlier, later, hsplit, hbefore, hanswer⟩ := exists_split_of_mem_exchanges he
    refine ⟨earlier, later, hsplit, hbefore, hanswer, ?_⟩
    rw [hbefore]
    exact ((sound_start config).accounted earlier).1.capacity_eq
  · obtain ⟨earlier, later, -, hbefore, hanswer⟩ := exists_split_of_mem_exchanges he
    obtain ⟨_, _, _, hpublish, -⟩ := (sound_after config earlier).publish_eq event
    rw [Exchange.accepted, hanswer, hc, hbefore, step, hpublish]
  · refine Bool.eq_false_iff.2 fun hd => ?_
    obtain ⟨before, c, rest, rfl, ⟨rfl, -⟩, -⟩ := (isDropped_iff_once config id commands).1 hd
    exact hnone (List.mem_append_right _ List.mem_cons_self)
  · rw [← waiting_eq_length]
    exact Nat.le_trans (hsound.bounded id) (Nat.le_of_eq haccount.capacity_eq)
  · exact haccount.published_eq.trans (Nat.zero_add _)
  · exact haccount.met_eq.trans (Nat.zero_add _)
  · rw [hsound.knows_step, or_iff_right (hsound.not_enrols_of_knows hk), and_iff_right hk, Forgets,
      not_or]
    refine and_congr_right fun _ => ⟨fun hnot event hc hw => hnot ⟨event, hc, hw, hd⟩, ?_⟩
    rintro hnot ⟨event, hc, hw, -⟩
    exact hnot event hc hw
  · rintro id earlier ⟨rest, rfl⟩ hknown hgone
    exact not_knows_again hknown hgone

/-- The crowded session, and the first subscriber no longer watches the station, draws what waits,
    and misses one more event. -/
def quietedSession : List Command :=
  crowdedSession ++ [.unsubscribe 1 .sm, .next 1, .publish ⟨.sm⟩]

/-- With room for one event, the first subscriber has drawn one and has one waiting; the second one
    is on the roster after they drop out, until the first event, and never again. Once the first one
    does not watch the station any more, what they have drawn is all that ever arrived. -/
theorem crowdedSession_delivery :
    let now := (start { outboxCapacity := 1 }).after
    let n := now crowdedSession
    let trace := (start { outboxCapacity := 1 }).exchanges crowdedSession
    let m := now (crowdedSession.take 5)
    let quieted := (start { outboxCapacity := 1 }).exchanges quietedSession
    Command.drop 1 ∉ crowdedSession ∧ n.isDropped 1 = false ∧
      trace.flatMap (·.drawn 1) ++ n.pending 1 = trace.flatMap (·.arrived 1) ∧
      trace.flatMap (·.drawn 1) = [⟨.sm⟩] ∧ n.pending 1 = [⟨.sm⟩] ∧
      n.stats.delivered + n.stats.droppedFull + n.stats.prunedSubscribers = 4 ∧
      m.knows 2 ∧ m.isDropped 2 ∧ ¬ (m.step (.publish ⟨.sm⟩)).2.knows 2 ∧
      ¬ n.knows 2 ∧ (∀ later, ¬ (n.after later).knows 2) ∧
      n.watches 1 .sm ∧ ¬ (now quietedSession).watches 1 .sm ∧
      quieted.flatMap (·.drawn 1) = quieted.flatMap (·.arrived 1) ∧
      quieted.flatMap (·.drawn 1) = [⟨.sm⟩, ⟨.sm⟩] ∧
      (now quietedSession).stats.published = 4 := by
  intro now n trace m quieted
  have hone : Command.drop 1 ∉ crowdedSession := by decide
  have htwo : m.knows 2 ∧ m.isDropped 2 ∧ m.watches 2 .sm ∧ ¬ n.knows 2 := by decide +kernel
  obtain ⟨hknown, hdropped, hwatches, hgone⟩ := htwo
  obtain ⟨-, -, -, -, -, -, -, -, -, -, -, hstays, -⟩ :=
    session_delivery { outboxCapacity := 1 } (crowdedSession.take 5)
  obtain ⟨-, -, -, -, -, hundropped, hdelivered, -, -, hmet, -, -, hnever⟩ :=
    session_delivery { outboxCapacity := 1 } crowdedSession
  obtain ⟨-, -, -, -, -, hundropped', hdelivered', -, hpublished, -⟩ :=
    session_delivery { outboxCapacity := 1 } quietedSession
  refine ⟨hone, hundropped 1 hone, hdelivered 1 (hundropped 1 hone), by decide +kernel,
    by decide +kernel, hmet.trans (by decide +kernel), hknown, hdropped, ?_, hgone,
    hnever 2 _ (List.take_prefix 5 crowdedSession) hknown hgone, by decide +kernel,
    by decide +kernel, ?_, by decide +kernel, hpublished.trans (by decide +kernel)⟩
  · rw [hstays 2 _ hknown hdropped]
    exact fun hall => hall.2 ⟨.sm⟩ rfl hwatches
  · have hnone : (now quietedSession).pending 1 = [] := by decide +kernel
    rw [← hdelivered' 1 (hundropped' 1 (by decide)), hnone, List.append_nil]

end Notifier

end RailFreight
