import RailFreight.Proofs.Delivery

/-!
# Separation of subscribers

All subscribers share one table, and a publication goes through all of it, with outboxes that are
full or closed among them. Still nobody notices from what the notifier does for them what the others
do: whether they watch anything, draw their events in time, leave, or drop out without a word.

To tell this, two sessions are run next to each other in which a subscriber sees the same commands:
those that concern them, which are their own, the publications, and the joins, since ids are given
out in the order of these. What is compared after each command is the `View` of the subscriber: the
entries that they have in the two tables, and the little else that an answer depends on. A command
that concerns them takes equal views to equal views; any other command keeps the view.

* `Notifier.Command.concerns`: the commands that a subscriber has to do with;
* `Notifier.Sound.view_step`, `Notifier.Sound.view_step_of_not_concerns`: what a command does to a
  view;
* `Notifier.Sound.purged`: a session looks like the one with the other commands left out;
* `Notifier.session_separation`: what a subscriber gets does not depend on the other commands.
-/

namespace RailFreight.Notifier

variable {n n' : Notifier} {id : SubscriberId} {c : Command}

/-! ## What concerns a subscriber -/

/-- Whether a command is one of the subscriber's own, or one that is there for all of them. -/
def Command.concerns (id : SubscriberId) : Command → Bool
  | .join _ | .publish _ => true
  | .subscribe i _ | .unsubscribe i _ | .leave i | .drop i | .drain i | .next i => i = id
  | .roster => false

/-- What the roster says of a subscriber, if they are on it. -/
def listed? (n : Notifier) (id : SubscriberId) : Option SubscriberInfo :=
  n.roster.toOption.bind fun infos => infos.find? (·.id = id)

/-- An exchange as it looks to a subscriber: the command with its answer, what they have before it,
    and what they gain by it. -/
structure Moment where
  command : Command
  answer : Answer
  waited : List StationChanged
  dropped : Bool
  listed : Option SubscriberInfo
  arrived : List StationChanged
  drawn : List StationChanged

/-- An exchange as it looks to the subscriber. -/
def Exchange.moment (e : Exchange) (id : SubscriberId) : Moment where
  command := e.command
  answer := e.answer
  waited := e.before.pending id
  dropped := e.before.isDropped id
  listed := e.before.listed? id
  arrived := e.arrived id
  drawn := e.drawn id

/-- What a subscriber lives through: the exchanges that concern them, as they look to them. -/
def moments (n : Notifier) (id : SubscriberId) (commands : List Command) : List Moment :=
  ((n.exchanges commands).filter fun e => e.command.concerns id).map (·.moment id)

/-- Nothing comes to a subscriber by a command that does not concern them. -/
theorem Exchange.nothing_of_not_concerns {e : Exchange} (hc : e.command.concerns id = false) :
    e.arrived id = [] ∧ e.drawn id = [] := by
  obtain ⟨before, command, answer⟩ := e
  cases command with
  | join name | publish event => exact absurd hc.symm Bool.false_ne_true
  | subscribe i station | unsubscribe i station | leave i | drop i | roster => exact ⟨rfl, rfl⟩
  | drain i | next i =>
    have hi : ¬ i = id := of_decide_eq_false hc
    refine ⟨rfl, ?_⟩
    cases answer <;> simp [drawn, hi]

/-! ## Views -/

/-- What a notifier holds of a subscriber, and what else there is that the commands which concern
    them depend on. -/
structure View where
  capacity : Nat
  nextId : SubscriberId
  running : Bool
  subscriber : Option Subscriber
  outbox : Option Outbox

def view (n : Notifier) (id : SubscriberId) : View where
  capacity := n.capacity
  nextId := n.nextId
  running := n.running
  subscriber := n.subscribers.get? id
  outbox := n.outboxes.get? id

theorem listed?_eq (n : Notifier) (id : SubscriberId) : n.listed? id =
    if n.running then (n.subscribers.get? id).map fun s => ⟨id, s.user, s.watched⟩ else none := by
  rw [listed?, roster]
  split
  · rw [Except.toOption, Option.bind_some, List.find?_map, Table.get?, Option.map_map]
    cases hfind : n.subscribers.entries.find? fun e => rank e.1 = rank id with
    | none => exact congrArg (Option.map _) hfind
    | some e =>
      have hrank := List.find?_some hfind
      have hid : e.1 = id := rank_injective (of_decide_eq_true hrank)
      refine (congrArg (Option.map _) hfind).trans ?_
      simp [hid]
  · rfl

section EqualViews

variable (hview : n.view id = n'.view id)

include hview

theorem pending_congr : n.pending id = n'.pending id := by
  rw [pending, pending, (View.mk.inj hview).2.2.2.2]

theorem isDropped_congr : n.isDropped id = n'.isDropped id := by
  rw [isDropped, isDropped, (View.mk.inj hview).2.2.2.2]

theorem watches_congr (station : StationCode) : n.watches id station = n'.watches id station := by
  rw [watches, watches, (View.mk.inj hview).2.2.2.1]

theorem listed?_congr : n.listed? id = n'.listed? id := by
  obtain ⟨-, -, hrunning, hsubscriber, -⟩ := View.mk.inj hview
  rw [listed?_eq, listed?_eq, hrunning, hsubscriber]

theorem arrived_congr (c : Command) (a : Answer) :
    Exchange.arrived ⟨n, c, a⟩ id = Exchange.arrived ⟨n', c, a⟩ id := by
  have hcapacity : n.capacity = n'.capacity := (View.mk.inj hview).1
  cases c with
  | publish event =>
    simp only [Exchange.arrived]
    rw [watches_congr hview, waiting_eq_length, waiting_eq_length, pending_congr hview, hcapacity]
  | _ => rfl

/-- The view tells an exchange as it looks to the subscriber. -/
theorem moment_congr (c : Command) (a : Answer) :
    Exchange.moment ⟨n, c, a⟩ id = Exchange.moment ⟨n', c, a⟩ id := by
  rw [Exchange.moment, Exchange.moment, arrived_congr hview, pending_congr hview,
    isDropped_congr hview, listed?_congr hview]
  rfl

end EqualViews

/-! ## Commands -/

theorem view_modify_subscribers (n : Notifier) (i : SubscriberId) (f : Subscriber → Subscriber) :
    ({ n with subscribers := n.subscribers.modify i f } : Notifier).view id =
      { n.view id with
        subscriber := if i = id then (n.view id).subscriber.map f else (n.view id).subscriber } :=
  View.mk.injEq .. ▸ ⟨rfl, rfl, rfl, Table.get?_modify .., rfl⟩

theorem view_erase_subscribers (n : Notifier) (i : SubscriberId) :
    ({ n with subscribers := n.subscribers.erase i } : Notifier).view id =
      { n.view id with subscriber := if i = id then none else (n.view id).subscriber } :=
  View.mk.injEq .. ▸ ⟨rfl, rfl, rfl, Table.get?_erase .., rfl⟩

theorem view_modify_outboxes (n : Notifier) (i : SubscriberId) (f : Outbox → Outbox) :
    ({ n with outboxes := n.outboxes.modify i f } : Notifier).view id =
      { n.view id with
        outbox := if i = id then (n.view id).outbox.map f else (n.view id).outbox } :=
  View.mk.injEq .. ▸ ⟨rfl, rfl, rfl, rfl, Table.get?_modify ..⟩

theorem view_enrol (n : Notifier) (user : User) :
    (n.enrol user).2.view id =
      { n.view id with
        nextId := n.nextId + 1
        subscriber := if n.nextId = id then some ⟨user, []⟩ else (n.view id).subscriber
        outbox := if n.nextId = id then some ⟨[], false⟩ else (n.view id).outbox } :=
  View.mk.injEq .. ▸ ⟨rfl, rfl, rfl, enrol_subscribers .., enrol_outboxes ..⟩

namespace Sound

variable (h : n.Sound)

include h

theorem view_publish (event : StationChanged) :
    (n.publish event).2.view id =
      { n.view id with
        subscriber := if n.watches id event.station ∧ n.isDropped id then none
          else (n.view id).subscriber
        outbox := if n.watches id event.station then
          (n.view id).outbox.map (·.receive n.capacity event) else (n.view id).outbox } := by
  obtain ⟨subscribers, outboxes, stats, heq, -⟩ := h.publish_eq event
  have hsubscriber := h.publish_subscribers event id
  have houtbox := h.publish_outboxes event id
  rw [heq] at hsubscriber houtbox ⊢
  exact View.mk.injEq .. ▸ ⟨rfl, rfl, rfl, hsubscriber, houtbox⟩

/-- A command that does not concern the subscriber keeps their view. -/
theorem view_step_of_not_concerns (hc : c.concerns id = false) :
    (n.step c).2.view id = n.view id := by
  cases c with
  | join name | publish event => exact absurd hc.symm Bool.false_ne_true
  | subscribe i station =>
    rw [step, subscribe, h.command_eq, view_modify_subscribers, if_neg (of_decide_eq_false hc)]
  | unsubscribe i station =>
    rw [step, unsubscribe, h.command_eq, view_modify_subscribers, if_neg (of_decide_eq_false hc)]
  | leave i =>
    rw [step, leave, h.command_eq, view_erase_subscribers, if_neg (of_decide_eq_false hc)]
  | drop i => rw [step, drop, view_modify_outboxes, if_neg (of_decide_eq_false hc)]
  | drain i => rw [step, drain, view_modify_outboxes, if_neg (of_decide_eq_false hc)]
  | next i => rw [step, next, view_modify_outboxes, if_neg (of_decide_eq_false hc)]
  | roster => rfl

/-- A command that concerns the subscriber is answered by their view, and takes it to another. -/
theorem view_step (h' : n'.Sound) (hview : n.view id = n'.view id) (hc : c.concerns id) :
    (n.step c).1 = (n'.step c).1 ∧ (n.step c).2.view id = (n'.step c).2.view id := by
  obtain ⟨hcapacity, hnextId, -, -, houtbox⟩ := View.mk.inj hview
  cases c with
  | join name =>
    simp only [step, join, if_pos h.running, if_pos h'.running]
    cases User.ofText? name with
    | none => exact ⟨rfl, hview⟩
    | some user =>
      refine ⟨?_, ?_⟩
      · simp only [enrol, hnextId]
      · simp only [view_enrol, hview, hnextId]
  | subscribe i station =>
    simp only [step, subscribe, h.command_eq, h'.command_eq, view_modify_subscribers, hview,
      and_self]
  | unsubscribe i station =>
    simp only [step, unsubscribe, h.command_eq, h'.command_eq, view_modify_subscribers, hview,
      and_self]
  | leave i =>
    simp only [step, leave, h.command_eq, h'.command_eq, view_erase_subscribers, hview, and_self]
  | publish event =>
    obtain ⟨subscribers, outboxes, stats, heq, -⟩ := h.publish_eq event
    obtain ⟨subscribers', outboxes', stats', heq', -⟩ := h'.publish_eq event
    refine ⟨?_, ?_⟩
    · rw [step, step, heq, heq']
    · simp only [step]
      rw [h.view_publish, h'.view_publish, watches_congr hview, isDropped_congr hview, hview,
        hcapacity]
  | drop i => simp only [step, drop, view_modify_outboxes, hview, and_self]
  | drain i =>
    obtain rfl : i = id := of_decide_eq_true hc
    simp only [step, drain, view_modify_outboxes, hview, houtbox, and_self]
  | next i =>
    obtain rfl : i = id := of_decide_eq_true hc
    simp only [step, next, view_modify_outboxes, hview, houtbox, and_self]
  | roster => exact absurd hc Bool.false_ne_true

/-! ## Sessions -/

/-- To a subscriber a session looks like the one of the commands that concern them. -/
theorem purged (commands : List Command) (h' : n'.Sound) (hview : n.view id = n'.view id) :
    n.moments id commands =
        (n'.exchanges (commands.filter (·.concerns id))).map (·.moment id) ∧
      (n.after commands).view id = (n'.after (commands.filter (·.concerns id))).view id := by
  induction commands generalizing n n' with
  | nil => exact ⟨rfl, hview⟩
  | cons c rest ih =>
    obtain ⟨-, hsound⟩ := h.step_accounted c
    by_cases hc : c.concerns id
    · obtain ⟨-, hsound'⟩ := h'.step_accounted c
      obtain ⟨hanswer, hnext⟩ := h.view_step h' hview hc
      obtain ⟨hrest, hafter⟩ := ih hsound hsound' hnext
      rw [List.filter_cons_of_pos hc]
      refine ⟨?_, hafter⟩
      have hkept : n.moments id (c :: rest) =
          Exchange.moment ⟨n, c, (n.step c).1⟩ id :: (n.step c).2.moments id rest := by
        simp [moments, exchanges, hc]
      rw [hkept, hrest, hanswer, moment_congr hview]
      rfl
    · obtain ⟨hrest, hafter⟩ := ih hsound h'
        ((h.view_step_of_not_concerns (Bool.eq_false_iff.2 hc)).trans hview)
      rw [List.filter_cons_of_neg hc]
      have hleft : n.moments id (c :: rest) = (n.step c).2.moments id rest := by
        simp [moments, exchanges, hc]
      exact ⟨hleft.trans hrest, hafter⟩

end Sound

/-- In two sessions with the same joins, publications and commands of a subscriber, in the same
    order, whatever the others do in between: the subscriber has the same events waiting before each
    of these commands, gets the same answers, and draws and receives the same by each. In the end
    the same events wait for them, and the roster says the same of them, if they are on it. -/
theorem session_separation (config : NotifierConfig) (id : SubscriberId)
    (commands commands' : List Command)
    (hshared : commands.filter (·.concerns id) = commands'.filter (·.concerns id)) :
    let n := start config
    n.moments id commands = n.moments id commands' ∧
    (∀ e ∈ n.exchanges commands, e.command.concerns id = false →
      e.arrived id = [] ∧ e.drawn id = []) ∧
    (n.after commands).pending id = (n.after commands').pending id ∧
    (n.after commands).isDropped id = (n.after commands').isDropped id ∧
    (n.after commands).listed? id = (n.after commands').listed? id := by
  intro n
  have hsound : n.Sound := sound_start config
  have hself : n.view id = n.view id := rfl
  obtain ⟨hmoments, hafter⟩ := hsound.purged commands hsound hself
  obtain ⟨hmoments', hafter'⟩ := hsound.purged commands' hsound hself
  rw [hshared] at hmoments hafter
  have hview := hafter.trans hafter'.symm
  exact ⟨hmoments.trans hmoments'.symm, fun e _ => e.nothing_of_not_concerns,
    pending_congr hview, isDropped_congr hview, listed?_congr hview⟩

/-- Two subscribers watch a station, one with too little room, and one who drops out. -/
def crowdedSession : List Command :=
  [.join "bob", .subscribe 1 .sm, .join "eve", .subscribe 2 .sm, .drop 2, .publish ⟨.sm⟩,
    .publish ⟨.sm⟩, .drain 1, .publish ⟨.sm⟩]

/-- The crowded session, but the second subscriber watches nothing and does not drop out. -/
def uncrowdedSession : List Command :=
  [.join "bob", .subscribe 1 .sm, .join "eve", .publish ⟨.sm⟩, .publish ⟨.sm⟩, .roster, .drain 1,
    .publish ⟨.sm⟩]

/-- In both sessions the first subscriber receives two events, misses one while their outbox is
    full, draws one and has one waiting. The second one is forgotten in the crowded session only. -/
theorem crowdedSession_separation :
    let n := start { outboxCapacity := 1 }
    crowdedSession.filter (·.concerns 1) = uncrowdedSession.filter (·.concerns 1) ∧
    n.moments 1 crowdedSession = n.moments 1 uncrowdedSession ∧
    (n.moments 1 crowdedSession).map (·.arrived.length) = [0, 0, 0, 1, 0, 0, 1] ∧
    (n.moments 1 crowdedSession).map (·.drawn.length) = [0, 0, 0, 0, 0, 1, 0] ∧
    (n.after crowdedSession).pending 1 = (n.after uncrowdedSession).pending 1 ∧
    (n.after crowdedSession).pending 1 = [⟨.sm⟩] ∧
    (n.after crowdedSession).listed? 1 = (n.after uncrowdedSession).listed? 1 ∧
    ((n.after crowdedSession).listed? 1).map SubscriberInfo.stations = some [.sm] ∧
    ¬ (n.after crowdedSession).knows 2 ∧ (n.after uncrowdedSession).knows 2 := by
  intro n
  have hshared : crowdedSession.filter (·.concerns 1) = uncrowdedSession.filter (·.concerns 1) := by
    decide
  obtain ⟨hmoments, -, hpending, -, hlisted⟩ :=
    session_separation { outboxCapacity := 1 } 1 crowdedSession uncrowdedSession hshared
  exact ⟨hshared, hmoments, by decide +kernel, by decide +kernel, hpending, by decide +kernel,
    hlisted, by decide +kernel, by decide +kernel, by decide +kernel⟩

end RailFreight.Notifier
