import RailFreight.Notifier
import Mathlib.Data.List.Nodup

/-!
# Sessions with the notifier

Those who use the notifier give it commands: they join, watch stations, leave, publish events, draw
from their outboxes, drop their subscriptions, and ask for the roster. The notifier obeys one
command after the other. A *session* is what comes of a list of commands: the exchanges of a
command for an answer, each with the notifier before it, and the notifier in the end.

All commands but one change a single entry of a table. A publication goes through the table of
subscribers and changes as it goes, so what it comes to in the end is told here for each
subscriber: their outbox receives the event if they watch the station, and they are forgotten if it
turns out to be closed.

* `Notifier.Command`, `Notifier.step`, `Notifier.exchanges`: sessions;
* `Notifier.Sound`: what every notifier keeps that is in use;
* `Notifier.publish_outboxes`, `Notifier.publish_subscribers`, `Notifier.publish_met`: what a
  publication comes to.
-/

namespace RailFreight

/-- How often the notifier met an outbox with an event: it put the event in, or lost it, or found
    the outbox closed. -/
def NotifierStats.met (s : NotifierStats) : Nat :=
  s.delivered + s.droppedFull + s.prunedSubscribers

/-- The outbox after an event arrives. -/
def Outbox.receive (o : Outbox) (capacity : Nat) (event : StationChanged) : Outbox :=
  if !o.closed && o.waiting.length < capacity then { o with waiting := o.waiting ++ [event] } else o

@[simp] theorem Outbox.receive_closed (o : Outbox) (capacity : Nat) (event : StationChanged) :
    (o.receive capacity event).closed = o.closed := by
  rw [receive]
  split <;> rfl

theorem Outbox.length_receive_le {o : Outbox} {capacity : Nat} (h : o.waiting.length ≤ capacity)
    (event : StationChanged) : (o.receive capacity event).waiting.length ≤ capacity := by
  rw [receive]
  split
  · rename_i hroom
    obtain ⟨-, hroom⟩ := Bool.and_eq_true_iff.1 hroom
    rw [List.length_append, List.length_singleton]
    exact of_decide_eq_true hroom
  · exact h

namespace Notifier

/-! ## Commands -/

/-- What can be asked of the notifier while it runs. -/
inductive Command
  | join (name : String)
  | subscribe (id : SubscriberId) (station : StationCode)
  | unsubscribe (id : SubscriberId) (station : StationCode)
  | leave (id : SubscriberId)
  | publish (event : StationChanged)
  /-- The subscription is dropped. -/
  | drop (id : SubscriberId)
  | drain (id : SubscriberId)
  | next (id : SubscriberId)
  | roster
  deriving DecidableEq

/-- What is answered to a command. -/
inductive Answer
  | joined (reply : Except NotifierRefusal (SubscriberId × User))
  /-- The answer to a change of what is watched, or to a departure. -/
  | heard (reply : Except NotifierRefusal Unit)
  | published (accepted : Bool)
  | dropped
  | drained (events : List StationChanged)
  | drew (event : Option StationChanged)
  | listed (reply : Except NotifierRefusal (List SubscriberInfo))

/-- Answers a command, and obeys it. -/
def step (n : Notifier) : Command → Answer × Notifier
  | .join name => (.joined (n.join name).1, (n.join name).2)
  | .subscribe id station => (.heard (n.subscribe id station).1, (n.subscribe id station).2)
  | .unsubscribe id station => (.heard (n.unsubscribe id station).1, (n.unsubscribe id station).2)
  | .leave id => (.heard (n.leave id).1, (n.leave id).2)
  | .publish event => (.published (n.publish event).1, (n.publish event).2)
  | .drop id => (.dropped, n.drop id)
  | .drain id => (.drained (n.drain id).1, (n.drain id).2)
  | .next id => (.drew (n.next id).1, (n.next id).2)
  | .roster => (.listed n.roster, n)

/-- A command with its answer, and the notifier before it. -/
structure Exchange where
  before : Notifier
  command : Command
  answer : Answer

/-- The notifier after the commands. -/
def after (n : Notifier) (commands : List Command) : Notifier :=
  commands.foldl (fun n c => (n.step c).2) n

/-- The exchanges that the commands come to. -/
def exchanges (n : Notifier) : List Command → List Exchange
  | [] => []
  | c :: rest => ⟨n, c, (n.step c).1⟩ :: (n.step c).2.exchanges rest

theorem after_append (n : Notifier) (first rest : List Command) :
    n.after (first ++ rest) = (n.after first).after rest := List.foldl_append ..

/-! ## What a subscriber has -/

/-- The events that wait for a subscriber, oldest first. -/
def pending (n : Notifier) (id : SubscriberId) : List StationChanged :=
  ((n.outboxes.get? id).map Outbox.waiting).getD []

/-- Whether the subscription has been dropped. -/
def isDropped (n : Notifier) (id : SubscriberId) : Bool := (n.outboxes.get? id).any Outbox.closed

/-- Whether the notifier knows the subscriber. -/
def knows (n : Notifier) (id : SubscriberId) : Bool := n.subscribers.contains id

/-- Whether the notifier knows the subscriber to watch the station. -/
def watches (n : Notifier) (id : SubscriberId) (station : StationCode) : Bool :=
  (n.subscribers.get? id).any fun s => station ∈ s.watched

variable {n : Notifier} {event : StationChanged} {id j : SubscriberId} {s : Subscriber}

theorem waiting_eq_length (n : Notifier) (id : SubscriberId) :
    n.waiting id = (n.pending id).length := by
  rw [waiting, pending]
  cases n.outboxes.get? id <;> rfl

/-! ## Publications -/

section Offers

/-- An offer touches no more than the tables and the counts of what was met. -/
theorem offer_eq (n : Notifier) (event : StationChanged) (id : SubscriberId) (s : Subscriber) :
    ∃ subscribers outboxes stats, n.offer event id s = { n with subscribers, outboxes, stats } ∧
      stats.published = n.stats.published := by
  rw [offer]
  split
  · exact ⟨_, _, _, rfl, rfl⟩
  split
  · exact ⟨_, _, _, rfl, rfl⟩
  split
  · exact ⟨_, _, _, rfl, rfl⟩
  split <;> exact ⟨_, _, _, rfl, rfl⟩

theorem offer_capacity (n : Notifier) (event : StationChanged) (id : SubscriberId)
    (s : Subscriber) : (n.offer event id s).capacity = n.capacity := by
  obtain ⟨subscribers, outboxes, stats, h, -⟩ := n.offer_eq event id s
  rw [h]

/-- The outbox of a subscriber who watches the station receives the event. -/
theorem offer_outboxes (n : Notifier) (event : StationChanged) (id j : SubscriberId)
    (s : Subscriber) : (n.offer event id s).outboxes.get? j =
      if id = j ∧ event.station ∈ s.watched then
        (n.outboxes.get? j).map (·.receive n.capacity event)
      else n.outboxes.get? j := by
  rw [offer]
  by_cases hw : event.station ∈ s.watched
  · rw [if_neg (not_not.2 hw)]
    by_cases hj : id = j
    · subst hj
      rw [if_pos ⟨rfl, hw⟩]
      cases ho : n.outboxes.get? id with
      | none => exact ho
      | some o =>
        simp only [Option.map_some, Outbox.receive]
        split
        · rename_i hclosed
          simp [hclosed, ho]
        · rename_i hopen
          split
          · rename_i hroom
            simp [hopen, hroom, Table.get?_insert]
          · rename_i hfull
            simp [hfull, ho]
    · rw [if_neg fun h => hj h.1]
      have hrank : ¬ rank id = rank j := hj
      cases n.outboxes.get? id with
      | none => rfl
      | some o =>
        simp only
        split
        · rfl
        · split
          · exact (Table.get?_insert ..).trans (if_neg hrank)
          · rfl
  · rw [if_pos hw, if_neg fun h => hw h.2]

theorem offer_isDropped (n : Notifier) (event : StationChanged) (id j : SubscriberId)
    (s : Subscriber) : (n.offer event id s).isDropped j = n.isDropped j := by
  rw [isDropped, isDropped, offer_outboxes]
  split
  · cases n.outboxes.get? j with
    | none => rfl
    | some o => exact o.receive_closed ..
  · rfl

/-- A subscriber who watches the station is forgotten if the outbox is closed. -/
theorem offer_subscribers (n : Notifier) (event : StationChanged) (id j : SubscriberId)
    (s : Subscriber) : (n.offer event id s).subscribers.get? j =
      if (id = j ∧ event.station ∈ s.watched) ∧ n.isDropped j then none
      else n.subscribers.get? j := by
  rw [offer]
  by_cases hw : event.station ∈ s.watched
  · rw [if_neg (not_not.2 hw)]
    by_cases hj : id = j
    · subst hj
      rw [isDropped]
      cases n.outboxes.get? id with
      | none => simp
      | some o =>
        simp only [Option.any_some]
        split
        · rename_i hclosed
          simp [hclosed, hw, Table.get?_erase]
        · rename_i hopen
          split <;> simp [hopen]
    · rw [if_neg fun h => hj h.1.1]
      have hrank : ¬ rank id = rank j := hj
      cases n.outboxes.get? id with
      | none => rfl
      | some o =>
        simp only
        split
        · exact (Table.get?_erase ..).trans (if_neg hrank)
        · split <;> rfl
  · rw [if_pos hw, if_neg fun h => hw h.1.2]

/-- An outbox that is offered an event is met once. -/
theorem offer_met (ho : (n.outboxes.get? id).isSome) :
    (n.offer event id s).stats.met =
      n.stats.met + if event.station ∈ s.watched then 1 else 0 := by
  obtain ⟨o, ho⟩ := Option.isSome_iff_exists.1 ho
  rw [offer, ho]
  by_cases hw : event.station ∈ s.watched
  · rw [if_neg (not_not.2 hw), if_pos hw]
    simp only
    split
    · simp only [NotifierStats.met]
      omega
    · split <;> simp only [NotifierStats.met] <;> omega
  · rw [if_pos hw, if_neg hw, Nat.add_zero]

/-- Whether the subscriber is among the entries, and watches the station there. -/
def watchedIn (entries : List (SubscriberId × Subscriber)) (id : SubscriberId)
    (station : StationCode) : Bool :=
  entries.any fun e => e.1 = id && station ∈ e.2.watched

theorem watchedIn_cons (e : SubscriberId × Subscriber)
    (entries : List (SubscriberId × Subscriber)) (id : SubscriberId) (station : StationCode) :
    watchedIn (e :: entries) id station ↔
      (e.1 = id ∧ station ∈ e.2.watched) ∨ watchedIn entries id station := by
  simp [watchedIn]

theorem not_watchedIn {entries : List (SubscriberId × Subscriber)}
    (h : id ∉ entries.map Prod.fst) (station : StationCode) : ¬ watchedIn entries id station := by
  simp only [watchedIn, List.any_eq_true, Bool.and_eq_true, decide_eq_true_eq, not_exists, not_and]
  intro e he hid
  exact absurd (hid ▸ List.mem_map_of_mem he) h

variable {entries : List (SubscriberId × Subscriber)}

theorem offerAll_eq (n : Notifier) (event : StationChanged)
    (entries : List (SubscriberId × Subscriber)) :
    ∃ subscribers outboxes stats,
      n.offerAll event entries = { n with subscribers, outboxes, stats } ∧
        stats.published = n.stats.published := by
  induction entries generalizing n with
  | nil => exact ⟨_, _, _, rfl, rfl⟩
  | cons e entries ih =>
    obtain ⟨subscribers, outboxes, stats, hfirst, hpublished⟩ := n.offer_eq event e.1 e.2
    obtain ⟨subscribers', outboxes', stats', hrest, hpublished'⟩ := ih (n.offer event e.1 e.2)
    refine ⟨subscribers', outboxes', stats', ?_, ?_⟩
    · rw [offerAll, hrest, hfirst]
    · rw [hpublished', hfirst, hpublished]

/-- The outboxes of all who watch the station receive the event. Nobody is among the entries twice,
    so nobody receives it twice. -/
theorem offerAll_outboxes (hnodup : (entries.map Prod.fst).Nodup) (n : Notifier)
    (event : StationChanged) (j : SubscriberId) :
    (n.offerAll event entries).outboxes.get? j = if watchedIn entries j event.station then
      (n.outboxes.get? j).map (·.receive n.capacity event) else n.outboxes.get? j := by
  induction entries generalizing n with
  | nil => rfl
  | cons e entries ih =>
    obtain ⟨hfresh, hnodup⟩ := List.nodup_cons.1 (List.map_cons ▸ hnodup)
    rw [offerAll, ih hnodup, offer_capacity, offer_outboxes]
    simp only [watchedIn_cons]
    by_cases hj : e.1 = j
    · have hrest : watchedIn entries j event.station = false :=
        Bool.eq_false_iff.2 (not_watchedIn (hj ▸ hfresh) event.station)
      simp only [hrest, Bool.false_eq_true, if_false, or_false]
    · simp only [hj, false_and, if_false, false_or]

/-- Those who watch the station are forgotten if their outbox is closed. -/
theorem offerAll_subscribers (n : Notifier) (event : StationChanged) (j : SubscriberId) :
    (n.offerAll event entries).subscribers.get? j =
      if watchedIn entries j event.station ∧ n.isDropped j then none
      else n.subscribers.get? j := by
  induction entries generalizing n with
  | nil => simp [offerAll, watchedIn]
  | cons e entries ih =>
    rw [offerAll, ih, offer_isDropped, offer_subscribers]
    simp only [watchedIn_cons, or_and_right]
    by_cases hrest : watchedIn entries j event.station ∧ n.isDropped j
    · rw [if_pos hrest, if_pos (.inr hrest)]
    · rw [if_neg hrest]
      simp only [hrest, or_false]

/-- The outboxes of all who watch the station are met. -/
theorem offerAll_met (ho : ∀ e ∈ entries, (n.outboxes.get? e.1).isSome) :
    (n.offerAll event entries).stats.met =
      n.stats.met + entries.countP fun e => event.station ∈ e.2.watched := by
  induction entries generalizing n with
  | nil => rfl
  | cons e entries ih =>
    obtain ⟨hfirst, hrest⟩ := List.forall_mem_cons.1 ho
    have hrest' : ∀ f ∈ entries, ((n.offer event e.1 e.2).outboxes.get? f.1).isSome := by
      intro f hf
      rw [offer_outboxes]
      split
      · rw [Option.isSome_map]
        exact hrest f hf
      · exact hrest f hf
    rw [offerAll, ih hrest', offer_met hfirst, List.countP_cons]
    simp only [decide_eq_true_eq]
    omega

end Offers

/-! ## Notifiers in use -/

/-- What holds of a notifier in use: it runs, everybody it knows has an outbox, no outbox has an id
    that is yet to be given out, and none holds more than its capacity. -/
structure Sound (n : Notifier) : Prop where
  running : n.running = true
  outbox : ∀ id, n.knows id → (n.outboxes.get? id).isSome
  fresh : ∀ id, (n.outboxes.get? id).isSome → id < n.nextId
  bounded : ∀ id, n.waiting id ≤ n.capacity

theorem sound_start (config : NotifierConfig) : (start config).Sound :=
  ⟨rfl, nofun, nofun, fun _ => Nat.zero_le _⟩

/-- An entry of the table is what is known of a subscriber. -/
theorem watchedIn_entries (n : Notifier) (id : SubscriberId) (station : StationCode) :
    watchedIn n.subscribers.entries id station = n.watches id station := by
  rw [Bool.eq_iff_iff, watchedIn, watches, List.any_eq_true, Option.any_eq_true]
  constructor
  · rintro ⟨⟨i, s⟩, he, h⟩
    obtain ⟨rfl, hw⟩ : i = id ∧ station ∈ s.watched := by simpa using h
    exact ⟨s, Table.mem_entries_iff.1 he, by simpa using hw⟩
  · rintro ⟨s, hs, hw⟩
    exact ⟨(id, s), Table.mem_entries_iff.2 hs, by simpa using hw⟩

namespace Sound

variable (h : n.Sound)

include h

theorem publish_eq (event : StationChanged) :
    ∃ subscribers outboxes stats,
      n.publish event = (true, { n with subscribers, outboxes, stats }) ∧
        stats.published = n.stats.published + 1 := by
  rw [publish, if_pos h.running]
  obtain ⟨subscribers, outboxes, stats, hall, hpublished⟩ := offerAll_eq
    { n with stats := { n.stats with published := n.stats.published + 1 } } event
    n.subscribers.entries
  exact ⟨subscribers, outboxes, stats, by rw [hall], hpublished⟩

/-- An event that is published arrives at the outboxes of all who watch the station. -/
theorem publish_outboxes (event : StationChanged) (id : SubscriberId) :
    (n.publish event).2.outboxes.get? id = if n.watches id event.station then
      (n.outboxes.get? id).map (·.receive n.capacity event) else n.outboxes.get? id := by
  have hnodup : (n.subscribers.entries.map Prod.fst).Nodup := by
    refine List.pairwise_map.2 (n.subscribers.ascending.imp fun hlt heq => ?_)
    rw [heq] at hlt
    exact Nat.lt_irrefl _ hlt
  rw [publish, if_pos h.running]
  simp only [offerAll_outboxes hnodup, watchedIn_entries]

/-- Those who watch the station of an event are forgotten if they dropped their subscription. -/
theorem publish_subscribers (event : StationChanged) (id : SubscriberId) :
    (n.publish event).2.subscribers.get? id =
      if n.watches id event.station ∧ n.isDropped id then none else n.subscribers.get? id := by
  rw [publish, if_pos h.running]
  simp only [offerAll_subscribers, watchedIn_entries]
  rfl

/-- The outboxes of all who watch the station are met. -/
theorem publish_met (event : StationChanged) :
    (n.publish event).2.stats.met = n.stats.met +
      n.subscribers.entries.countP fun e => event.station ∈ e.2.watched := by
  rw [publish, if_pos h.running]
  refine offerAll_met fun e he => h.outbox e.1 ?_
  rw [knows, Table.contains, Table.mem_entries_iff.1 he]
  rfl

end Sound

end Notifier

end RailFreight
