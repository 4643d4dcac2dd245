import RailFreight.Config
import RailFreight.Table
import RailFreight.StationCode
import RailFreight.User

/-!
# The notifier

The *notifier* passes events on to those who asked for them. An event says that the job
list of a station may have changed. A subscriber joins under a user name, is given an
id, and then watches stations; ids count up from `1`, and one user may join many times.
Each subscriber has an *outbox*, from which the holder of the subscription draws; an
outbox that is full loses the events that arrive. Dropping a subscription closes its
outbox, and the notifier forgets a subscriber when it next meets the closed outbox.
-/

namespace RailFreight

/-- The number of a subscriber. -/
abbrev SubscriberId := Nat

/-- The news that the job list of a station may have changed. -/
structure StationChanged where
  station : StationCode
  deriving DecidableEq, Repr

/-- What the notifier has done so far. -/
structure NotifierStats where
  /-- Events received. -/
  published : Nat := 0
  /-- Events put into an outbox. -/
  delivered : Nat := 0
  /-- Events lost to a full outbox. -/
  droppedFull : Nat := 0
  /-- Events lost because the notifier had no time for them. -/
  droppedTimeout : Nat := 0
  /-- Subscribers forgotten because their outbox was closed. -/
  prunedSubscribers : Nat := 0
  deriving DecidableEq, Repr, Inhabited

/-- What the notifier knows of a subscriber. -/
structure Subscriber where
  user : User
  /-- The stations watched, in order. -/
  watched : List StationCode
  deriving DecidableEq

/-- What the roster says of a subscriber. -/
structure SubscriberInfo where
  id : SubscriberId
  user : User
  stations : List StationCode
  deriving DecidableEq

/-- The events that wait for the holder of a subscription. -/
structure Outbox where
  waiting : List StationChanged
  /-- Whether the subscription has been dropped. -/
  closed : Bool
  deriving DecidableEq, Repr

/-- Why the notifier refuses a command. -/
inductive NotifierRefusal
  | emptyUsername | closed
  deriving DecidableEq, Repr

/-- What is said of a refusal. -/
def NotifierRefusal.message : NotifierRefusal → String
  | emptyUsername => "subscriber username must not be empty"
  | closed => "notifier has shut down"

/-- A notifier with the outboxes that it has given out. -/
structure Notifier where
  /-- How many events an outbox holds. -/
  capacity : Nat
  nextId : SubscriberId
  subscribers : Table SubscriberId Subscriber
  outboxes : Table SubscriberId Outbox
  stats : NotifierStats
  running : Bool
  deriving DecidableEq

namespace Notifier

/-- A running notifier that nobody has joined. -/
def start (config : NotifierConfig) : Notifier where
  capacity := config.outboxCapacity
  nextId := 1
  subscribers := Table.empty
  outboxes := Table.empty
  stats := {}
  running := true

/-- Adds a subscriber, who watches nothing yet, and answers with the id. -/
def enrol (n : Notifier) (user : User) : SubscriberId × Notifier :=
  (n.nextId, { n with
    nextId := n.nextId + 1
    subscribers := n.subscribers.insert n.nextId ⟨user, []⟩
    outboxes := n.outboxes.insert n.nextId ⟨[], false⟩ })

/-- Adds a subscriber by name. A name that is not blank uses up an id, even when the
    notifier no longer runs. -/
def join (n : Notifier) (name : String) :
    Except NotifierRefusal (SubscriberId × User) × Notifier :=
  match User.ofText? name with
  | none => (.error .emptyUsername, n)
  | some user =>
    if n.running then
      let (id, n) := n.enrol user
      (.ok (id, user), n)
    else (.error .closed, { n with nextId := n.nextId + 1 })

/-- Gives a command to the notifier, which obeys while it runs. -/
def command (n : Notifier) (obey : Notifier → Notifier) :
    Except NotifierRefusal Unit × Notifier :=
  if n.running then (.ok (), obey n) else (.error .closed, n)

/-- Lets a subscriber watch a station. -/
def subscribe (n : Notifier) (id : SubscriberId) (station : StationCode) :
    Except NotifierRefusal Unit × Notifier :=
  n.command fun n => { n with subscribers := n.subscribers.modify id fun s =>
    { s with watched := sortedUnique (station :: s.watched) } }

/-- Lets a subscriber watch a station no longer. -/
def unsubscribe (n : Notifier) (id : SubscriberId) (station : StationCode) :
    Except NotifierRefusal Unit × Notifier :=
  n.command fun n => { n with subscribers := n.subscribers.modify id fun s =>
    { s with watched := s.watched.filter (· ≠ station) } }

/-- Removes a subscriber. What waits in the outbox can still be drawn. -/
def leave (n : Notifier) (id : SubscriberId) : Except NotifierRefusal Unit × Notifier :=
  n.command fun n => { n with subscribers := n.subscribers.erase id }

/-- Closes the outbox of a subscription. -/
def drop (n : Notifier) (id : SubscriberId) : Notifier :=
  { n with outboxes := n.outboxes.modify id fun o => { o with closed := true } }

/-- Offers an event to one subscriber. -/
def offer (n : Notifier) (event : StationChanged) (id : SubscriberId) (s : Subscriber) :
    Notifier :=
  if event.station ∉ s.watched then n else
    match n.outboxes.get? id with
    | none => n
    | some o =>
      if o.closed then { n with
        subscribers := n.subscribers.erase id
        stats := { n.stats with prunedSubscribers := n.stats.prunedSubscribers + 1 } }
      else if o.waiting.length < n.capacity then { n with
        outboxes := n.outboxes.insert id { o with waiting := o.waiting ++ [event] }
        stats := { n.stats with delivered := n.stats.delivered + 1 } }
      else { n with stats := { n.stats with droppedFull := n.stats.droppedFull + 1 } }

/-- Offers an event to subscribers one after the other. -/
def offerAll (n : Notifier) (event : StationChanged) :
    List (SubscriberId × Subscriber) → Notifier
  | [] => n
  | (id, s) :: rest => (n.offer event id s).offerAll event rest

/-- Passes an event on, and answers with whether it was accepted. -/
def publish (n : Notifier) (event : StationChanged) : Bool × Notifier :=
  if n.running then
    (true, { n with stats := { n.stats with published := n.stats.published + 1 } }.offerAll event
      n.subscribers.entries)
  else (false, n)

/-- Passes events on in order. -/
def publishAll (n : Notifier) (events : List StationChanged) : Notifier :=
  events.foldl (fun n e => (n.publish e).2) n

/-- How many events wait in an outbox. -/
def waiting (n : Notifier) (id : SubscriberId) : Nat :=
  ((n.outboxes.get? id).map (·.waiting.length)).getD 0

/-- Draws everything from an outbox. -/
def drain (n : Notifier) (id : SubscriberId) : List StationChanged × Notifier :=
  (((n.outboxes.get? id).map Outbox.waiting).getD [],
    { n with outboxes := n.outboxes.modify id fun o => { o with waiting := [] } })

/-- Draws the oldest event from an outbox. -/
def next (n : Notifier) (id : SubscriberId) : Option StationChanged × Notifier :=
  ((n.outboxes.get? id).bind (·.waiting.head?),
    { n with outboxes := n.outboxes.modify id fun o => { o with waiting := o.waiting.tail } })

/-- The subscribers in the order in which they joined. -/
def roster (n : Notifier) : Except NotifierRefusal (List SubscriberInfo) :=
  if n.running then .ok (n.subscribers.entries.map fun (id, s) => ⟨id, s.user, s.watched⟩)
  else .error .closed

/-- Stops the notifier. What waits in the outboxes can still be drawn. -/
def shutdown (n : Notifier) : Notifier :=
  { n with running := false, subscribers := Table.empty }

end Notifier

end RailFreight
