import RailFreight.Notifier

/-!
# The relay

A program does not wait for the notifier. What it says goes into an *inbox*, and the notifier
handles the messages there in order, but in its own time, while the program goes on. The program
is held up only when the inbox is full. The outbox of a subscriber is filled by the one and drawn
from by the other, so what is lost to a full outbox depends on how far behind the notifier is.

The program takes a *turn* whenever it sends a message or asks an outbox for an event. How the two
interleave is told by a *pace*: how many messages the notifier handles before each turn. What holds
for every pace holds however the two run side by side. What is left out is time: no message is given
up because the inbox was full for too long, and at an empty outbox an event may be waited for in
vain however close it is.

* `Notifier.enrol_eq`: whoever joins a notifier that has nothing else to do is known at once.
-/

namespace RailFreight

/-- What is said to the notifier. -/
inductive Message
  /-- There is a new subscriber, whose id and outbox have been given out. -/
  | join (id : SubscriberId) (user : User)
  | subscribe (id : SubscriberId) (station : StationCode)
  | publish (event : StationChanged)
  deriving DecidableEq

namespace Notifier

/-- Gives out an id and its outbox. The notifier does not know the subscriber yet. -/
def issue (n : Notifier) : SubscriberId × Notifier :=
  (n.nextId, { n with
    nextId := n.nextId + 1
    outboxes := n.outboxes.insert n.nextId ⟨[], false⟩ })

/-- Handles a message. -/
def handle (n : Notifier) : Message → Notifier
  | .join id user => { n with subscribers := n.subscribers.insert id ⟨user, []⟩ }
  | .subscribe id station => (n.subscribe id station).2
  | .publish event => (n.publish event).2

theorem enrol_eq (n : Notifier) (user : User) :
    n.enrol user = (n.issue.1, n.issue.2.handle (.join n.issue.1 user)) := rfl

end Notifier

/-- How many messages the notifier handles before each turn of the program. -/
abbrev Pace := Nat → Nat

/-- The notifier keeps up: it handles each message before the next one is sent. -/
def Pace.steady : Pace := fun _ => 1

/-- A notifier at work, with what it was told and has not handled yet. -/
structure Relay where
  notifier : Notifier
  /-- The messages, oldest first. The notifier may have taken the first one out already. -/
  inbox : List Message
  /-- How many messages may wait to be taken out. -/
  room : Nat
  pace : Pace
  /-- How many turns the program has taken. -/
  turns : Nat

namespace Relay

/-- A relay to a new notifier. -/
def start (pace : Pace) (config : NotifierConfig) : Relay where
  notifier := Notifier.start config
  inbox := []
  room := config.inboxCapacity
  pace := pace
  turns := 0

/-- The notifier handles the oldest message. -/
def handleNext (r : Relay) : Relay :=
  match r.inbox with
  | [] => r
  | m :: rest => { r with notifier := r.notifier.handle m, inbox := rest }

/-- The notifier handles some messages, or all if there are not so many. -/
def handle (r : Relay) : Nat → Relay
  | 0 => r
  | count + 1 => r.handleNext.handle count

/-- The program takes a turn, before which the notifier handles what it does at its pace. -/
def turn (r : Relay) : Relay := { r.handle (r.pace r.turns) with turns := r.turns + 1 }

/-- Sends a message, once there is room for it. -/
def send (r : Relay) (m : Message) : Relay :=
  let r := r.turn
  -- One more message than there is room for is left if the notifier has taken one out.
  let r := r.handle (r.inbox.length - r.room)
  { r with inbox := r.inbox ++ [m] }

/-- Sends messages in order. -/
def sendAll (r : Relay) (messages : List Message) : Relay := messages.foldl send r

/-- Sends events in order. -/
def publishAll (r : Relay) (events : List StationChanged) : Relay :=
  r.sendAll (events.map .publish)

/-- Draws events from an outbox until none is found there, with a turn before each draw but the
    first, or until `count` draws were made. -/
def drawUpTo (r : Relay) (id : SubscriberId) : Nat → List StationChanged × Relay
  | 0 => ([], r)
  | count + 1 =>
    match r.notifier.next id with
    | (none, _) => ([], r)
    | (some event, n) =>
      let (events, r) := { r with notifier := n }.turn.drawUpTo id count
      (event :: events, r)

/-- Draws events from an outbox until none is found there. No more can come than wait in the outbox
    and in the inbox, so this is so after one more draw at the latest. -/
def drawAll (r : Relay) (id : SubscriberId) : List StationChanged × Relay :=
  let r := r.turn
  r.drawUpTo id (r.inbox.length + r.notifier.waiting id + 1)

/-- The notifier after it has handled all messages and stopped. -/
def shutdown (r : Relay) : Notifier := (r.handle r.inbox.length).notifier.shutdown

end Relay

end RailFreight
