import RailFreight.Scenario.Run
import RailFreight.Proofs.Listings

/-!
# The observer of a scenario

While a scenario runs, the only subscriber is the observer, who watches every station. The notifier
handles in order what it was sent, at whatever pace, and the observer draws nothing before all steps
are done. Every event that is handled finds room in the outbox or is lost, and the first ones find
room, as many as the outbox holds. Later ones find room as well if the observer has begun to draw by
then. So of the events that come through one can only say that they begin with the first and keep
the order (`Observation.Account`), unless all were handled before the observer began.

* `Relay.Proceeds`, `Relay.proceeds_sendAll`: messages are handled in the order in which they are
  sent;
* `Relay.sendAll_steady`: a notifier that keeps up has one message left at most;
* `Observation`, `Observation.handle`, `Observation.next`: what the notifier has come to, and how a
  message that is handled and an event that is drawn keep it;
* `Observation.drawUpTo`: what is drawn up to the first time that nothing is found;
* `ScenarioRun.observed_draw`: what the observer gets of the events that are sent, and what is
  counted.
-/

namespace RailFreight

/-! ## Relays -/

namespace Relay

variable {r r' r'' : Relay} {messages more : List Message}

/-- The notifier goes on to handle, in order, what is in the inbox, while messages are sent. -/
def Proceeds (r : Relay) (messages : List Message) (r' : Relay) : Prop :=
  ∃ done, r.inbox ++ messages = done ++ r'.inbox ∧
    r'.notifier = done.foldl Notifier.handle r.notifier

theorem Proceeds.trans (h : r.Proceeds messages r') (h' : r'.Proceeds more r'') :
    r.Proceeds (messages ++ more) r'' := by
  obtain ⟨done, hinbox, hnotifier⟩ := h
  obtain ⟨done', hinbox', hnotifier'⟩ := h'
  refine ⟨done ++ done', ?_, ?_⟩
  · rw [← List.append_assoc, hinbox, List.append_assoc, hinbox', List.append_assoc]
  · rw [hnotifier', hnotifier, List.foldl_append]

/-- The oldest messages are handled. -/
theorem handle_eq (r : Relay) (count : Nat) : r.handle count =
    { r with
      notifier := (r.inbox.take count).foldl Notifier.handle r.notifier
      inbox := r.inbox.drop count } := by
  induction count generalizing r with
  | zero => rfl
  | succ count ih =>
    rw [handle, ih, handleNext]
    cases hinbox : r.inbox with
    | nil => simp [hinbox]
    | cons m rest => rfl

theorem inbox_handle (r : Relay) (count : Nat) : (r.handle count).inbox = r.inbox.drop count := by
  rw [handle_eq]

theorem proceeds_handle (r : Relay) (count : Nat) : r.Proceeds [] (r.handle count) := by
  refine ⟨r.inbox.take count, ?_, ?_⟩
  · rw [inbox_handle, List.take_append_drop, List.append_nil]
  · rw [handle_eq]

theorem proceeds_turn (r : Relay) : r.Proceeds [] r.turn := r.proceeds_handle (r.pace r.turns)

theorem proceeds_send (r : Relay) (m : Message) : r.Proceeds [m] (r.send m) := by
  obtain ⟨done, hinbox, hnotifier⟩ :=
    r.proceeds_turn.trans (r.turn.proceeds_handle (r.turn.inbox.length - r.turn.room))
  refine ⟨done, ?_, hnotifier⟩
  rw [List.append_nil, List.append_nil] at hinbox
  rw [hinbox, List.append_assoc]
  rfl

/-- Messages are handled in the order in which they are sent. -/
theorem proceeds_sendAll (r : Relay) (messages : List Message) :
    r.Proceeds messages (r.sendAll messages) := by
  induction messages generalizing r with
  | nil => exact ⟨[], r.inbox.append_nil, rfl⟩
  | cons m messages ih => exact (r.proceeds_send m).trans (ih (r.send m))

theorem sendAll_append (r : Relay) (messages more : List Message) :
    r.sendAll (messages ++ more) = (r.sendAll messages).sendAll more := List.foldl_append ..

/-- A notifier that keeps up has handled all messages by the time of the next turn. -/
theorem inbox_turn_steady (hpace : r.pace = .steady) (hinbox : r.inbox.length ≤ 1) :
    r.turn.inbox = [] := by
  rw [turn, inbox_handle, hpace]
  exact List.drop_eq_nil_of_le hinbox

theorem send_steady (hpace : r.pace = .steady) (hinbox : r.inbox.length ≤ 1) (m : Message) :
    (r.send m).pace = .steady ∧ (r.send m).inbox = [m] := by
  have hturn := inbox_turn_steady hpace hinbox
  constructor
  · rw [send, handle_eq, turn, handle_eq, hpace]
  · rw [send, inbox_handle, hturn, List.drop_nil, List.nil_append]

theorem sendAll_steady (hpace : r.pace = .steady) (hinbox : r.inbox.length ≤ 1)
    (messages : List Message) :
    (r.sendAll messages).pace = .steady ∧ (r.sendAll messages).inbox.length ≤ 1 := by
  induction messages generalizing r with
  | nil => exact ⟨hpace, hinbox⟩
  | cons m messages ih =>
    obtain ⟨hpace, hinbox⟩ := send_steady hpace hinbox m
    exact ih hpace (Nat.le_of_eq (congrArg List.length hinbox))

theorem publishAll_nil (r : Relay) : r.publishAll [] = r := rfl

theorem publishAll_append (r : Relay) (events more : List StationChanged) :
    r.publishAll (events ++ more) = (r.publishAll events).publishAll more := by
  rw [publishAll, publishAll, publishAll, List.map_append, sendAll_append]

end Relay

/-! ## The observer -/

namespace ScenarioRun

variable {config : NotifierConfig} {stations codes : List StationCode} {code : StationCode}
  {waiting : List StationChanged} {event : StationChanged} {delivered lost : Nat}

/-- A notifier that only the observer has joined, after it has delivered and lost some events. -/
def observing (config : NotifierConfig) (stations : List StationCode)
    (waiting : List StationChanged) (delivered lost : Nat) : Notifier where
  capacity := config.outboxCapacity
  nextId := 2
  subscribers := Table.empty.insert 1 ⟨observer, stations⟩
  outboxes := Table.empty.insert 1 ⟨waiting, false⟩
  stats :=
    { published := delivered + lost
      delivered := delivered
      droppedFull := lost }
  running := true

/-- A notifier that has given an outbox to the observer, and does not know them yet. -/
def awaiting (config : NotifierConfig) : Notifier := (Notifier.start config).issue.2

/-- After the greeting the observer watches every station. -/
theorem foldl_handle_greeting (config : NotifierConfig) :
    (greeting 1).foldl Notifier.handle (awaiting config) =
      observing config StationCode.all [] 0 0 := by
  have hsubscribe : ∀ codes stations : List StationCode,
      (codes.map (Message.subscribe 1)).foldl Notifier.handle (observing config stations [] 0 0) =
        observing config
          (codes.foldl (fun stations code => sortedUnique (code :: stations)) stations) [] 0 0 := by
    intro codes
    induction codes with
    | nil => exact fun _ => rfl
    | cons c codes ih => exact fun stations => ih (sortedUnique (c :: stations))
  have hjoin : (awaiting config).handle (.join 1 observer) = observing config [] [] 0 0 := rfl
  have hall : StationCode.all.foldl (fun stations code => sortedUnique (code :: stations)) [] =
      StationCode.all := by
    simp only [StationCode.all, List.foldl, StationCode.sortedUnique_eq_filter]
    decide +kernel
  rw [greeting, List.foldl_cons, hjoin, hsubscribe, hall]

/-- The outbox takes an event in if there is room for it, and loses it otherwise. -/
theorem handle_publish_observing :
    (observing config StationCode.all waiting delivered lost).handle (.publish event) =
      if waiting.length < config.outboxCapacity then
        observing config StationCode.all (waiting ++ [event]) (delivered + 1) lost
      else observing config StationCode.all waiting delivered (lost + 1) := by
  have hoffer : (observing config StationCode.all waiting delivered lost).handle (.publish event) =
      Notifier.offer
        { observing config StationCode.all waiting delivered lost with
          stats := { (observing config StationCode.all waiting delivered lost).stats with
            published := delivered + lost + 1 } }
        event 1 ⟨observer, StationCode.all⟩ := rfl
  have hbox : (observing config StationCode.all waiting delivered lost).outboxes.get? 1 =
      some ⟨waiting, false⟩ := rfl
  rw [hoffer, Notifier.offer, if_neg (not_not.2 event.station.mem_all)]
  simp only [hbox, Bool.false_eq_true, if_false]
  by_cases hroom : waiting.length < config.outboxCapacity
  · have hpublished : delivered + lost + 1 = delivered + 1 + lost := by omega
    rw [if_pos hroom, hpublished]
    exact if_pos hroom
  · rw [if_neg hroom]
    exact if_neg hroom

theorem next_observing : (observing config stations waiting delivered lost).next 1 =
    (waiting.head?, observing config stations waiting.tail delivered lost) := rfl

/-- The greeting puts nothing into the outbox. -/
theorem outboxes_foldl_handle_greeting {done rest : List Message}
    (h : greeting 1 = done ++ rest) (n : Notifier) :
    (done.foldl Notifier.handle n).outboxes = n.outboxes := by
  have hquiet : ∀ m ∈ done, ∀ n : Notifier, (n.handle m).outboxes = n.outboxes := by
    intro m hm n
    have hgreeting : m ∈ greeting 1 := h ▸ List.mem_append_left rest hm
    rw [greeting, List.mem_cons, List.mem_map] at hgreeting
    rcases hgreeting with rfl | ⟨code, -, rfl⟩
    · rfl
    · rw [Notifier.handle, Notifier.subscribe, Notifier.command]
      split <;> rfl
  clear h
  induction done generalizing n with
  | nil => rfl
  | cons m done ih =>
    obtain ⟨hm, hdone⟩ := List.forall_mem_cons.1 hquiet
    rw [List.foldl_cons, ih _ hdone, hm]

end ScenarioRun

open ScenarioRun

/-- The account of the observer over events that were handled: some found room in the outbox and
    were drawn or still wait, the others were lost. -/
structure Observation.Account (room : Nat) (handled drawn waiting : List StationChanged)
    (lost : Nat) : Prop where
  /-- No event is drawn twice, and they come in the order in which they were sent. -/
  sublist : (drawn ++ waiting).Sublist handled
  length_eq : (drawn ++ waiting).length + lost = handled.length
  /-- The first events find room. -/
  take_prefix : handled.take room <+: drawn ++ waiting
  length_le : waiting.length ≤ room

/-- What a notifier has come to that was sent the greeting of the observer and some events. -/
inductive Observation (config : NotifierConfig) (events : List StationChanged) :
    (drawn waiting : List StationChanged) → Notifier → (inbox : List Message) → Prop
  /-- No event was handled yet. -/
  | greeted {done rest : List Message} (hgreeting : greeting 1 = done ++ rest) :
    Observation config events [] [] (done.foldl Notifier.handle (awaiting config))
      (rest ++ events.map .publish)
  | handled {handled rest drawn waiting : List StationChanged} {lost : Nat}
    (hevents : events = handled ++ rest)
    (account : Observation.Account config.outboxCapacity handled drawn waiting lost) :
    Observation config events drawn waiting
      (observing config StationCode.all waiting (drawn ++ waiting).length lost) (rest.map .publish)

namespace Observation

variable {config : NotifierConfig} {events handled drawn waiting : List StationChanged}
  {event : StationChanged} {n : Notifier} {inbox rest : List Message} {m : Message}
  {room lost : Nat} {r : Relay}

namespace Account

theorem nil (room : Nat) : Account room [] [] [] 0 :=
  ⟨.slnil, rfl, by rw [List.take_nil]; exact List.nil_prefix, Nat.zero_le _⟩

/-- As long as fewer events came than there is room for, none was lost. -/
theorem eq_handled (h : Account room handled drawn waiting lost) (hroom : handled.length < room) :
    drawn ++ waiting = handled := by
  have hprefix := h.take_prefix
  rw [List.take_of_length_le (Nat.le_of_lt hroom)] at hprefix
  exact h.sublist.eq_of_length_le hprefix.length_le

theorem deliver (h : Account room handled drawn waiting lost) (hroom : waiting.length < room)
    (event : StationChanged) :
    Account room (handled ++ [event]) drawn (waiting ++ [event]) lost where
  sublist := by
    rw [← List.append_assoc]
    exact h.sublist.append (.refl [event])
  length_eq := by
    have hlength := h.length_eq
    simp only [List.length_append, List.length_singleton] at hlength ⊢
    omega
  take_prefix := by
    rw [← List.append_assoc]
    rcases Nat.lt_or_ge handled.length room with hfew | hmany
    · rw [h.eq_handled hfew]
      exact List.take_prefix room _
    · rw [List.take_append_of_le_length hmany]
      exact h.take_prefix.trans (List.prefix_append ..)
  length_le := by
    rw [List.length_append, List.length_singleton]
    exact hroom

/-- An event that finds no room comes after as many as there is room for. -/
theorem lose (h : Account room handled drawn waiting lost) (hfull : room ≤ waiting.length)
    (event : StationChanged) : Account room (handled ++ [event]) drawn waiting (lost + 1) where
  sublist := h.sublist.trans (List.sublist_append_left ..)
  length_eq := by
    have hlength := h.length_eq
    simp only [List.length_append, List.length_singleton] at hlength ⊢
    omega
  take_prefix := by
    have hlength := h.length_eq
    rw [List.length_append] at hlength
    rw [List.take_append_of_le_length (by omega)]
    exact h.take_prefix
  length_le := h.length_le

theorem draw (h : Account room handled drawn (event :: waiting) lost) :
    Account room handled (drawn ++ [event]) waiting lost where
  sublist := by
    rw [List.append_assoc]
    exact h.sublist
  length_eq := by
    rw [List.append_assoc]
    exact h.length_eq
  take_prefix := by
    rw [List.append_assoc]
    exact h.take_prefix
  length_le := Nat.le_of_succ_le h.length_le

/-- Before the first draw the outbox holds the first events. -/
theorem eq_take (h : Account room handled [] waiting lost) : waiting = handled.take room := by
  refine (h.take_prefix.eq_of_length_le ?_).symm
  have hle := h.sublist.length_le
  rw [List.length_take]
  exact Nat.le_min.2 ⟨h.length_le, hle⟩

end Account

/-- An event that is handled finds room in the outbox or is lost. -/
theorem handle_publish {rest : List StationChanged} (hevents : events = handled ++ event :: rest)
    (account : Account config.outboxCapacity handled drawn waiting lost) :
    ∃ more, more.length ≤ 1 ∧ Observation config events drawn (waiting ++ more)
      ((observing config StationCode.all waiting (drawn ++ waiting).length lost).handle
        (.publish event))
      (rest.map .publish) := by
  have hsplit : events = handled ++ [event] ++ rest := by
    rw [hevents, List.append_assoc, List.singleton_append]
  rw [handle_publish_observing]
  split
  · rename_i hroom
    have hlength : (drawn ++ waiting).length + 1 = (drawn ++ (waiting ++ [event])).length := by
      simp only [List.length_append, List.length_singleton, Nat.add_assoc]
    rw [hlength]
    exact ⟨[event], Nat.le_refl _, .handled hsplit (account.deliver hroom event)⟩
  · rename_i hfull
    refine ⟨[], Nat.zero_le _, ?_⟩
    rw [List.append_nil]
    exact .handled hsplit (account.lose (Nat.le_of_not_lt hfull) event)

/-- A message that is handled brings at most one event into the outbox. -/
theorem handle (h : Observation config events drawn waiting n (m :: inbox)) :
    ∃ more, more.length ≤ 1 ∧
      Observation config events drawn (waiting ++ more) (n.handle m) inbox := by
  generalize hinbox : m :: inbox = messages at h
  cases h with
  | @greeted done rest hgreeting =>
    cases rest with
    | nil =>
      -- The greeting is over, so the message is the first event.
      have hgreeted := foldl_handle_greeting config
      rw [hgreeting, List.append_nil] at hgreeted
      obtain ⟨event, rest, rfl, rfl, rfl⟩ := List.map_eq_cons_iff.1 hinbox.symm
      have account : Account config.outboxCapacity [] [] [] 0 := .nil _
      rw [hgreeted]
      exact handle_publish rfl account
    | cons m' rest =>
      obtain ⟨rfl, rfl⟩ := List.cons.inj hinbox
      have hnext : greeting 1 = done ++ [m] ++ rest := by
        rw [hgreeting, List.append_assoc, List.singleton_append]
      have hgreeted : Observation config events [] [] _ _ := .greeted hnext
      rw [List.foldl_append] at hgreeted
      exact ⟨[], Nat.zero_le _, hgreeted⟩
  | handled hevents account =>
    obtain ⟨event, rest, rfl, rfl, rfl⟩ := List.map_eq_cons_iff.1 hinbox.symm
    exact handle_publish hevents account

/-- Each message that is handled brings at most one event into the outbox. -/
theorem foldl_handle {done : List Message}
    (h : Observation config events drawn waiting n (done ++ inbox)) :
    ∃ more, more.length ≤ done.length ∧ Observation config events drawn (waiting ++ more)
      (done.foldl Notifier.handle n) inbox := by
  induction done generalizing n waiting with
  | nil =>
    refine ⟨[], Nat.le_refl _, ?_⟩
    rw [List.append_nil]
    exact h
  | cons m done ih =>
    obtain ⟨first, hfirst, h⟩ := h.handle
    obtain ⟨more, hmore, h⟩ := ih h
    refine ⟨first ++ more, ?_, ?_⟩
    · rw [List.length_append, List.length_cons]
      omega
    · rw [← List.append_assoc]
      exact h

theorem turn (h : Observation config events drawn waiting r.notifier r.inbox) :
    ∃ more, more.length + r.turn.inbox.length ≤ r.inbox.length ∧
      Observation config events drawn (waiting ++ more) r.turn.notifier r.turn.inbox := by
  obtain ⟨done, hinbox, hnotifier⟩ := r.proceeds_turn
  rw [List.append_nil] at hinbox
  rw [hinbox] at h
  obtain ⟨more, hmore, h⟩ := h.foldl_handle
  refine ⟨more, ?_, hnotifier ▸ h⟩
  rw [hinbox, List.length_append]
  exact Nat.add_le_add_right hmore _

theorem get?_outboxes (h : Observation config events drawn waiting n inbox) :
    n.outboxes.get? 1 = some ⟨waiting, false⟩ := by
  cases h with
  | greeted hgreeting =>
    rw [outboxes_foldl_handle_greeting hgreeting]
    rfl
  | handled => rfl

/-- An event that is drawn is the one that has waited longest. -/
theorem next (h : Observation config events drawn (event :: waiting) n inbox) :
    Observation config events (drawn ++ [event]) waiting (n.next 1).2 inbox := by
  cases h with
  | handled hevents account =>
    have hdrawn : drawn ++ event :: waiting = drawn ++ [event] ++ waiting := List.append_cons ..
    rw [next_observing, hdrawn]
    exact .handled hevents account.draw

/-- Draws bring out what waits in the outbox, and what comes into it meanwhile, up to the first time
    that nothing waits there. -/
theorem drawUpTo {count : Nat} (h : Observation config events drawn waiting r.notifier r.inbox)
    (hcount : waiting.length + r.inbox.length < count) :
    ∃ more last, r.drawUpTo 1 count = (waiting ++ more, last) ∧
      more.length + last.inbox.length ≤ r.inbox.length ∧
      Observation config events (drawn ++ (waiting ++ more)) [] last.notifier last.inbox := by
  induction count generalizing r drawn waiting with
  | zero => exact absurd hcount (Nat.not_lt_zero _)
  | succ count ih =>
    cases waiting with
    | nil =>
      have hnext : r.notifier.next 1 = (none, (r.notifier.next 1).2) := by
        rw [Notifier.next, h.get?_outboxes]
        rfl
      rw [Relay.drawUpTo, hnext]
      refine ⟨[], r, rfl, Nat.le_of_eq (Nat.zero_add _), ?_⟩
      rw [List.append_nil, List.append_nil]
      exact h
    | cons event rest =>
      have hnext : r.notifier.next 1 = (some event, (r.notifier.next 1).2) := by
        rw [Notifier.next, h.get?_outboxes]
        rfl
      have hdrawn := h.next
      generalize (r.notifier.next 1).2 = n at hnext hdrawn
      obtain ⟨first, hfirst, hturn⟩ : ∃ first : List StationChanged,
          first.length + { r with notifier := n }.turn.inbox.length ≤ r.inbox.length ∧ _ :=
        turn (r := { r with notifier := n }) hdrawn
      rw [List.length_cons] at hcount
      have hleft : (rest ++ first).length + { r with notifier := n }.turn.inbox.length < count := by
        rw [List.length_append]
        omega
      obtain ⟨more, last, hprinted, hmore, hlast⟩ := ih hturn hleft
      refine ⟨first ++ more, last, ?_, ?_, ?_⟩
      · rw [Relay.drawUpTo, hnext]
        simp only [hprinted, List.append_assoc, List.cons_append]
      · rw [List.length_append]
        omega
      · rw [List.append_assoc, List.append_assoc, List.singleton_append] at hlast
        exact hlast

/-- When nothing but events is left to be handled, there is an account over the others. -/
theorem exists_account (h : Observation config events drawn waiting n inbox)
    (hinbox : inbox.length ≤ events.length) :
    ∃ handled rest lost, events = handled ++ rest ∧ inbox = rest.map .publish ∧
      n = observing config StationCode.all waiting (drawn ++ waiting).length lost ∧
      Account config.outboxCapacity handled drawn waiting lost := by
  cases h with
  | @greeted done rest hgreeting =>
    rw [List.length_append, List.length_map] at hinbox
    obtain rfl : rest = [] := List.length_eq_zero_iff.1 (by omega)
    have hgreeted := foldl_handle_greeting config
    rw [hgreeting, List.append_nil] at hgreeted
    exact ⟨[], events, 0, rfl, rfl, hgreeted, .nil _⟩
  | @handled handled rest _ _ lost hevents account =>
    exact ⟨handled, rest, lost, hevents, rfl, rfl, account⟩

/-- When all is handled, there is an account over all events. -/
theorem exists_account_of_nil (h : Observation config events drawn waiting n []) :
    ∃ lost, n = observing config StationCode.all waiting (drawn ++ waiting).length lost ∧
      Account config.outboxCapacity events drawn waiting lost := by
  obtain ⟨handled, rest, lost, rfl, hrest, hn, account⟩ := h.exists_account (Nat.zero_le _)
  obtain rfl := List.map_eq_nil_iff.1 hrest.symm
  exact ⟨lost, hn, by rwa [List.append_nil]⟩

/-- Before the first draw, the events that were handled wait as far as there is room for them. -/
theorem before_draws (h : Observation config events [] waiting n inbox)
    (hinbox : inbox.length ≤ events.length) :
    waiting = (events.take (events.length - inbox.length)).take config.outboxCapacity ∧
    n = observing config StationCode.all waiting waiting.length
      (events.length - inbox.length - waiting.length) := by
  obtain ⟨handled, rest, lost, rfl, rfl, hn, account⟩ := h.exists_account hinbox
  have hcount : (handled ++ rest).length - (rest.map Message.publish).length = handled.length := by
    rw [List.length_append, List.length_map, Nat.add_sub_cancel]
  have hlost : lost = handled.length - waiting.length := by
    rw [← account.length_eq]
    exact (Nat.add_sub_cancel_left ..).symm
  rw [hcount, List.take_left, ← hlost]
  exact ⟨account.eq_take, hn⟩

/-- What is handled before the notifier stops may still come into the outbox, and is counted. -/
theorem shutdown (h : Observation config events drawn [] r.notifier r.inbox) :
    ∃ delivered, r.shutdown.stats = {
        published := events.length
        delivered := delivered.length
        droppedFull := events.length - delivered.length } ∧
      drawn <+: delivered ∧ delivered.Sublist events ∧
      events.take config.outboxCapacity <+: delivered ∧ (r.inbox = [] → drawn = delivered) := by
  have hhandled : r.shutdown.stats = (r.inbox.foldl Notifier.handle r.notifier).stats := by
    rw [Relay.shutdown, Relay.handle_eq, List.take_length]
    rfl
  rw [← List.append_nil r.inbox] at h
  obtain ⟨more, hmore, h⟩ := h.foldl_handle
  rw [List.nil_append] at h
  obtain ⟨lost, hn, account⟩ := h.exists_account_of_nil
  have hlength := account.length_eq
  refine ⟨drawn ++ more, ?_, List.prefix_append .., account.sublist, account.take_prefix,
    fun hinbox => ?_⟩
  · rw [hhandled, hn, ← hlength, Nat.add_sub_cancel_left]
    rfl
  · rw [hinbox, List.length_nil] at hmore
    rw [List.length_eq_zero_iff.1 (Nat.le_zero.1 hmore), List.append_nil]

end Observation

namespace ScenarioRun

/-- If the notifier keeps up, the observer finds that it has handled everything. -/
theorem inbox_turn_observed_steady (config : NotifierConfig) (events : List StationChanged) :
    ((observed .steady config).publishAll events).turn.inbox = [] := by
  have hstart : (Relay.start .steady config).inbox.length ≤ 1 := Nat.zero_le 1
  obtain ⟨hpace, hinbox⟩ := Relay.sendAll_steady (r := { Relay.start .steady config with
    notifier := awaiting config }) rfl hstart (greeting (observerId config))
  obtain ⟨hpace, hinbox⟩ := Relay.sendAll_steady hpace hinbox (events.map .publish)
  exact Relay.inbox_turn_steady hpace hinbox

theorem exists_observation (pace : Pace) (config : NotifierConfig)
    (events : List StationChanged) :
    ∃ waiting, Observation config events [] waiting
      ((observed pace config).publishAll events).notifier
      ((observed pace config).publishAll events).inbox := by
  have hsent : (observed pace config).publishAll events =
      { Relay.start pace config with notifier := awaiting config }.sendAll
        (greeting 1 ++ events.map Message.publish) := by
    rw [Relay.sendAll_append]
    rfl
  obtain ⟨done, hinbox, hnotifier⟩ := Relay.proceeds_sendAll
    { Relay.start pace config with notifier := awaiting config }
    (greeting 1 ++ events.map Message.publish)
  rw [← hsent] at hinbox hnotifier
  have hstart : Observation config events [] [] (awaiting config)
      (greeting 1 ++ events.map Message.publish) := .greeted (List.nil_append _).symm
  obtain ⟨more, -, h⟩ := (hinbox ▸ hstart).foldl_handle
  exact ⟨more, hnotifier ▸ h⟩

/-- The observer draws the events that were put into the outbox, but for those that came there after
    the observer gave up. All events are counted, as put into the outbox or lost, and the first ones
    are put there in any case, as many as it has room for. No others are if all events were handled
    by the time the observer first looks. -/
theorem observed_draw (pace : Pace) (config : NotifierConfig) (events : List StationChanged)
    {r : Relay} (hr : r = (observed pace config).publishAll events) :
    ∃ printed delivered last, r.drawAll (observerId config) = (printed, last) ∧
      last.shutdown.stats = {
        published := events.length
        delivered := delivered.length
        droppedFull := events.length - delivered.length } ∧
      printed <+: delivered ∧ delivered.Sublist events ∧
      events.take config.outboxCapacity <+: delivered ∧
      (last.inbox = [] → printed = delivered) ∧
      (r.turn.inbox = [] → printed = delivered ∧
        delivered = events.take config.outboxCapacity) := by
  obtain ⟨waiting, h⟩ := exists_observation pace config events
  rw [← hr] at h
  obtain ⟨first, -, hturn⟩ := h.turn
  generalize waiting ++ first = waiting at hturn
  have hbound : waiting.length + r.turn.inbox.length <
      r.turn.inbox.length + r.turn.notifier.waiting 1 + 1 := by
    rw [Notifier.waiting, hturn.get?_outboxes, Nat.add_comm]
    exact Nat.lt_succ_self _
  obtain ⟨more, last, hdraw, hmore, hlast⟩ := hturn.drawUpTo hbound
  obtain ⟨delivered, hstats, hprinted, hsublist, hfirst, hend⟩ := hlast.shutdown
  refine ⟨_, delivered, last, hdraw, hstats, hprinted, hsublist, hfirst, hend, fun hinbox => ?_⟩
  rw [hinbox, List.length_nil] at hmore
  rw [hinbox] at hturn
  have hnone : more = [] ∧ last.inbox = [] := by
    simpa using hmore
  have hall := hend hnone.2
  rw [hnone.1, List.append_nil] at hall ⊢
  obtain ⟨hwaiting, -⟩ := hturn.before_draws (Nat.zero_le _)
  rw [List.length_nil, Nat.sub_zero, List.take_length] at hwaiting
  exact ⟨hall, hall ▸ hwaiting⟩

end ScenarioRun

end RailFreight
