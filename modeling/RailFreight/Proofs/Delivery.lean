import RailFreight.Proofs.Session
import Mathlib.Algebra.GroupWithZero.Nat

/-!
# Delivery and accounting

In a session with the notifier nothing is lost, doubled or put out of order but what is counted.
The holder of a subscription gets the events that arrived while they watched the station and had
room, in the order in which they arrived; what they have not drawn yet waits in their outbox. Every
outbox that an event meets is counted as one of three: the event is put in, or it is lost for want
of room, or the subscription turns out to be dropped, and the subscriber is forgotten.

What a session comes to is told as an account between two states of the notifier (`Accounted`).
Accounts of one exchange each add up to that of a whole session.

* `Notifier.Exchange.drawn`, `Notifier.Exchange.arrived`: what goes out of an outbox and into it;
* `Notifier.Accounted.trans`: accounts add up;
* `Notifier.Sound.accounted`: every session has its account;
* `Notifier.Sound.exists_roster`, `Notifier.not_knows_again`: who is on the roster, and who never is
  again.
-/

namespace RailFreight.Notifier

variable {n n' : Notifier} {id : SubscriberId} {c : Command} {e : Exchange} {trace : List Exchange}

/-! ## Exchanges -/

namespace Exchange

/-- The events that the holder of the subscription gets. -/
def drawn (e : Exchange) (id : SubscriberId) : List StationChanged :=
  match e.command, e.answer with
  | .drain i, .drained events => if i = id then events else []
  | .next i, .drew event => if i = id then event.toList else []
  | _, _ => []

/-- The event that arrives for the subscriber: one that is published while the notifier knows them
    to watch the station, and fewer events wait for them than the outbox holds. -/
def arrived (e : Exchange) (id : SubscriberId) : List StationChanged :=
  match e.command with
  | .publish event =>
    if e.before.watches id event.station && e.before.waiting id < e.before.capacity then [event]
    else []
  | _ => []

/-- Whether an event is accepted. -/
def accepted (e : Exchange) : Bool :=
  match e.answer with
  | .published accepted => accepted
  | _ => false

/-- How many subscribers the notifier knows to watch the station of the event that is published. -/
def watchers (e : Exchange) : Nat :=
  match e.command with
  | .publish event => e.before.subscribers.entries.countP fun s => event.station ∈ s.2.watched
  | _ => 0

/-- Nothing is published. -/
structure Quiet (e : Exchange) : Prop where
  arrived_eq : ∀ id, e.arrived id = []
  accepted_eq : e.accepted = false
  watchers_eq : e.watchers = 0

end Exchange

/-! ## Accounts -/

/-- How the notifier changes with the exchanges. -/
structure Accounted (n : Notifier) (trace : List Exchange) (n' : Notifier) : Prop where
  capacity_eq : n'.capacity = n.capacity
  nextId_le : n.nextId ≤ n'.nextId
  /-- While the subscription is not dropped, what is drawn and what waits in the end are what waited
      and what arrived. -/
  delivered : ∀ id, n'.isDropped id = false → n.isDropped id = false ∧
    trace.flatMap (·.drawn id) ++ n'.pending id = n.pending id ++ trace.flatMap (·.arrived id)
  published_eq : n'.stats.published = n.stats.published + trace.countP Exchange.accepted
  met_eq : n'.stats.met = n.stats.met + (trace.map Exchange.watchers).sum
  /-- Only ids that were yet to be given out become known. -/
  known : ∀ id, n'.knows id → n.knows id ∨ n.nextId ≤ id

namespace Accounted

theorem refl (n : Notifier) : n.Accounted [] n where
  capacity_eq := rfl
  nextId_le := Nat.le_refl _
  delivered _ h := ⟨h, (List.append_nil _).symm⟩
  published_eq := rfl
  met_eq := rfl
  known _ h := .inl h

/-- Accounts add up. -/
theorem trans {n'' : Notifier} {trace' : List Exchange} (h : n.Accounted trace n')
    (h' : n'.Accounted trace' n'') : n.Accounted (trace ++ trace') n'' where
  capacity_eq := h'.capacity_eq.trans h.capacity_eq
  nextId_le := Nat.le_trans h.nextId_le h'.nextId_le
  delivered id ho := by
    obtain ⟨ho, hrest⟩ := h'.delivered id ho
    obtain ⟨ho, hfirst⟩ := h.delivered id ho
    refine ⟨ho, ?_⟩
    rw [List.flatMap_append, List.flatMap_append, List.append_assoc, hrest, ← List.append_assoc,
      hfirst, List.append_assoc]
  published_eq := by rw [h'.published_eq, h.published_eq, List.countP_append, Nat.add_assoc]
  met_eq := by rw [h'.met_eq, h.met_eq, List.map_append, List.sum_append, Nat.add_assoc]
  known id hk := by
    rcases h'.known id hk with hk | hk
    · exact h.known id hk
    · exact .inr (Nat.le_trans h.nextId_le hk)

end Accounted

/-! ## Single commands -/

theorem get?_withOutboxes (n : Notifier) (i id : SubscriberId) (f : Outbox → Outbox) :
    ({ n with outboxes := n.outboxes.modify i f } : Notifier).outboxes.get? id =
      if i = id then (n.outboxes.get? id).map f else n.outboxes.get? id :=
  Table.get?_modify ..

/-- A change in one outbox leaves it there. -/
theorem isSome_modify_outboxes (n : Notifier) (i id : SubscriberId) (f : Outbox → Outbox) :
    ((n.outboxes.modify i f).get? id).isSome = (n.outboxes.get? id).isSome := by
  rw [Table.get?_modify]
  split
  · exact Option.isSome_map
  · rfl

/-- Who watches a station is known. -/
theorem knows_of_watches {station : StationCode} (hw : n.watches id station) : n.knows id := by
  obtain ⟨s, hs, -⟩ := (Option.any_eq_true _ _).1 hw
  rw [knows, Table.contains, hs]
  rfl

theorem contains_modify_iff {i : SubscriberId} {f : Subscriber → Subscriber} :
    (n.subscribers.modify i f).contains id ↔ n.knows id := by
  rw [knows, Table.contains, Table.contains, Table.get?_modify]
  split <;> simp

theorem contains_erase_iff {i : SubscriberId} :
    (n.subscribers.erase i).contains id ↔ i ≠ id ∧ n.knows id := by
  rw [knows, Table.contains, Table.contains, Table.get?_erase]
  split
  · rename_i hi
    exact iff_of_false Bool.false_ne_true fun h => h.1 hi
  · rename_i hi
    exact ⟨fun h => ⟨hi, h⟩, fun h => h.2⟩

namespace Sound

variable (h : n.Sound)

include h

theorem command_eq (obey : Notifier → Notifier) : n.command obey = (.ok (), obey n) :=
  if_pos h.running

/-- Fewer subscribers, or the same with other stations. -/
theorem withSubscribers {subscribers : Table SubscriberId Subscriber}
    (hsub : ∀ id, subscribers.contains id → n.knows id) :
    ({ n with subscribers } : Notifier).Sound :=
  ⟨h.running, fun id hk => h.outbox id (hsub id hk), h.fresh, h.bounded⟩

/-- Fewer events in an outbox, or a closed one. -/
theorem withOutboxes (i : SubscriberId) {f : Outbox → Outbox}
    (hf : ∀ o, (f o).waiting.length ≤ o.waiting.length) :
    ({ n with outboxes := n.outboxes.modify i f } : Notifier).Sound := by
  refine ⟨h.running, fun id hk => ?_, fun id ho => ?_, fun id => ?_⟩
  · exact (n.isSome_modify_outboxes i id f).trans (h.outbox id hk)
  · exact h.fresh id (n.isSome_modify_outboxes i id f ▸ ho)
  · refine Nat.le_trans ?_ (h.bounded id)
    rw [waiting, waiting, get?_withOutboxes]
    split
    · cases n.outboxes.get? id with
      | none => exact Nat.le_refl _
      | some o => exact hf o
    · exact Nat.le_refl _

end Sound

/-- An account of an exchange that publishes nothing: what is drawn was waiting. -/
theorem Exchange.Quiet.accounted (he : e.Quiet) (hcapacity : n'.capacity = n.capacity)
    (hnext : n.nextId ≤ n'.nextId) (hstats : n'.stats = n.stats)
    (hdelivered : ∀ id, n'.isDropped id = false → n.isDropped id = false ∧
      e.drawn id ++ n'.pending id = n.pending id)
    (hknown : ∀ id, n'.knows id → n.knows id ∨ n.nextId ≤ id) : n.Accounted [e] n' where
  capacity_eq := hcapacity
  nextId_le := hnext
  delivered id ho := by
    rw [List.flatMap_singleton, List.flatMap_singleton, he.arrived_eq, List.append_nil]
    exact hdelivered id ho
  published_eq := by
    rw [hstats, List.countP_singleton, he.accepted_eq]
    rfl
  met_eq := by
    rw [hstats, List.map_singleton, List.sum_singleton, he.watchers_eq]
    rfl
  known := hknown

/-- An account of a change in who is known and what they watch. -/
theorem accounted_withSubscribers {subscribers : Table SubscriberId Subscriber} (he : e.Quiet)
    (hdrawn : ∀ id, e.drawn id = []) (hsub : ∀ id, subscribers.contains id → n.knows id) :
    n.Accounted [e] { n with subscribers } := by
  refine he.accounted rfl (Nat.le_refl _) rfl (fun id ho => ⟨ho, ?_⟩)
    (fun id hk => .inl (hsub id hk))
  rw [hdrawn]
  rfl

/-- An account of a change in one outbox: what is drawn is missing there. -/
theorem accounted_withOutboxes (i : SubscriberId) {f : Outbox → Outbox} (he : e.Quiet)
    (hclosed : ∀ o, o.closed → (f o).closed)
    (hself : ∀ o, n.outboxes.get? i = some o → (f o).closed = false →
      e.drawn i ++ (f o).waiting = o.waiting)
    (hnone : n.outboxes.get? i = none → e.drawn i = [])
    (hothers : ∀ id, i ≠ id → e.drawn id = []) :
    n.Accounted [e] { n with outboxes := n.outboxes.modify i f } := by
  refine he.accounted rfl (Nat.le_refl _) rfl (fun id ho => ?_) (fun _ => .inl)
  rw [isDropped, get?_withOutboxes] at ho
  rw [isDropped, pending, pending, get?_withOutboxes]
  split at ho
  · rename_i hi
    subst hi
    rw [if_pos rfl]
    cases hbox : n.outboxes.get? i with
    | none => exact ⟨rfl, by rw [hnone hbox]; rfl⟩
    | some o =>
      rw [hbox] at ho
      refine ⟨Bool.eq_false_iff.2 fun hwas => ?_, hself o hbox ho⟩
      exact Bool.eq_false_iff.1 ho (hclosed o hwas)
  · rename_i hi
    rw [if_neg hi, hothers id hi]
    exact ⟨ho, rfl⟩

theorem enrol_outboxes (n : Notifier) (user : User) (id : SubscriberId) :
    (n.enrol user).2.outboxes.get? id =
      if n.nextId = id then some ⟨[], false⟩ else n.outboxes.get? id :=
  Table.get?_insert ..

theorem enrol_subscribers (n : Notifier) (user : User) (id : SubscriberId) :
    (n.enrol user).2.subscribers.get? id =
      if n.nextId = id then some ⟨user, []⟩ else n.subscribers.get? id :=
  Table.get?_insert ..

theorem enrol_knows_iff {user : User} :
    (n.enrol user).2.knows id ↔ n.nextId = id ∨ n.knows id := by
  rw [knows, knows, Table.contains, Table.contains, enrol_subscribers]
  split
  · rename_i hid
    exact iff_of_true rfl (.inl hid)
  · rename_i hid
    exact (or_iff_right hid).symm

namespace Sound

variable (h : n.Sound)

include h

/-- Whoever joins gets an id of their own, and an empty outbox. -/
theorem enrol_sound (user : User) : (n.enrol user).2.Sound := by
  refine ⟨h.running, fun id hk => ?_, fun id ho => ?_, fun id => ?_⟩
  · rw [enrol_outboxes]
    split
    · rfl
    · rename_i hid
      exact h.outbox id ((enrol_knows_iff.1 hk).resolve_left hid)
  · show id < n.nextId + 1
    rw [enrol_outboxes] at ho
    split at ho
    · rename_i hid
      rw [← hid]
      exact Nat.lt_succ_self _
    · exact Nat.lt_succ_of_lt (h.fresh id ho)
  · show _ ≤ n.capacity
    rw [waiting, enrol_outboxes]
    split
    · exact Nat.zero_le _
    · exact h.bounded id

/-- An id that is yet to be given out has no outbox. -/
theorem outbox_eq_none (hid : n.nextId ≤ id) : n.outboxes.get? id = none := by
  by_contra hsome
  exact Nat.not_lt.2 hid (h.fresh id (Option.isSome_iff_ne_none.2 hsome))

theorem enrol_accounted (user : User) (he : e.Quiet) (hdrawn : ∀ id, e.drawn id = []) :
    n.Accounted [e] (n.enrol user).2 := by
  have hnew : n.outboxes.get? n.nextId = none := h.outbox_eq_none (Nat.le_refl _)
  refine he.accounted rfl (Nat.le_succ _) rfl (fun id ho => ?_) (fun id hk => ?_)
  · rw [hdrawn, List.nil_append]
    rw [isDropped, enrol_outboxes] at ho
    rw [isDropped, pending, pending, enrol_outboxes]
    split
    · rename_i hid
      rw [← hid, hnew]
      exact ⟨rfl, rfl⟩
    · rename_i hid
      rw [if_neg hid] at ho
      exact ⟨ho, rfl⟩
  · exact (enrol_knows_iff.1 hk).symm.imp_right Nat.le_of_eq

/-- What waits after a publication is what waited, and the event if it arrived. -/
theorem publish_pending (event : StationChanged) {id : SubscriberId}
    (ho : n.isDropped id = false) :
    (n.publish event).2.pending id = n.pending id ++
      if n.watches id event.station && n.waiting id < n.capacity then [event] else [] := by
  rw [pending, h.publish_outboxes, pending, waiting]
  by_cases hw : n.watches id event.station
  · obtain ⟨o, hbox⟩ := Option.isSome_iff_exists.1 (h.outbox id (knows_of_watches hw))
    rw [isDropped, hbox] at ho
    have hopen : o.closed = false := ho
    simp only [hw, hbox, if_true, Option.map_some, Option.getD_some, Outbox.receive, hopen,
      Bool.not_false, Bool.true_and, decide_eq_true_eq]
    split <;> simp
  · simp [hw]

theorem publish_isDropped (event : StationChanged) (id : SubscriberId) :
    (n.publish event).2.isDropped id = n.isDropped id := by
  rw [isDropped, isDropped, h.publish_outboxes]
  split
  · cases n.outboxes.get? id with
    | none => rfl
    | some o => exact o.receive_closed ..
  · rfl

/-- Nobody becomes known by a publication. -/
theorem knows_of_publish {event : StationChanged} (hk : (n.publish event).2.knows id) :
    n.knows id := by
  rw [knows, Table.contains, h.publish_subscribers] at hk
  split at hk
  · exact absurd hk Bool.false_ne_true
  · exact hk

theorem publish_isSome (event : StationChanged) (id : SubscriberId) :
    ((n.publish event).2.outboxes.get? id).isSome = (n.outboxes.get? id).isSome := by
  rw [h.publish_outboxes]
  split
  · exact Option.isSome_map
  · rfl

theorem publish_waiting_le (event : StationChanged) (id : SubscriberId) :
    (n.publish event).2.waiting id ≤ n.capacity := by
  have hbounded := h.bounded id
  rw [waiting] at hbounded ⊢
  rw [h.publish_outboxes]
  split
  · cases hid : n.outboxes.get? id with
    | none => exact Nat.zero_le _
    | some o =>
      rw [hid] at hbounded
      exact o.length_receive_le hbounded event
  · exact hbounded

theorem publish_sound (event : StationChanged) : (n.publish event).2.Sound := by
  obtain ⟨subscribers, outboxes, stats, heq, -⟩ := h.publish_eq event
  refine ⟨?_, fun id hk => ?_, fun id ho => ?_, fun id => ?_⟩
  · rw [heq]
    exact h.running
  · rw [h.publish_isSome]
    exact h.outbox id (h.knows_of_publish hk)
  · rw [h.publish_isSome] at ho
    rw [heq]
    exact h.fresh id ho
  · have hle := h.publish_waiting_le event id
    rw [heq] at hle ⊢
    exact hle

theorem publish_accounted (event : StationChanged) :
    n.Accounted [⟨n, .publish event, .published (n.publish event).1⟩] (n.publish event).2 := by
  obtain ⟨subscribers, outboxes, stats, heq, hpublished⟩ := h.publish_eq event
  refine ⟨?_, ?_, fun id ho => ?_, ?_, h.publish_met event,
    fun id hk => .inl (h.knows_of_publish hk)⟩
  · rw [heq]
  · exact Nat.le_of_eq (by rw [heq])
  · rw [h.publish_isDropped] at ho
    rw [List.flatMap_singleton, List.flatMap_singleton]
    exact ⟨ho, h.publish_pending event ho⟩
  · rw [heq]
    exact hpublished

/-- Every command has its account, and leaves the notifier sound. -/
theorem step_accounted (c : Command) :
    n.Accounted [⟨n, c, (n.step c).1⟩] (n.step c).2 ∧ (n.step c).2.Sound := by
  have hchanged : ∀ {e : Exchange} {subscribers : Table SubscriberId Subscriber}, e.Quiet →
      (∀ id, e.drawn id = []) → (∀ id, subscribers.contains id → n.knows id) →
      n.Accounted [e] { n with subscribers } ∧ ({ n with subscribers } : Notifier).Sound :=
    fun he hdrawn hsub => ⟨accounted_withSubscribers he hdrawn hsub, h.withSubscribers hsub⟩
  cases c with
  | join name =>
    simp only [step, join]
    cases User.ofText? name with
    | none => exact hchanged ⟨fun _ => rfl, rfl, rfl⟩ (fun _ => rfl) fun _ hk => hk
    | some user =>
      simp only [if_pos h.running]
      exact ⟨h.enrol_accounted user ⟨fun _ => rfl, rfl, rfl⟩ fun _ => rfl, h.enrol_sound user⟩
  | subscribe id station =>
    simp only [step, subscribe, h.command_eq]
    exact hchanged ⟨fun _ => rfl, rfl, rfl⟩ (fun _ => rfl) fun _ => contains_modify_iff.1
  | unsubscribe id station =>
    simp only [step, unsubscribe, h.command_eq]
    exact hchanged ⟨fun _ => rfl, rfl, rfl⟩ (fun _ => rfl) fun _ => contains_modify_iff.1
  | leave id =>
    simp only [step, leave, h.command_eq]
    exact hchanged ⟨fun _ => rfl, rfl, rfl⟩ (fun _ => rfl) fun _ hk => (contains_erase_iff.1 hk).2
  | publish event => exact ⟨h.publish_accounted event, h.publish_sound event⟩
  | drop id =>
    simp only [step, drop]
    exact ⟨accounted_withOutboxes id ⟨fun _ => rfl, rfl, rfl⟩ (fun _ _ => rfl)
      (fun _ _ ho => absurd ho.symm Bool.false_ne_true) (fun _ => rfl) (fun _ _ => rfl),
      h.withOutboxes id fun _ => Nat.le_refl _⟩
  | drain id =>
    simp only [step, drain]
    refine ⟨accounted_withOutboxes id ⟨fun _ => rfl, rfl, rfl⟩ (fun _ hc => hc) (fun o ho _ => ?_)
      (fun ho => ?_) (fun j hj => if_neg hj), h.withOutboxes id fun _ => Nat.zero_le _⟩
    · simp [Exchange.drawn, ho]
    · simp [Exchange.drawn, ho]
  | next id =>
    simp only [step, next]
    refine ⟨accounted_withOutboxes id ⟨fun _ => rfl, rfl, rfl⟩ (fun _ hc => hc)
      (fun o ho _ => ?_) (fun ho => ?_) (fun j hj => if_neg hj), h.withOutboxes id fun o => ?_⟩
    · rw [Exchange.drawn, ho]
      cases hw : o.waiting <;> simp [hw]
    · simp [Exchange.drawn, ho]
    · rw [List.length_tail]
      exact Nat.sub_le _ _
  | roster => exact hchanged ⟨fun _ => rfl, rfl, rfl⟩ (fun _ => rfl) fun _ hk => hk

/-- Every session has its account. -/
theorem accounted (commands : List Command) :
    n.Accounted (n.exchanges commands) (n.after commands) ∧ (n.after commands).Sound := by
  induction commands generalizing n with
  | nil => exact ⟨.refl n, h⟩
  | cons c rest ih =>
    obtain ⟨hfirst, hsound⟩ := h.step_accounted c
    obtain ⟨hrest, hafter⟩ := ih hsound
    exact ⟨hfirst.trans hrest, hafter⟩

/-! ## The roster -/

theorem exists_roster : ∃ infos, n.roster = .ok infos ∧
    (infos.map SubscriberInfo.id).Pairwise (· < ·) ∧
    (∀ id, id ∈ infos.map SubscriberInfo.id ↔ n.knows id) ∧
    ∀ info ∈ infos, ∀ station, station ∈ info.stations ↔ n.watches info.id station := by
  have hids : ∀ entries : List (SubscriberId × Subscriber),
      (entries.map fun e => (⟨e.1, e.2.user, e.2.watched⟩ : SubscriberInfo)).map SubscriberInfo.id =
        entries.map Prod.fst := fun _ => List.map_map
  refine ⟨_, if_pos h.running, ?_, fun id => ?_, fun info hinfo station => ?_⟩
  · rw [hids]
    exact List.pairwise_map.2 n.subscribers.ascending
  · rw [hids, knows, Table.contains, Option.isSome_iff_exists]
    simp only [List.mem_map, Prod.exists, exists_and_right, exists_eq_right]
    exact exists_congr fun s => Table.mem_entries_iff
  · obtain ⟨⟨id, s⟩, hs, rfl⟩ := List.mem_map.1 hinfo
    rw [watches, Table.mem_entries_iff.1 hs]
    exact decide_eq_true_iff.symm

end Sound

theorem sound_after (config : NotifierConfig) (commands : List Command) :
    ((start config).after commands).Sound :=
  ((sound_start config).accounted commands).2

/-- Who was known and is not any more never comes back. -/
theorem not_knows_again {config : NotifierConfig} {earlier rest : List Command}
    (hknown : ((start config).after earlier).knows id)
    (hgone : ¬ ((start config).after (earlier ++ rest)).knows id) (later : List Command) :
    ¬ (((start config).after (earlier ++ rest)).after later).knows id := by
  -- The id was given out early on, and only ids that are yet to be given out become known.
  have hearly := sound_after config earlier
  have hid := hearly.fresh id (hearly.outbox id hknown)
  have hle := (hearly.accounted rest).1.nextId_le
  rw [← after_append] at hle
  intro hback
  rcases ((sound_after config (earlier ++ rest)).accounted later).1.known id hback with hk | hnew
  · exact hgone hk
  · exact Nat.not_lt.2 (Nat.le_trans hle hnew) hid

end RailFreight.Notifier
