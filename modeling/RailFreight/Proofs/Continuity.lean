import RailFreight.Proofs.Accounting
import RailFreight.Proofs.Ownership
import Mathlib.Data.List.Forall2

/-!
# Continuity of jobs

Most operations are about one job or about none, yet they write to many queues: tracks are
assigned to all jobs in turn, and output is folded into whichever load is open. What becomes
of a job in the meantime is bounded. A step of upkeep changes the tracks of a job that nobody
has taken, and may add cars to a load that nobody has claimed (`Job.Tended`); an operation
does no more to a job, unless it is a request for that very job (`Job.Carried`). The queues
keep their order, and new jobs stand at their ends (`Network.Extends`).

* `Job.tended_after`, `Job.tended_withCars`, `Job.Carried.tended`: what happens to one job;
* `Network.Upkeep.extends`, `Network.perform_extends`: what happens to the queues;
* `Reachable.perform_carried`: which jobs an operation keeps, and what it leaves of them.
-/

namespace RailFreight

open List (Forall₂)

/-! ## Lists related element by element -/

variable {α β γ : Type} {R : α → β → Prop}

/-- What a list is related to splits where the list does. -/
theorem exists_of_forall₂_append {xs ys : List α} {zs : List β} (h : Forall₂ R (xs ++ ys) zs) :
    ∃ us vs, zs = us ++ vs ∧ Forall₂ R xs us ∧ Forall₂ R ys vs := by
  have hxs := List.forall₂_take xs.length h
  have hys := List.forall₂_drop xs.length h
  rw [List.take_left] at hxs
  rw [List.drop_left] at hys
  exact ⟨_, _, (List.take_append_drop xs.length zs).symm, hxs, hys⟩

theorem exists_of_forall₂_mem {xs : List α} {ys : List β} (h : Forall₂ R xs ys) {y : β}
    (hy : y ∈ ys) : ∃ x ∈ xs, R x y := by
  induction h with
  | nil => exact absurd hy List.not_mem_nil
  | cons hxy _ ih =>
    rcases List.mem_cons.1 hy with rfl | hy
    · exact ⟨_, List.mem_cons_self, hxy⟩
    · obtain ⟨x, hx, h⟩ := ih hy
      exact ⟨x, List.mem_cons_of_mem _ hx, h⟩

theorem forall₂_trans {S : β → γ → Prop} {T : α → γ → Prop} (hT : ∀ x y z, R x y → S y z → T x z)
    {xs : List α} {ys : List β} {zs : List γ} (h : Forall₂ R xs ys) (h' : Forall₂ S ys zs) :
    Forall₂ T xs zs := by
  induction h generalizing zs with
  | nil =>
    cases h'
    exact .nil
  | cons hxy _ ih =>
    cases h' with
    | cons hyz h' => exact .cons (hT _ _ _ hxy hyz) (ih h')

/-- A list is related to itself with one element replaced by a related one. -/
theorem forall₂_replace {R : α → α → Prop} (hR : ∀ x, R x x) {x y : α} (h : R x y)
    (before after : List α) : Forall₂ R (before ++ x :: after) (before ++ y :: after) :=
  List.rel_append (List.forall₂_same.2 fun _ _ => hR _)
    (.cons h (List.forall₂_same.2 fun _ _ => hR _))

/-- To take out an element is to filter by anything that tells the elements apart. -/
theorem eraseIdx_eq_filter {β : Type} [DecidableEq β] (g : α → β) {xs : List α} {i : Nat} {x : α}
    (h : xs[i]? = some x) (hnodup : (xs.map g).Nodup) :
    xs.eraseIdx i = xs.filter (g · ≠ g x) := by
  induction xs generalizing i with
  | nil => simp at h
  | cons y ys ih =>
    obtain ⟨hy, hys⟩ := List.nodup_cons.1 (List.map_cons ▸ hnodup)
    cases i with
    | zero =>
      cases h
      rw [List.eraseIdx_cons_zero, List.filter_cons_of_neg (by simp), List.filter_eq_self.2]
      intro z hz
      exact decide_eq_true fun he => hy (he ▸ List.mem_map_of_mem hz)
    | succ i =>
      have hne : g y ≠ g x := fun he => hy (he ▸ List.mem_map_of_mem (List.mem_of_getElem? h))
      rw [List.eraseIdx_cons_succ, List.filter_cons_of_pos (by simpa using hne), ih h hys]

/-! ## Jobs -/

/-- What a step of upkeep does to a job. Cars join it only when it is `filling` that is done,
    and only if it is a load that nobody has claimed. -/
structure Job.Tended (filling : Prop) (j k : Job) : Prop where
  same : k = { j with
    cars := k.cars, originTrack := k.originTrack, proposedTrack := k.proposedTrack }
  cars_le : j.cars ≤ k.cars
  filled : k.cars ≠ j.cars → filling ∧ j.kind = .shuntingLoad ∧ ¬ j.isReserved ∧ ¬ j.isActive
  originTrack_eq : j.isReserved → j.isSpawned → k.originTrack = j.originTrack
  active : j.isActive → k = j

/-- What an operation does to a job that stays in the network. -/
structure Job.Carried (op : Operation) (j k : Job) : Prop where
  same : k = { j with
    cars := k.cars, originTrack := k.originTrack, proposedTrack := k.proposedTrack
    destinationTrack := k.destinationTrack, holder := k.holder }
  cars_le : j.cars ≤ k.cars
  /-- Cars join loads that nobody has claimed, when some job is finished. -/
  filled : k.cars ≠ j.cars → j.kind = .shuntingLoad ∧ ¬ j.isReserved ∧ ¬ j.isActive ∧
    ∃ user id, op = .request .finish user id
  /-- A job that is reserved keeps its holder, its cars, and the track that it starts from. -/
  reserved : j.isReserved → k.holder = j.holder ∧ k.cars = j.cars ∧
    (j.isSpawned → k.originTrack = j.originTrack)
  /-- A job becomes active only when its holder takes it. -/
  taken : ¬ j.isActive → k.isActive → ∃ user, j.isHeldBy user ∧ op = .request .take user j.id
  active : j.isActive → k = j

/-- The id of the job that is finished, if that is what the operation does. -/
def Operation.finished? : Operation → Outcome → Option JobId
  | .request .finish _ id, outcome => if outcome.isGrant then some id else none
  | _, _ => none

namespace Job

variable {j k l : Job} {filling : Prop} {op : Operation}

theorem Tended.refl (filling : Prop) (j : Job) : j.Tended filling j :=
  ⟨rfl, Nat.le_refl _, fun h => absurd rfl h, fun _ _ => rfl, fun _ => rfl⟩

theorem Carried.refl (op : Operation) (j : Job) : j.Carried op j :=
  ⟨rfl, Nat.le_refl _, fun h => absurd rfl h, fun _ => ⟨rfl, rfl, fun _ => rfl⟩,
    fun h h' => absurd h' h, fun _ => rfl⟩

theorem carried_reserve {user : User} (ha : ¬ j.isActive) (hr : ¬ j.isReserved) :
    j.Carried op (j.reserve user) :=
  ⟨rfl, Nat.le_refl _, fun h => absurd rfl h, fun h => absurd h hr, fun _ h => absurd h ha,
    fun h => absurd h ha⟩

theorem carried_activate {user : User} {track : Track} (ha : ¬ j.isActive) (hu : j.isHeldBy user) :
    j.Carried (.request .take user j.id) (j.activate track) :=
  ⟨rfl, Nat.le_refl _, fun h => absurd rfl h, fun _ => ⟨rfl, rfl, fun _ => rfl⟩,
    fun _ _ => ⟨user, hu, rfl⟩, fun h => absurd h ha⟩

theorem Carried.id_eq (h : j.Carried op k) : k.id = j.id := by rw [h.same]

/-- The decision about a job changes the tracks of jobs that are not active, and takes no origin
    track away from a reserved one. -/
theorem tended_after (net : Network) (j : Job) : j.Tended filling (j.after (net.decision j)) := by
  have hd := net.decided j
  generalize net.decision j = d at hd ⊢
  cases hd with
  | active | proposed | reserved | full | blocked => exact .refl filling j
  | retarget ha =>
    exact ⟨rfl, Nat.le_refl _, fun h => absurd rfl h, fun _ _ => rfl, fun h => absurd h ha⟩
  | despawn ha _ _ hr =>
    exact ⟨rfl, Nat.le_refl _, fun h => absurd rfl h, fun h => absurd h hr, fun h => absurd h ha⟩
  | spawn ha hs =>
    exact ⟨rfl, Nat.le_refl _, fun h => absurd rfl h, fun _ h => absurd h hs,
      fun h => absurd h ha⟩

/-- Cars join a load that nobody has claimed. -/
theorem tended_withCars {cargo : Cargo} {cars : Nat} (hload : j.isMergeableLoad cargo)
    (hcars : j.cars ≤ cars) : j.Tended True { j with cars } := by
  simp only [isMergeableLoad, Bool.and_eq_true, decide_eq_true_eq, Bool.not_eq_true'] at hload
  obtain ⟨⟨⟨hkind, -⟩, hr⟩, ha⟩ := hload
  exact ⟨rfl, hcars, fun _ => ⟨trivial, hkind, by simp [hr], by simp [ha]⟩,
    fun h => absurd h (by simp [hr]), fun h => absurd h (by simp [ha])⟩

/-- Upkeep may follow what an operation does; only a finish fills loads. -/
theorem Carried.tended (hfilling : filling → ∃ user id, op = .request .finish user id)
    (h : j.Carried op k) (h' : k.Tended filling l) : j.Carried op l := by
  have hkind : k.kind = j.kind := by rw [h.same]
  have hholder : l.holder = k.holder := by rw [h'.same]
  have hactive : l.isActive = k.isActive := by rw [isActive, isActive, h'.same]
  have hreserved : j.isReserved → k.isReserved := fun hr => by
    rw [isReserved, (h.reserved hr).1]
    exact hr
  refine ⟨?_, Nat.le_trans h.cars_le h'.cars_le, fun hne => ?_, fun hr => ?_, fun ha hl => ?_,
    fun ha => ?_⟩
  · rw [h'.same, h.same]
  · by_cases hk : k.cars = j.cars
    · obtain ⟨hf, hload, hr, ha⟩ := h'.filled (by rwa [hk])
      refine ⟨hkind ▸ hload, fun hj => hr (hreserved hj), fun hj => ha ?_, hfilling hf⟩
      rwa [h.active hj]
    · exact h.filled hk
  · obtain ⟨hh, hc, ht⟩ := h.reserved hr
    have hsame : l.cars = k.cars := by
      by_contra hne
      exact (h'.filled hne).2.2.1 (hreserved hr)
    refine ⟨hholder.trans hh, hsame.trans hc, fun hs => ?_⟩
    have hspawned : k.isSpawned := by
      rw [isSpawned, ht hs]
      exact hs
    exact (h'.originTrack_eq (hreserved hr) hspawned).trans (ht hs)
  · exact h.taken ha (hactive ▸ hl)
  · have hk := h.active ha
    rw [h'.active (hk ▸ ha), hk]

end Job

/-! ## Queues -/

namespace Network

variable {R S T : Job → Job → Prop} {net n net' : Network} {code : StationCode} {s : Station}
  {place : Place} {j : Job} {op : Operation} {filling : Prop}

/-- `net'` has the jobs of `net` in the order of their queues, each changed as `R` allows, and
    behind them jobs with ids that had not been issued in `net`. -/
structure Extends (R : Job → Job → Prop) (net net' : Network) : Prop where
  issued : ∀ id, net.Issued id → net'.Issued id
  queueOf : ∀ code, ∃ kept fresh, net'.queueOf code = kept ++ fresh ∧
    Forall₂ R (net.queueOf code) kept ∧ ∀ k ∈ fresh, ¬ net.Issued k.id

theorem Extends.refl (hR : ∀ j, R j j) (net : Network) : net.Extends R net :=
  ⟨fun _ h => h, fun code => ⟨net.queueOf code, [], (List.append_nil _).symm,
    List.forall₂_same.2 fun _ _ => hR _, List.forall_mem_nil _⟩⟩

theorem Extends.trans (hT : ∀ j k l, R j k → S k l → T j l) (hS : ∀ j k, S j k → k.id = j.id)
    (h : net.Extends R n) (h' : n.Extends S net') : net.Extends T net' := by
  refine ⟨fun id hid => h'.issued id (h.issued id hid), fun code => ?_⟩
  obtain ⟨kept, fresh, hq, hkept, hfresh⟩ := h.queueOf code
  obtain ⟨all, fresh', hq', hall, hfresh'⟩ := h'.queueOf code
  rw [hq] at hall
  obtain ⟨kept', changed, rfl, hkept', hchanged⟩ := exists_of_forall₂_append hall
  refine ⟨kept', changed ++ fresh', by rw [hq', List.append_assoc],
    forall₂_trans hT hkept hkept', ?_⟩
  intro k hk hissued
  rcases List.mem_append.1 hk with hk | hk
  · obtain ⟨l, hl, hlk⟩ := exists_of_forall₂_mem hchanged hk
    rw [hS l k hlk] at hissued
    exact hfresh l hl hissued
  · exact hfresh' k hk (h.issued _ hissued)

theorem queueOf_modifyStation (hs : net.station? code = some s) (f : Station → Station)
    (c : StationCode) :
    (net.modifyStation code f).queueOf c = if code = c then (f s).queue else net.queueOf c := by
  rw [Network.queueOf, station?_modifyStation]
  split
  · rename_i hc
    rw [← hc, hs, Option.map_some, Option.elim_some]
  · rfl

/-- A station that changes keeps its jobs and adds new ones behind them. -/
theorem extends_modifyStation {kept fresh : List Job} (hR : ∀ j, R j j)
    (hs : net.station? code = some s) (f : Station → Station)
    (hnumber : s.nextNumber ≤ (f s).nextNumber) (hqueue : (f s).queue = kept ++ fresh)
    (hkept : Forall₂ R s.queue kept) (hfresh : ∀ k ∈ fresh, ¬ net.Issued k.id) :
    net.Extends R (net.modifyStation code f) := by
  constructor
  · intro id hid
    refine hid.modifyStation fun t ht => ?_
    cases hs.symm.trans ht
    exact hnumber
  · intro c
    rw [queueOf_modifyStation hs]
    split
    · rename_i hc
      subst hc
      exact ⟨kept, fresh, hqueue, by rwa [queueOf_of_station? hs], hfresh⟩
    · exact (Extends.refl hR net).queueOf c

theorem extends_of_forall₂ (hR : ∀ j, R j j) (hs : net.station? code = some s)
    (f : Station → Station) (hnumber : (f s).nextNumber = s.nextNumber)
    (hqueue : Forall₂ R s.queue (f s).queue) : net.Extends R (net.modifyStation code f) :=
  extends_modifyStation hR hs f (Nat.le_of_eq hnumber.symm) (List.append_nil _).symm hqueue
    (List.forall_mem_nil _)

theorem extends_modifyJobAt {f : Job → Job} (hR : ∀ j, R j j) (hj : net.jobAt? place = some j)
    (hf : R j (f j)) : net.Extends R (net.modifyJobAt place f) := by
  obtain ⟨s, hs, hj⟩ := jobAt?_eq_some_iff.1 hj
  obtain ⟨hi, rfl⟩ := List.getElem?_eq_some_iff.1 hj
  refine extends_of_forall₂ hR hs _ rfl ?_
  have hreplaced := forall₂_replace hR hf (s.queue.take place.2) (s.queue.drop (place.2 + 1))
  rw [← List.drop_eq_getElem_cons hi, List.take_append_drop,
    ← List.modify_eq_take_cons_drop hi] at hreplaced
  exact hreplaced

theorem extends_drawn (hR : ∀ j, R j j) (net : Network) (generator : Generator) :
    net.Extends R { net with generator } := by
  have hsame := Extends.refl hR net
  exact ⟨hsame.issued, hsame.queueOf⟩

/-- A new job gets an id that has not been issued. -/
theorem extends_queued {kind : JobKind} {destination : StationCode} {cars : Nat} {cargo : Cargo}
    {wage : Nat} (hR : ∀ j, R j j) (hf : net.Filed) (hs : net.station? code = some s)
    (f : Station → Station) (hnumber : (f s).nextNumber = s.nextNumber + 1)
    (hqueue : (f s).queue = s.queue ++ [Job.queued (JobId.of s.code kind s.nextNumber) kind s.code
      destination cars cargo wage]) : net.Extends R (net.modifyStation code f) := by
  refine extends_modifyStation hR hs f (by omega) hqueue (List.forall₂_same.2 fun k _ => hR k) ?_
  intro k hk
  rw [List.mem_singleton.1 hk]
  exact not_issued_of_nextNumber ((hf code s hs).symm ▸ hs) kind

/-! ### Upkeep -/

theorem Upkeep.extends (hf : net.Filed) (h : net.Upkeep net') :
    net.Extends (Job.Tended True) net' := by
  have hrefl := Job.Tended.refl True
  cases h with
  | drawn generator he =>
    subst he
    exact extends_drawn hrefl net generator
  | changed hs hch he =>
    subst he
    cases hch with
    | kept _ hn hq =>
      exact extends_of_forall₂ hrefl hs _ hn (hq ▸ List.forall₂_same.2 fun k _ => hrefl k)
    | queued kind destination cars cargo wage _ hn _ hq => exact extends_queued hrefl hf hs _ hn hq
    | filled before after load cargo cars _ hn hload hle _ hq hq' =>
      refine extends_of_forall₂ hrefl hs _ hn ?_
      simp only [hq, hq']
      exact forall₂_replace hrefl (Job.tended_withCars hload hle) before after
  | assigned hj he =>
    subst he
    exact extends_modifyJobAt hrefl hj (Job.tended_after net _)

theorem Extends.tended (hfilling : filling → ∃ user id, op = .request .finish user id)
    (h : net.Extends (Job.Carried op) n) (h' : n.Extends (Job.Tended filling) net') :
    net.Extends (Job.Carried op) net' :=
  h.trans (fun _ _ _ h h' => h.tended hfilling h') (fun _ _ h => by rw [h.same]) h'

/-- Upkeep after a finish carries on what the finish has done. -/
theorem Extends.upkept {user : User} {id : JobId} (hf : n.Filed)
    (h : net.Extends (Job.Carried (.request .finish user id)) n) (hup : n.Upkept net') :
    net.Extends (Job.Carried (.request .finish user id)) net' := by
  induction hup with
  | refl => exact h
  | tail hups hup ih =>
    exact ih.tended (fun _ => ⟨user, id, rfl⟩) (hup.extends (Upkept.filed hups hf))

/-- Visits fill no loads. -/
theorem Extends.later (h : net.Extends (Job.Carried op) n) (hl : n.Later net') :
    net.Extends (Job.Carried op) net' := by
  induction hl with
  | refl => exact h
  | @tail m m' _ hv ih =>
    obtain ⟨v, rfl⟩ := hv
    rcases visit_snd_cases m v with he | ⟨j, hj, -, he⟩
    · rwa [he]
    · rw [he]
      refine ih.tended False.elim ?_
      exact extends_modifyJobAt (Job.Tended.refl False) hj (Job.tended_after m j)

/-! ### Operations -/

theorem createJob_extends {kind : JobKind} {destination : StationCode} {cars : Nat} {cargo : Cargo}
    {wage : Nat} {id : JobId} (hR : ∀ j, R j j) (hf : net.Filed)
    (h : net.createJob code kind destination cars cargo wage = .ok (id, net')) :
    net.Extends R net' := by
  obtain ⟨s, overflow, hs, rfl, rfl⟩ := createJob_eq_ok h
  exact extends_queued hR hf hs _ rfl rfl

theorem addProcessor_extends {p : Processor} {id : Option JobId} (op : Operation) (hf : net.Filed)
    (h : net.addProcessor code p = .ok (id, net')) : net.Extends (Job.Carried op) net' := by
  rcases addProcessor_eq_ok h with ⟨-, rfl⟩ | ⟨s, hs, hadded⟩
  · exact .refl (.refl op) _
  · have hadd : net.Extends (Job.Carried op) (net.modifyStation code (·.addProcessor p)) :=
      extends_of_forall₂ (.refl op) hs _ rfl (List.forall₂_same.2 fun k _ => .refl op k)
    rcases hadded with ⟨-, rfl⟩ | ⟨-, load, hseed⟩
    · exact hadd
    · have hfiled : (net.modifyStation code (·.addProcessor p)).Filed :=
        hf.modifyStation fun t ht => hf code t ht
      have hrefl := Job.Tended.refl False
      obtain ⟨generator, cars, wage, -, hjob⟩ := exists_createJob_of_seedLoad hseed
      have hdrawn := hadd.tended False.elim (extends_drawn hrefl _ generator)
      exact hdrawn.tended False.elim (createJob_extends hrefl hfiled hjob)

theorem queueOf_addStation (hnew : net.station? code = none) (minCars maxCars : Nat)
    (c : StationCode) : (net.addStation code minCars maxCars).queueOf c = net.queueOf c := by
  rw [Network.queueOf, Network.queueOf, addStation, station?_putStation]
  split
  · rename_i hc
    have hc : code = c := hc
    rw [← hc, hnew]
    rfl
  · rfl

/-- A job that is taken out of its queue is missing there, and nowhere else. -/
theorem Numbered.queueOf_removeJobAt (h : net.Numbered) (hj : net.jobAt? place = some j)
    (code : StationCode) :
    (net.removeJobAt place).queueOf code = (net.queueOf code).filter (·.id ≠ j.id) := by
  obtain ⟨s, hs, hi⟩ := jobAt?_eq_some_iff.1 hj
  rw [Network.removeJobAt, queueOf_modifyStation hs]
  split
  · rename_i hc
    have hnodup : (s.queue.map Job.id).Nodup := by
      obtain ⟨before, after, hjobs, -⟩ := exists_jobs_eq hs
      have hall := h.nodup
      rw [hjobs, List.map_append, List.map_append] at hall
      exact (List.nodup_append'.1 (List.nodup_append'.1 hall).1).2.1
    rw [← hc, queueOf_of_station? hs]
    exact eraseIdx_eq_filter Job.id hi hnodup
  · rename_i hc
    refine (List.filter_eq_self.2 fun k hk => ?_).symm
    obtain ⟨i, hk⟩ := mem_queueOf_iff.1 hk
    have hne : k.id ≠ j.id := fun hid => hc (congrArg Prod.fst (h.place_eq hj hk hid.symm))
    simpa using hne

/-- An operation carries on the jobs that it does not finish. -/
theorem perform_extends {outcome : Outcome} (hsafe : net.Safe) (hnumbered : net.Numbered)
    (hkeeps : KeepsStations net op) (hp : net.perform op = .ok (outcome, net')) :
    ∃ n : Network, n.Extends (Job.Carried op) net' ∧ (∀ id, net.Issued id → n.Issued id) ∧
      ∀ code, n.queueOf code =
        (net.queueOf code).filter fun j => op.finished? outcome ≠ some j.id := by
  have hf := hsafe.filed
  have hall : op.finished? outcome = none → net.Extends (Job.Carried op) net' →
      ∃ n : Network, n.Extends (Job.Carried op) net' ∧ (∀ id, net.Issued id → n.Issued id) ∧
        ∀ code, n.queueOf code =
          (net.queueOf code).filter fun j => op.finished? outcome ≠ some j.id := by
    intro hnone hextends
    refine ⟨net, hextends, fun _ h => h, fun code => ?_⟩
    rw [hnone]
    simp
  have hrefl := Job.Carried.refl op
  cases op with
  | addStation code minCars maxCars =>
    cases hp
    have hnew : net.station? code = none := hkeeps
    refine hall rfl ⟨fun _ h => h.addStation hnew minCars maxCars, fun c => ?_⟩
    rw [queueOf_addStation hnew]
    exact (Extends.refl hrefl net).queueOf c
  | addProcessor code p =>
    obtain ⟨⟨seeded, n⟩, hadd, hp⟩ := Faulty.bind_eq_ok_iff.1 hp
    cases hp
    exact hall rfl (addProcessor_extends _ hf hadd)
  | createJob origin kind destination cars cargo wage =>
    obtain ⟨⟨id, n⟩, hjob, hp⟩ := Faulty.bind_eq_ok_iff.1 hp
    cases hp
    exact hall rfl (createJob_extends hrefl hf hjob)
  | revalidate =>
    cases hp
    exact hall rfl ((Extends.refl hrefl net).later net.revalidate_later)
  | request action user id =>
    cases perform_request hp with
    | refused => exact hall (by cases action <;> rfl) (.refl hrefl net)
    | @granted place j _ _ _ hcause hj hid hgrant hgranted =>
      subst hid
      cases hgranted with
      | reserve =>
        obtain ⟨ha, hr⟩ := refusal?_reserve_eq_none_iff.1 hcause
        exact hall rfl (extends_modifyJobAt hrefl hj (Job.carried_reserve ha hr))
      | @take track htrack =>
        obtain ⟨ha, hu, -, -⟩ := refusal?_take_eq_none_iff.1 hcause
        have htaken :=
          extends_modifyJobAt (f := (·.activate track)) hrefl hj (Job.carried_activate ha hu)
        exact hall rfl (htaken.later (revalidate_later _))
      | @finish d n hd =>
        have hremoved := hf.removeJobAt place
        have hcars := (hsafe.fits_of_mem (mem_jobs_of_jobAt? hj)).cars_le
        have hup := (dispatch_upkeptAt hremoved hcars hd).upkept.trans (revalidate_upkept n)
        refine ⟨net.removeJobAt place, (Extends.refl hrefl _).upkept hremoved hup,
          fun id h => h.claimed (.finish : net.Claimed user place j _ _), fun code => ?_⟩
        rw [hnumbered.queueOf_removeJobAt hj, Operation.finished?, if_pos hgrant]
        refine List.filter_congr fun k _ => ?_
        simp [eq_comm]

/-- A job is finished for the user who holds it. -/
theorem isHeldBy_of_finished? {outcome : Outcome} (hsafe : net.Safe) (hnumbered : net.Numbered)
    (hp : net.perform op = .ok (outcome, net')) (hj : j ∈ net.jobs)
    (hid : op.finished? outcome = some j.id) :
    ∃ user, op = .request .finish user j.id ∧ outcome.isGrant ∧ j.isHeldBy user := by
  cases op with
  | request action user id =>
    cases action with
    | finish =>
      rw [Operation.finished?] at hid
      split at hid
      · rename_i hgrant
        obtain rfl : id = j.id := Option.some.inj hid
        cases perform_request hp with
        | refused => exact absurd hgrant nofun
        | @granted place k _ _ hjob hcause =>
          rw [hnumbered.job?_eq_find? hsafe.filed, hnumbered.find?_id hj] at hjob
          obtain rfl : j = k := Option.some.inj (Except.ok.inj hjob)
          exact ⟨user, rfl, hgrant, (refusal?_finish_eq_none_iff.1 hcause).2⟩
      · exact absurd hid nofun
    | reserve | take => exact absurd hid nofun
  | addStation | addProcessor | createJob | revalidate => exact absurd hid nofun

end Network

/-- An operation that replaces no station carries on all jobs but the one that it finishes for
    the user who holds it, and queues new jobs behind them. -/
theorem Reachable.perform_carried {config : Config} {net net' : Network} {op : Operation}
    {outcome : Outcome} (h : Reachable config net) (hkeeps : KeepsStations net op)
    (hp : net.perform op = .ok (outcome, net')) :
    (∀ j ∈ net.jobs, ∀ k ∈ net'.jobs, k.id = j.id → j.Carried op k) ∧
      (∀ j ∈ net.jobs, j.id ∉ net'.jobs.map Job.id →
        ∃ user, op = .request .finish user j.id ∧ outcome.isGrant ∧ j.isHeldBy user) ∧
      ∀ code, ∃ kept fresh, net'.queueOf code = kept ++ fresh ∧
        Forall₂ (Job.Carried op)
          ((net.queueOf code).filter fun j => op.finished? outcome ≠ some j.id) kept ∧
        ∀ k ∈ fresh, k.id ∉ net.jobs.map Job.id := by
  have hnumbered := h.numbered
  obtain ⟨n, hextends, hissued, hqueue⟩ := Network.perform_extends h.safe hnumbered hkeeps hp
  have hqueues : ∀ code, ∃ kept fresh, net'.queueOf code = kept ++ fresh ∧
      Forall₂ (Job.Carried op)
        ((net.queueOf code).filter fun j => op.finished? outcome ≠ some j.id) kept ∧
      ∀ k ∈ fresh, k.id ∉ net.jobs.map Job.id := by
    intro code
    obtain ⟨kept, fresh, hq, hkept, hfresh⟩ := hextends.queueOf code
    rw [hqueue] at hkept
    exact ⟨kept, fresh, hq, hkept, fun k hk hid => hfresh k hk (hissued _ (hnumbered.issued hid))⟩
  refine ⟨fun j hj k hk hid => ?_, fun j hj hgone => ?_, hqueues⟩
  · obtain ⟨code, hk⟩ := Network.mem_jobs_iff_queueOf.1 hk
    obtain ⟨kept, fresh, hq, hkept, hfresh⟩ := hqueues code
    rw [hq] at hk
    rcases List.mem_append.1 hk with hk | hk
    · obtain ⟨l, hl, hcarried⟩ := exists_of_forall₂_mem hkept hk
      have hl : l ∈ net.jobs :=
        Network.mem_jobs_iff_queueOf.2 ⟨code, List.mem_of_mem_filter hl⟩
      obtain rfl : l = j := hnumbered.eq_of_id hl hj (hcarried.id_eq.symm.trans hid)
      exact hcarried
    · exact absurd (List.mem_map.2 ⟨j, hj, hid.symm⟩) (hfresh k hk)
  · refine Network.isHeldBy_of_finished? h.safe hnumbered hp hj ?_
    by_contra hne
    obtain ⟨code, hj⟩ := Network.mem_jobs_iff_queueOf.1 hj
    obtain ⟨kept, fresh, hq, hkept, -⟩ := hqueues code
    have hj : j ∈ (net.queueOf code).filter fun j => op.finished? outcome ≠ some j.id :=
      List.mem_filter.2 ⟨hj, by simpa using hne⟩
    obtain ⟨k, hk, hcarried⟩ := exists_of_forall₂_mem hkept.flip hj
    refine hgone (List.mem_map.2 ⟨k, ?_, hcarried.id_eq⟩)
    exact Network.mem_jobs_iff_queueOf.2 ⟨code, hq ▸ List.mem_append_left _ hk⟩

/-- When the load is shipped, the one in front of it is filled up, and the freight and the next
    load are queued behind it. -/
theorem shippedRun_perform_carried :
    ∃ net outcome net', (Network.empty {}).performAll shippedRun = .ok net ∧
      net.perform shipment = .ok (outcome, net') ∧ KeepsStations net shipment ∧
      (net.queueOf .cm).map Job.cars = [2, 12] ∧ (net'.queueOf .cm).map Job.cars = [10, 12, 1] ∧
      (∀ j ∈ net.jobs, ∀ k ∈ net'.jobs, k.id = j.id → j.Carried shipment k) ∧
      (∀ j ∈ net.jobs, j.id ∉ net'.jobs.map Job.id →
        ∃ user, shipment = .request .finish user j.id ∧ outcome.isGrant ∧ j.isHeldBy user) ∧
      ∀ code, ∃ kept fresh, net'.queueOf code = kept ++ fresh ∧
        Forall₂ (Job.Carried shipment)
          ((net.queueOf code).filter fun j => shipment.finished? outcome ≠ some j.id) kept ∧
        ∀ k ∈ fresh, k.id ∉ net.jobs.map Job.id := by
  obtain ⟨net, outcome, net', hrun, hreachable, hp, h⟩ :=
    exists_reachable_perform {} shippedRun shipment
      (fun net _ net' => (net.queueOf .cm).map Job.cars = [2, 12] ∧
        (net'.queueOf .cm).map Job.cars = [10, 12, 1]) (by decide +kernel)
  obtain ⟨hbefore, hafter⟩ := of_decide_eq_true h
  exact ⟨net, outcome, net', hrun, hp, trivial, hbefore, hafter,
    hreachable.perform_carried trivial hp⟩

end RailFreight
