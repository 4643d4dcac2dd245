import RailFreight.Proofs.Announcement
import RailFreight.Proofs.Continuity

/-!
# Ids handed out

Jobs come into a network in many ways: on request, along with a processor, as freight, to be
unloaded, out of folded output. In each of them a station hands out its next number, and the
id goes to the job at the end of its queue. So the ids that a run hands out are new at that
time, and each of them belongs to a job of the network or to one that was finished.

* `Station.HandsOut`, `Network.HandsOut`: what happens to the numbers and to the ids of the
  queues while ids are handed out;
* `Network.createJob_handsOut`, `Network.dispatch_handsOut`: the functions that hand out ids;
* `Network.perform_handsOut`: the ids that an operation answers with are all that it hands out;
* `ids_unique`: no run hands out an id twice, and ids are unique in every network.
-/

namespace RailFreight

/-! ## Stations -/

/-- The load that folded output made, if it made one. -/
def Folded.newIds : Folded → List JobId
  | created job _ => [job]
  | merged .. => []

theorem Dispatch.created_record (d : Dispatch) (folded : Folded) :
    (d.record folded).created = d.created ++ folded.newIds := by
  rcases folded with ⟨job, -⟩ | ⟨job, -⟩
  · rw [record]
    split <;> exact (List.append_nil _).symm
  · rfl

namespace Station

/-- The ids that a station hands out on the way from `s` to `s'`: none, or the next one to a job
    at the end of its queue. -/
inductive HandsOut (s s' : Station) : List JobId → Prop
  | none : s'.nextNumber = s.nextNumber → s'.queue.map Job.id = s.queue.map Job.id →
    HandsOut s s' []
  | next (kind : JobKind) : s'.nextNumber = s.nextNumber + 1 →
    s'.queue.map Job.id = s.queue.map Job.id ++ [JobId.of s.code kind s.nextNumber] →
    HandsOut s s' [JobId.of s.code kind s.nextNumber]

variable {s s' : Station} {kind : JobKind} {destination : StationCode} {cars wage count : Nat}
  {cargo : Cargo} {id : JobId}

/-- What a station hands out depends on its code, its numbers and its queue. -/
theorem HandsOut.of_eq {s₀ : Station} {ids : List JobId} (h : s.HandsOut s' ids)
    (hcode : s.code = s₀.code) (hn : s.nextNumber = s₀.nextNumber) (hq : s.queue = s₀.queue) :
    s₀.HandsOut s' ids := by
  rcases h with ⟨hn', hq'⟩ | ⟨kind, hn', hq'⟩
  · exact .none (hn'.trans hn) (hq'.trans (by rw [hq]))
  · rw [hcode, hn] at hq' ⊢
    exact .next kind (hn'.trans (by rw [hn])) (hq'.trans (by rw [hq]))

theorem addJob_handsOut (h : s.addJob kind destination cars cargo wage = .ok (id, s')) :
    s.HandsOut s' [id] := by
  obtain ⟨rfl, rfl⟩ := addJob_eq_ok h
  exact .next kind rfl (by rw [List.map_append]; rfl)

/-- A delivery goes to the processors alone. -/
theorem intake_eq_ok {produced : Option (Cargo × Nat)}
    (h : s.intake cargo count = .ok (produced, s')) :
    ∃ cursor processors, s' = { s with cursor, processors } := by
  cases takesIn h with
  | lost => exact ⟨_, s.processors, rfl⟩
  | accepted => exact ⟨_, _, rfl⟩

theorem fold_handsOut {ceiling : Nat} {folded : Folded}
    (h : s.fold cargo count ceiling = .ok (folded, s')) : s.HandsOut s' folded.newIds := by
  cases folds h with
  | merged hqueue _ _ _ _ hrest =>
    obtain ⟨overflow, rfl⟩ := addOverflow_eq_ok hrest
    refine .none rfl ?_
    rw [hqueue, List.map_append, List.map_append]
    rfl
  | created _ _ _ hjob hrest =>
    obtain ⟨overflow, rfl⟩ := addOverflow_eq_ok hrest
    obtain ⟨rfl, rfl⟩ := addJob_eq_ok hjob
    exact .next .shuntingLoad rfl (by rw [List.map_append]; rfl)

end Station

/-! ## Networks -/

namespace Network

/-- The number of the next job of a station; where there is none, a new station starts with
    this number. -/
def numberOf (net : Network) (code : StationCode) : Nat :=
  (net.station? code).elim 1 Station.nextNumber

/-- The ids that are handed out on the way from `net` to `net'`, while no job leaves. -/
structure HandsOut (net : Network) (ids : List JobId) (net' : Network) : Prop where
  issued : ∀ id, net.Issued id → net'.Issued id
  /-- The ids are new. -/
  new : ∀ id ∈ ids, ¬ net.Issued id ∧ net'.Issued id
  nodup : ids.Nodup
  perm : (net'.jobs.map Job.id).Perm (net.jobs.map Job.id ++ ids)
  number_le : ∀ code, net'.numberOf code ≤ net.numberOf code + ids.length

variable {net n net' : Network} {code : StationCode} {s s' : Station} {place : Place} {j : Job}
  {id : JobId} {ids ids' : List JobId} {kind : JobKind} {destination : StationCode}
  {cars wage count : Nat} {cargo : Cargo} {d d' : Dispatch}

namespace HandsOut

theorem refl (net : Network) : net.HandsOut [] net where
  issued _ h := h
  new _ h := absurd h List.not_mem_nil
  nodup := .nil
  perm := by rw [List.append_nil]
  number_le _ := Nat.le_refl _

/-- What is handed out first is issued by then, so it is not handed out again. -/
theorem trans (h : net.HandsOut ids n) (h' : n.HandsOut ids' net') :
    net.HandsOut (ids ++ ids') net' where
  issued id hid := h'.issued id (h.issued id hid)
  new id hid := by
    rcases List.mem_append.1 hid with hid | hid
    · exact ⟨(h.new id hid).1, h'.issued id (h.new id hid).2⟩
    · exact ⟨fun hissued => (h'.new id hid).1 (h.issued id hissued), (h'.new id hid).2⟩
  nodup := by
    refine List.nodup_append'.2 ⟨h.nodup, h'.nodup, fun id hid hid' => ?_⟩
    exact (h'.new id hid').1 (h.new id hid).2
  perm := by
    rw [← List.append_assoc]
    exact h'.perm.trans (h.perm.append_right ids')
  number_le code := by
    have hfirst := h.number_le code
    have hlast := h'.number_le code
    rw [List.length_append]
    omega

/-- Where neither the numbers nor the ids of the jobs change, none is handed out. -/
theorem of_eq
    (hnumber : ∀ code, (net'.station? code).map (·.nextNumber) =
      (net.station? code).map (·.nextNumber))
    (hids : net'.jobs.map Job.id = net.jobs.map Job.id) : net.HandsOut [] net' where
  issued id := by
    rintro ⟨code, s, kind, n, hs, hn, rfl⟩
    have hnumber := hnumber code
    rw [hs, Option.map_some, Option.map_eq_some_iff] at hnumber
    obtain ⟨s', hs', he⟩ := hnumber
    exact ⟨code, s', kind, n, hs', he ▸ hn, rfl⟩
  new _ h := absurd h List.not_mem_nil
  nodup := .nil
  perm := by rw [hids, List.append_nil]
  number_le code := by
    have hnumberOf : ∀ m : Network,
        m.numberOf code = ((m.station? code).map (·.nextNumber)).elim 1 id := by
      intro m
      rw [numberOf]
      cases m.station? code <;> rfl
    rw [hnumberOf, hnumberOf, hnumber]
    exact Nat.le_refl _

end HandsOut

theorem handsOut_modifyJobAt {f : Job → Job} (hj : net.jobAt? place = some j)
    (hid : ∀ k, (f k).id = k.id) : net.HandsOut [] (net.modifyJobAt place f) := by
  refine .of_eq (fun code => ?_) (jobs_map_modifyJobAt hj (hid j))
  rw [modifyJobAt, station?_modifyStation]
  split
  · rw [Option.map_map]
    rfl
  · rfl

/-- A change that leaves the number of a station alone leaves the numbers alone. -/
theorem numberOf_modifyStation (f : Station → Station) (hf : ∀ s, (f s).nextNumber = s.nextNumber)
    (c : StationCode) : (net.modifyStation code f).numberOf c = net.numberOf c := by
  rw [numberOf, numberOf, station?_modifyStation]
  split
  · cases net.station? c with
    | none => rfl
    | some s => exact hf s
  · rfl

theorem numberOf_removeJobAt (net : Network) (place : Place) (c : StationCode) :
    (net.removeJobAt place).numberOf c = net.numberOf c :=
  numberOf_modifyStation (fun s => { s with queue := s.queue.eraseIdx place.2 }) (fun _ => rfl) c

/-- A job that is taken out of its queue leaves the numbers as they are. -/
theorem issued_removeJobAt : (net.removeJobAt place).Issued id ↔ net.Issued id := by
  constructor
  · rintro ⟨code, s, kind, n, hs, hn, rfl⟩
    rcases station?_modifyStation_eq_some hs with hs | ⟨u, rfl, hu, rfl⟩
    · exact ⟨code, s, kind, n, hs, hn, rfl⟩
    · exact ⟨place.1, u, kind, n, hu, hn, rfl⟩
  · exact fun h => h.modifyStation fun _ _ => Nat.le_refl _

theorem Alike.handsOut (h : net.Alike net') : net.HandsOut [] net' := by
  have hids : ∀ m : Network, m.jobs.map Job.id = (m.jobs.map Job.untracked).map Job.id := by
    intro m
    rw [List.map_map]
    rfl
  refine .of_eq (fun code => ?_) (by rw [hids, hids, h.jobs_eq])
  have hnumber : ∀ m : Network, (m.station? code).map (·.nextNumber) =
      ((m.station? code).map Station.untracked).map (·.nextNumber) := by
    intro m
    rw [Option.map_map]
    rfl
  rw [hnumber, hnumber, h.untracked_eq]

theorem handsOut_addStation (hnew : net.station? code = none) (minCars maxCars : Nat) :
    net.HandsOut [] (net.addStation code minCars maxCars) where
  issued _ h := h.addStation hnew minCars maxCars
  new _ h := absurd h List.not_mem_nil
  nodup := .nil
  perm := by
    rw [List.append_nil, addStation, jobs_putStation rfl hnew]
  number_le c := by
    rw [numberOf, numberOf, addStation, station?_putStation]
    split
    · rename_i hc
      rw [show code = c from hc] at hnew
      rw [hnew]
      exact Nat.le_refl _
    · exact Nat.le_refl _

/-- What a station hands out, the network does. -/
theorem handsOut_modifyStation (hf : net.Filed) (hs : net.station? code = some s)
    (h : s.HandsOut s' ids) : net.HandsOut ids (net.modifyStation code fun _ => s') := by
  obtain ⟨before, after, hjobs, hmod⟩ := exists_jobs_eq hs
  rcases h with ⟨hn, hq⟩ | ⟨kind, hn, hq⟩
  · refine .of_eq (fun c => ?_) ?_
    · rw [station?_modifyStation]
      split
      · rename_i hc
        rw [← hc, hs, Option.map_some, Option.map_some, Option.map_some, hn]
      · rfl
    · rw [hmod, hjobs]
      simp only [List.map_append, hq]
  · have hself : (net.modifyStation code fun _ => s').station? code = some s' :=
      station?_modifyStation_self hs _
    refine ⟨fun id hid => ?_, fun id hid => ?_, List.nodup_singleton _, ?_, fun c => ?_⟩
    · refine hid.modifyStation fun u hu => ?_
      obtain rfl : s = u := Option.some.inj (hs.symm.trans hu)
      omega
    · obtain rfl := List.mem_singleton.1 hid
      rw [hf code s hs]
      exact ⟨not_issued_of_nextNumber hs kind, code, s', kind, s.nextNumber, hself, by omega, rfl⟩
    · rw [hmod, hjobs]
      simp only [List.map_append, hq, List.append_assoc]
      exact (List.perm_append_comm.append_left _).append_left _
    · by_cases hc : c = code
      · rw [hc, numberOf, numberOf, hself, hs, Option.elim_some, Option.elim_some, hn]
        exact Nat.le_refl _
      · rw [numberOf, station?_modifyStation_of_ne hc]
        exact Nat.le_add_right _ _

theorem putStation_handsOut (hf : net.Filed) (hs : net.station? s'.code = some s)
    (h : s.HandsOut s' ids) : net.HandsOut ids (net.putStation s') := by
  rw [putStation_eq_modifyStation hs]
  exact handsOut_modifyStation hf hs h

theorem drawn_handsOut (net : Network) (generator : Generator) :
    net.HandsOut [] { net with generator } := .of_eq (fun _ => rfl) rfl

/-! ### New jobs -/

theorem createJob_handsOut (hf : net.Filed)
    (h : net.createJob code kind destination cars cargo wage = .ok (id, net')) :
    net.HandsOut [id] net' := by
  obtain ⟨s, overflow, hs, rfl, rfl⟩ := createJob_eq_ok h
  exact handsOut_modifyStation hf hs (.next kind rfl (by rw [List.map_append]; rfl))

theorem seedLoad_handsOut (hf : net.Filed) (h : net.seedLoad code cargo = .ok (id, net')) :
    net.HandsOut [id] net' := by
  obtain ⟨generator, cars, wage, -, hjob⟩ := exists_createJob_of_seedLoad h
  exact (net.drawn_handsOut generator).trans (createJob_handsOut hf hjob)

/-- A generative processor brings a load along, and so an id. -/
theorem addProcessor_handsOut {p : Processor} {seeded : Option JobId} (hf : net.Filed)
    (h : net.addProcessor code p = .ok (seeded, net')) : net.HandsOut seeded.toList net' := by
  rw [addProcessor] at h
  split at h
  · cases h
    exact .refl net
  · rename_i s hs
    have hadded : net.HandsOut [] (net.modifyStation code (·.addProcessor p)) := by
      rw [modifyStation_congr hs (g := fun _ => s.addProcessor p) rfl]
      exact handsOut_modifyStation hf hs (.none rfl rfl)
    have hfiled : (net.modifyStation code (·.addProcessor p)).Filed :=
      hf.modifyStation fun u hu => hf code u hu
    simp only at h
    split at h
    · obtain ⟨⟨id, n⟩, hseed, h⟩ := Faulty.bind_eq_ok_iff.1 h
      cases h
      exact hadded.trans (seedLoad_handsOut hfiled hseed)
    · cases h
      exact hadded

/-! ### Dispatch -/

/-- Output is folded into the queue of a station that has the numbers and the queue of the one
    it takes the place of. -/
theorem foldAt_handsOut {s₀ : Station} (hf : net.Filed)
    (h : net.foldAt s cargo count d = .ok (d', net')) (hs : net.station? s.code = some s₀)
    (hn : s.nextNumber = s₀.nextNumber) (hq : s.queue = s₀.queue) :
    ∃ ids, d'.created = d.created ++ ids ∧ ids.length ≤ 1 ∧ net.HandsOut ids net' := by
  obtain ⟨⟨folded, s'⟩, hfold, h⟩ := Faulty.bind_eq_ok_iff.1 h
  cases h
  refine ⟨folded.newIds, d.created_record folded, ?_, ?_⟩
  · rcases folded with ⟨job, -⟩ | ⟨job, -⟩ <;> simp [Folded.newIds]
  · have hcode := (Station.fold_change hfold).code_eq
    exact putStation_handsOut hf (hcode ▸ hs)
      ((Station.fold_handsOut hfold).of_eq (hf _ s₀ hs).symm hn hq)

theorem forward_handsOut {p : Processor} {load : Job} (hf : net.Filed)
    (h : net.forward s p load d = .ok (d', net')) :
    ∃ ids, d'.created = d.created ++ ids ∧ ids.length ≤ 1 ∧ net.HandsOut ids net' := by
  rcases forward_eq_ok h with ⟨generator, -, rfl, rfl⟩ | ⟨target, generator, id, -, rfl, hjob⟩
  · exact ⟨[], (List.append_nil _).symm, Nat.zero_le _, net.drawn_handsOut generator⟩
  · exact ⟨[id], rfl, Nat.le_refl _,
      (net.drawn_handsOut generator).trans (createJob_handsOut hf hjob)⟩

theorem replenish_handsOut {p : Processor} (hf : net.Filed)
    (h : net.replenish s p d = .ok (d', net')) :
    ∃ ids, d'.created = d.created ++ ids ∧ ids.length ≤ 1 ∧ net.HandsOut ids net' := by
  rcases replenish_eq_ok h with ⟨-, rfl, rfl⟩ | ⟨-, id, rfl, hseed⟩
  · exact ⟨[], (List.append_nil _).symm, Nat.zero_le _, .refl _⟩
  · exact ⟨[id], rfl, Nat.le_refl _, seedLoad_handsOut hf hseed⟩

theorem drainOverflow_handsOut (hf : net.Filed)
    (h : net.drainOverflow code cargo d = .ok (d', net')) :
    ∃ ids, d'.created = d.created ++ ids ∧ ids.length ≤ 1 ∧ net.HandsOut ids net' := by
  rcases drainOverflow_eq_ok h with ⟨-, rfl, rfl⟩ | ⟨s, hs, hdrained⟩
  · exact ⟨[], (List.append_nil _).symm, Nat.zero_le _, .refl _⟩
  · have hfound : net.station? (s.takeOverflow cargo).2.code = some s := (hf code s hs).symm ▸ hs
    rcases hdrained with ⟨-, rfl, rfl⟩ | ⟨-, hfold⟩
    · exact ⟨[], (List.append_nil _).symm, Nat.zero_le _,
        putStation_handsOut hf hfound (.none rfl rfl)⟩
    · exact foldAt_handsOut hf hfold hfound rfl rfl

/-- A finished job makes at most three new jobs, and the dispatch tells their ids. -/
theorem dispatch_handsOut (hf : net.Filed) (h : net.dispatch j = .ok (d, net')) :
    net.HandsOut d.created net' ∧ d.created.length ≤ 3 := by
  have hfound : ∀ {s : Station}, net.station? j.destination = some s →
      net.station? s.code = some s := fun {s} hs => by rw [hf _ s hs, hs]
  cases dispatched h with
  | lost | hauled => exact ⟨.refl net, Nat.zero_le _⟩
  | delivered hs _ hin =>
    have hs' := hfound hs
    obtain ⟨cursor, processors, rfl⟩ := Station.intake_eq_ok hin
    exact ⟨putStation_handsOut hf hs' (.none rfl rfl), Nat.zero_le _⟩
  | produced hs _ hin hfold =>
    have hs' := hfound hs
    obtain ⟨cursor, processors, rfl⟩ := Station.intake_eq_ok hin
    obtain ⟨ids, hids, hlength, hout⟩ := foldAt_handsOut hf hfold hs' rfl rfl
    rw [hids]
    exact ⟨hout, Nat.le_trans hlength (by decide)⟩
  | arrived hs _ _ hjob =>
    have hcode := (Station.addJob_change hjob (Nat.le_refl _)).code_eq
    exact ⟨putStation_handsOut hf (hcode ▸ hfound hs) (Station.addJob_handsOut hjob),
      Nat.le_add_left 1 2⟩
  | stranded _ _ _ hdrain =>
    obtain ⟨ids, hids, hlength, hout⟩ := drainOverflow_handsOut hf hdrain
    rw [hids]
    exact ⟨hout, Nat.le_trans hlength (by decide)⟩
  | shipped _ _ _ hfwd hrep hdrain =>
    have hf₁ := (forward_upkeptAt hfwd).upkept.filed hf
    have hf₂ := (replenish_upkeptAt hrep).upkept.filed hf₁
    obtain ⟨ids₁, hids₁, hlength₁, hout₁⟩ := forward_handsOut hf hfwd
    obtain ⟨ids₂, hids₂, hlength₂, hout₂⟩ := replenish_handsOut hf₁ hrep
    obtain ⟨ids₃, hids₃, hlength₃, hout₃⟩ := drainOverflow_handsOut hf₂ hdrain
    rw [hids₃, hids₂, hids₁]
    refine ⟨(hout₁.trans hout₂).trans hout₃, ?_⟩
    simp only [List.length_append, Dispatch.none, List.length_nil]
    omega

end Network

/-! ## Runs -/

/-- The ids that are handed out with the answer to an operation. -/
def Outcome.newIds : Outcome → List JobId
  | processorAdded seeded => seeded.toList
  | jobCreated id => [id]
  | moved transition => transition.created.map Job.id
  | _ => []

/-- The ids that were handed out, the first one first. -/
def handedOut (history : List Event) : List JobId :=
  history.reverse.flatMap fun e => e.outcome.newIds

/-- The ids of the jobs that were finished, the first one first. -/
def finished (history : List Event) : List JobId :=
  history.reverse.filterMap fun e => e.operation.finished? e.outcome

theorem handedOut_cons (e : Event) (history : List Event) :
    handedOut (e :: history) = handedOut history ++ e.outcome.newIds := by
  simp [handedOut]

theorem finished_cons (e : Event) (history : List Event) :
    finished (e :: history) = finished history ++ (e.operation.finished? e.outcome).toList := by
  simp only [finished, List.reverse_cons, List.filterMap_append, List.filterMap_cons]
  cases e.operation.finished? e.outcome <;> rfl

namespace Network

variable {net net' : Network} {op : Operation} {outcome : Outcome} {place : Place} {j : Job}
  {user : User} {id : JobId} {action : Action} {t : Transition}

theorem exists_of_ofReply_moved {reply : Reply Transition} (hgrant : outcome.isGrant)
    (h : Outcome.ofReply .moved reply = (outcome, net')) :
    ∃ t, outcome = .moved t ∧ reply = (.ok t, net') := by
  obtain ⟨cause | t, n⟩ := reply
  · cases h
    exact absurd hgrant nofun
  · cases h
    exact ⟨t, rfl, rfl⟩

/-- A reservation hands out no id. -/
theorem reserve_handsOut (hj : net.jobAt? place = some j)
    (hgranted : net.Granted user place j .reserve net')
    (hp : net.perform (.request .reserve user id) = .ok (outcome, net')) :
    net.HandsOut outcome.newIds net' := by
  obtain ⟨⟨cause | job, n⟩, -, hp⟩ := Faulty.bind_eq_ok_iff.1 hp
  all_goals
    obtain ⟨rfl, rfl⟩ := Prod.mk.inj (Except.ok.inj hp)
    cases hgranted
    exact handsOut_modifyJobAt hj fun _ => rfl

/-- A take hands out no id. -/
theorem take_handsOut (hjob : net.job? id = .ok (some j))
    (hcause : net.refusal? .take user id (some j) = none)
    (h : net.take user id = .ok (.ok t, net')) : net.HandsOut (t.created.map Job.id) net' := by
  obtain ⟨track, n, -, hn, rfl, -, hcreated⟩ := take_eq_ok hjob hcause h
  obtain ⟨place, hj, -, hmodify, -⟩ := exists_jobAt?_of_job? hjob
  obtain rfl := Except.ok.inj ((hmodify _).symm.trans hn)
  have hactivated := handsOut_modifyJobAt (f := (·.activate track)) hj fun _ => rfl
  rw [hcreated]
  exact hactivated.trans (revalidate_later _).alike.handsOut

/-- A finish hands out the ids of the jobs that it reports as created. -/
theorem finish_handsOut (hsafe : net.Safe) (hnumbered : net.Numbered)
    (hjob : net.job? id = .ok (some j)) (hcause : net.refusal? .finish user id (some j) = none)
    (h : net.finish user id = .ok (.ok t, net')) :
    ∃ place, net.jobAt? place = some j ∧
      (net.removeJobAt place).HandsOut (t.created.map Job.id) net' := by
  obtain ⟨m, d, n, hm, hd, rfl, -, hcreated⟩ := finish_eq_ok hjob hcause h
  obtain ⟨place, hj, -, -, hremove⟩ := exists_jobAt?_of_job? hjob
  obtain rfl := Except.ok.inj (hremove.symm.trans hm)
  have hremoved := hsafe.removeJobAt hj
  have hcars := (hsafe.fits_of_mem (mem_jobs_of_jobAt? hj)).cars_le
  have hup : (net.removeJobAt place).Upkept n.revalidate.2 :=
    (dispatch_upkeptAt hremoved.filed hcars hd).upkept.trans (revalidate_upkept n)
  have hout := (dispatch_handsOut hremoved.filed hd).1.trans (revalidate_later n).alike.handsOut
  rw [List.append_nil] at hout
  -- The new jobs are in the network by now, so they are all found by their ids.
  have hids : t.created.map Job.id = d.created :=
    ((hnumbered.removeJobAt hj).upkept hremoved.filed hup).map_id_of_jobsOf
      (hup.filed hremoved.filed)
      (fun id hid => hout.perm.mem_iff.2 (List.mem_append.2 (.inr hid))) hcreated
  rw [hids]
  exact ⟨place, hj, hout⟩

/-- An operation hands out the ids that it answers with, and no others. The job that it finishes
    has left the network before. -/
theorem perform_handsOut (hsafe : net.Safe) (hnumbered : net.Numbered)
    (hnew : KeepsStations net op) (hp : net.perform op = .ok (outcome, net')) :
    ∃ n : Network, (∀ id, n.Issued id ↔ net.Issued id) ∧
      (net.jobs.map Job.id).Perm (n.jobs.map Job.id ++ (op.finished? outcome).toList) ∧
      n.HandsOut outcome.newIds net' := by
  -- Unless a job is finished, all ids are handed out to the network as it is.
  have hstays (hnone : op.finished? outcome = none) (hout : net.HandsOut outcome.newIds net') :
      ∃ n : Network, (∀ id, n.Issued id ↔ net.Issued id) ∧
        (net.jobs.map Job.id).Perm (n.jobs.map Job.id ++ (op.finished? outcome).toList) ∧
        n.HandsOut outcome.newIds net' :=
    ⟨net, fun _ => Iff.rfl, by rw [hnone, Option.toList_none, List.append_nil], hout⟩
  cases op with
  | addStation code minCars maxCars =>
    cases hp
    exact hstays rfl (handsOut_addStation hnew minCars maxCars)
  | addProcessor code p =>
    obtain ⟨⟨seeded, n⟩, hadd, hp⟩ := Faulty.bind_eq_ok_iff.1 hp
    cases hp
    exact hstays rfl (addProcessor_handsOut hsafe.filed hadd)
  | createJob origin kind destination cars cargo wage =>
    obtain ⟨⟨id, n⟩, hjob, hp⟩ := Faulty.bind_eq_ok_iff.1 hp
    cases hp
    exact hstays rfl (createJob_handsOut hsafe.filed hjob)
  | revalidate =>
    cases hp
    exact hstays rfl net.revalidate_later.alike.handsOut
  | request action user id =>
    cases perform_request hp with
    | refused => exact hstays (by cases action <;> rfl) (.refl net)
    | @granted _ j _ _ hjob hcause hj hid hgrant hgranted =>
      cases action with
      | reserve => exact hstays rfl (reserve_handsOut hj hgranted hp)
      | take =>
        obtain ⟨reply, hr, hp⟩ := Faulty.bind_eq_ok_iff.1 hp
        obtain ⟨t, rfl, rfl⟩ := exists_of_ofReply_moved hgrant (Except.ok.inj hp)
        exact hstays rfl (take_handsOut hjob hcause hr)
      | finish =>
        obtain ⟨reply, hr, hp⟩ := Faulty.bind_eq_ok_iff.1 hp
        obtain ⟨t, rfl, rfl⟩ := exists_of_ofReply_moved hgrant (Except.ok.inj hp)
        obtain ⟨place, hj, hout⟩ := finish_handsOut hsafe hnumbered hjob hcause hr
        obtain ⟨before, after, hjobs, hremoved⟩ := exists_jobs_eq_of_removeJobAt hj
        refine ⟨_, fun _ => issued_removeJobAt, ?_, hout⟩
        rw [hjobs, hremoved, List.map_append, List.map_append, List.map_cons, hid]
        exact List.perm_middle.trans (List.perm_append_singleton _ _).symm

end Network

/-- The ids that a run of a network with lasting stations hands out differ, are issued in the
    end, and belong to the jobs that are there and to those that were finished. -/
theorem Run.handedOut {config : Config} {history : List Event} {net : Network}
    (h : Run KeepsStations config history net) :
    (handedOut history).Nodup ∧ (∀ id ∈ RailFreight.handedOut history, net.Issued id) ∧
      (RailFreight.handedOut history).Perm (net.jobs.map Job.id ++ finished history) := by
  induction h with
  | start => exact ⟨.nil, fun _ h => absurd h List.not_mem_nil, .refl _⟩
  | @step history net net' op outcome hrun hnew hp ih =>
    obtain ⟨hnodup, hissued, hperm⟩ := ih
    obtain ⟨n, hsame, hleft, hout⟩ :=
      Network.perform_handsOut hrun.reachable.safe hrun.reachable.numbered hnew hp
    rw [handedOut_cons, finished_cons]
    refine ⟨?_, fun id hid => ?_, ?_⟩
    · refine List.nodup_append'.2 ⟨hnodup, hout.nodup, fun id hid hid' => ?_⟩
      exact (hout.new id hid').1 ((hsame id).2 (hissued id hid))
    · rcases List.mem_append.1 hid with hid | hid
      · exact hout.issued id ((hsame id).2 (hissued id hid))
      · exact (hout.new id hid).2
    · refine List.perm_iff_count.2 fun id => ?_
      have hbefore := hperm.count_eq id
      have hleft := hleft.count_eq id
      have hafter := hout.perm.count_eq id
      simp only [List.count_append] at hbefore hleft hafter ⊢
      omega

/-- In a run of lasting stations no id is handed out twice, also not that of a finished job. In
    every network the ids are unique, whatever stations were replaced: a job is located by its id
    without a fault, at one station or none, and what is found is the job that is queued there. -/
theorem ids_unique (config : Config) :
    (∀ history net, Run KeepsStations config history net →
      (handedOut history).Nodup ∧
      (handedOut history).Perm (net.jobs.map Job.id ++ finished history)) ∧
    ∀ net, Reachable config net →
      (net.jobs.map Job.id).Nodup ∧
      (∀ id, (net.queuedAt id).length ≤ 1 ∧ net.locate id = .ok (net.queuedAt id).head?) ∧
      ∀ code s j, net.station? code = some s → j ∈ s.queue →
        net.locate j.id = .ok (some code) ∧ net.job? j.id = .ok (some j) := by
  refine ⟨fun history net hrun => ⟨hrun.handedOut.1, hrun.handedOut.2.2⟩, fun net hreachable => ?_⟩
  have hnumbered := hreachable.numbered
  have hfiled := hreachable.safe.filed
  refine ⟨hnumbered.nodup, fun id => ?_, fun code s j hs hj => ?_⟩
  · by_cases hid : ∃ j ∈ net.jobs, j.id = id
    · obtain ⟨j, hj, rfl⟩ := hid
      obtain ⟨code, s, hs, hj⟩ := Network.mem_jobs_iff.1 hj
      rw [Network.locate, (hnumbered.queuedAt_eq hfiled hs hj).1]
      exact ⟨Nat.le_refl _, rfl⟩
    · rw [Network.locate, Network.queuedAt_eq_nil fun j hj he => hid ⟨j, hj, he⟩]
      exact ⟨Nat.zero_le _, rfl⟩
  · have hmem := Network.mem_jobs_iff.2 ⟨code, s, hs, hj⟩
    rw [hnumbered.job?_eq_find? hfiled, hnumbered.find?_id hmem, Network.locate,
      (hnumbered.queuedAt_eq hfiled hs hj).1]
    exact ⟨rfl, rfl⟩

/-- The load of coal that goes on as freight leaves its id behind, which is handed out no more. -/
theorem shippedRun_ids_unique :
    ∃ history net, history.map Event.operation = shipment :: shippedRun.reverse ∧
      Run KeepsStations {} history net ∧ JobId.of .cm .shuntingLoad 2 ∈ finished history ∧
      (handedOut history).Nodup ∧
      (handedOut history).Perm (net.jobs.map Job.id ++ finished history) ∧
      (net.jobs.map Job.id).Nodup ∧
      (∀ id, (net.queuedAt id).length ≤ 1 ∧ net.locate id = .ok (net.queuedAt id).head?) ∧
      ∀ code s j, net.station? code = some s → j ∈ s.queue →
        net.locate j.id = .ok (some code) ∧ net.job? j.id = .ok (some j) := by
  have hcm : KeepsStations (.empty {}) (.addStation .cm 1 3) := rfl
  have hsm : KeepsStations ((Network.empty {}).addStation .cm 1 3) (.addStation .sm 1 3) := rfl
  have hstart : Run KeepsStations {} [_, _] _ := (Run.start.step hcm rfl).step hsm rfl
  have hrest : ((((Network.empty {}).addStation .cm 1 3).addStation .sm 1 3).performAll
      (shippedRun.drop 2)).toOption.any fun net =>
        (net.perform shipment).toOption.any fun result => result.1.isGrant := by
    decide +kernel
  cases hnet : (((Network.empty {}).addStation .cm 1 3).addStation .sm 1 3).performAll
      (shippedRun.drop 2) with
  | error fault => simp [hnet, Except.toOption] at hrest
  | ok net =>
    obtain ⟨later, hlater, hrun⟩ := hstart.performAll (by
      intro op hop n
      simp only [shippedRun, List.drop_succ_cons, List.drop_zero, List.mem_cons, List.not_mem_nil,
        or_false] at hop
      rcases hop with rfl | rfl | rfl | rfl | rfl <;> trivial) hnet
    have hgrant : (net.perform shipment).toOption.any fun result => result.1.isGrant := by
      rw [hnet] at hrest
      exact hrest
    cases hp : net.perform shipment with
    | error fault => simp [hp, Except.toOption] at hgrant
    | ok result =>
      have hgrant : result.1.isGrant := by
        rw [hp] at hgrant
        exact hgrant
      have hallowed : KeepsStations net shipment := trivial
      have hlast := hrun.step hallowed hp
      refine ⟨_, _, ?_, hlast, ?_, ((ids_unique {}).1 _ _ hlast).1, ((ids_unique {}).1 _ _ hlast).2,
        (ids_unique {}).2 _ hlast.reachable⟩
      · rw [List.map_cons, List.map_append, hlater]
        rfl
      · rw [finished_cons]
        exact List.mem_append.2 (.inr (by simp [shipment, Operation.finished?, hgrant]))

end RailFreight
