import RailFreight.Proofs.Issuing

/-!
# What a dispatch tells

When the cargo of a finished job takes effect, jobs are added to the queue of its destination, and
output is merged with a load that stands there. The dispatch names them all: the new jobs in the
order in which the station numbers them, and the load that output was merged with. Nothing else
happens to any job. A load that is named has got more cars, unless it was full: then all of the
output goes to the overflow, and the load is named although it is as it was.

* `Job.Filled`: what may become of a job;
* `Dispatch.Tells`: what a dispatch has to say of the way from one network to another;
* `Dispatch.Tells.queued`, `Dispatch.Tells.merge`: how a new job, or output that is merged with a
  load, adds to it;
* `Network.dispatch_tells`: what is told of a finished job.
-/

namespace RailFreight

/-- What becomes of a job while output is merged with the loads of those ids. Such a load is left
    as it is only if it is full, and any other job is left as it is. -/
structure Job.Filled (ceiling : Nat) (merged : List JobId) (j k : Job) : Prop where
  same : k = { j with cars := k.cars }
  mem : k.cars ≠ j.cars → j.id ∈ merged
  full : j.id ∈ merged → k.cars = j.cars → ceiling ≤ j.cars

namespace Job.Filled

variable {ceiling : Nat} {merged : List JobId} {j k : Job}

theorem id_eq (h : j.Filled ceiling merged k) : k.id = j.id := by rw [h.same]

theorem eq_of_cars (h : j.Filled ceiling merged k) (hcars : k.cars = j.cars) : k = j := by
  rw [h.same, hcars]

theorem of_notMem (h : j.id ∉ merged) : j.Filled ceiling merged j :=
  ⟨rfl, fun hne => absurd rfl hne, fun hid => absurd hid h⟩

/-- Where no output is merged, the job is as it was. -/
theorem eq_of_nil (h : j.Filled ceiling [] k) : k = j := by
  refine h.eq_of_cars ?_
  by_contra hne
  exact List.not_mem_nil (h.mem hne)

end Job.Filled

/-- What has happened on the way from `net` to `net'` is what the dispatch tells: output was merged
    with the loads that it names, and the jobs that it names are those that the station has
    numbered, in the order of their numbers. -/
structure Dispatch.Tells (d : Dispatch) (code : StationCode) (net net' : Network) : Prop where
  config_eq : net'.config = net.config
  kept : ∀ j ∈ net.jobs, ∃ k ∈ net'.jobs, j.Filled net.config.maxCars d.merged k
  number_eq : net'.numberOf code = net.numberOf code + d.created.length
  created_id : ∀ i id, d.created[i]? = some id →
    ∃ kind, id = JobId.of code kind (net.numberOf code + i)

variable {net n net' : Network} {code destination : StationCode} {s s₀ : Station} {d d' : Dispatch}
  {kind : JobKind} {cars wage count : Nat} {cargo : Cargo} {id : JobId}

namespace Dispatch.Tells

theorem none (code : StationCode) (net : Network) : Dispatch.none.Tells code net net where
  config_eq := rfl
  kept j hj := ⟨j, hj, .of_notMem List.not_mem_nil⟩
  number_eq := rfl
  created_id _ _ h := nomatch h

theorem drawn (h : d.Tells code net n) (generator : Generator) :
    d.Tells code net { n with generator } :=
  ⟨h.config_eq, h.kept, h.number_eq, h.created_id⟩

theorem numberOf_modifyStation_self (hs : n.station? code = some s) (f : Station → Station) :
    (n.modifyStation code f).numberOf code = (f s).nextNumber := by
  rw [Network.numberOf, Network.station?_modifyStation_self hs, Option.elim_some]

theorem numberOf_of_station? (hs : n.station? code = some s) : n.numberOf code = s.nextNumber := by
  rw [Network.numberOf, hs, Option.elim_some]

/-- Whatever else is changed at the station, nothing need be told of it. -/
theorem changed (h : d.Tells code net n) (hs : n.station? code = some s) (f : Station → Station)
    (hnumber : (f s).nextNumber = s.nextNumber) (hqueue : (f s).queue = s.queue) :
    d.Tells code net (n.modifyStation code f) where
  config_eq := h.config_eq
  kept := by
    obtain ⟨before, after, hjobs, hmod⟩ := Network.exists_jobs_eq hs
    rw [hmod, hqueue, ← hjobs]
    exact h.kept
  number_eq := by
    rw [numberOf_modifyStation_self hs, hnumber, ← numberOf_of_station? hs]
    exact h.number_eq
  created_id := h.created_id

/-- A new job is told with the next number. -/
theorem queued (h : d.Tells code net n) (hs : n.station? code = some s) (f : Station → Station)
    (hnumber : (f s).nextNumber = s.nextNumber + 1) {k : Job}
    (hqueue : (f s).queue = s.queue ++ [k]) :
    (d.create (.of code kind s.nextNumber)).Tells code net (n.modifyStation code f) where
  config_eq := h.config_eq
  kept j hj := by
    obtain ⟨before, after, hjobs, hmod⟩ := Network.exists_jobs_eq hs
    obtain ⟨l, hl, hfilled⟩ := h.kept j hj
    refine ⟨l, ?_, hfilled⟩
    rw [hjobs] at hl
    rw [hmod, hqueue]
    simp only [List.mem_append] at hl ⊢
    tauto
  number_eq := by
    have hbefore := h.number_eq
    rw [numberOf_of_station? hs] at hbefore
    rw [numberOf_modifyStation_self hs, hnumber, hbefore, create, List.length_append]
    rfl
  created_id i id hid := by
    have hbefore := h.number_eq
    rw [numberOf_of_station? hs] at hbefore
    rw [create, List.getElem?_append] at hid
    split at hid
    · exact h.created_id i id hid
    · rename_i hi
      obtain ⟨hlast, rfl⟩ := List.getElem?_eq_some_iff.1 hid
      have hi : i = d.created.length := by
        rw [List.length_singleton] at hlast
        omega
      exact ⟨kind, by simp [hbefore, hi]⟩

/-- The load that output is merged with is told. It gets no cars only if it is full. -/
theorem merge (h : d.Tells code net n) (hnone : d.merged = []) (hnumbered : n.Numbered)
    (hs : n.station? code = some s) (f : Station → Station) {before after : List Job} {load : Job}
    {rest : Nat} (hnumber : (f s).nextNumber = s.nextNumber)
    (hqueue : s.queue = before ++ load :: after)
    (hqueue' : (f s).queue = before ++ { load with cars } :: after)
    (hfull : cars = load.cars → n.config.maxCars ≤ load.cars) :
    (d.record (.merged load.id rest)).Tells code net (n.modifyStation code f) := by
  have hrecord : d.record (.merged load.id rest) = { d with merged := [load.id] } := by
    rw [record, hnone, if_neg List.not_mem_nil, List.nil_append]
  have hconfig := h.config_eq
  obtain ⟨front, back, hjobs, hmod⟩ := Network.exists_jobs_eq hs
  rw [hqueue] at hjobs
  rw [hrecord]
  refine ⟨h.config_eq, fun j hj => ?_, ?_, h.created_id⟩
  · obtain ⟨l, hl, hfilled⟩ := h.kept j hj
    rw [hnone] at hfilled
    obtain rfl := hfilled.eq_of_nil
    by_cases hload : l = load
    · subst hload
      refine ⟨{ l with cars }, by simp [hmod, hqueue'], rfl, fun _ => List.mem_singleton_self _, ?_⟩
      intro _ hcars
      rw [← hconfig]
      exact hfull hcars
    · have hid : l.id ≠ load.id := fun hid => hload (hnumbered.eq_of_id hl (by simp [hjobs]) hid)
      refine ⟨l, ?_, .of_notMem fun hmem => hid (List.mem_singleton.1 hmem)⟩
      rw [hjobs] at hl
      rw [hmod, hqueue']
      simp only [List.mem_append, List.mem_cons] at hl ⊢
      tauto
  · rw [numberOf_modifyStation_self hs, hnumber, ← numberOf_of_station? hs]
    exact h.number_eq

end Dispatch.Tells

/-! ## Functions that dispatch -/

namespace Network

open Dispatch (Tells)

/-- A station is put back where it was found. -/
theorem putStation_eq_of_code {s' : Station} (hs : net.station? code = some s)
    (hcode : s'.code = code) : net.putStation s' = net.modifyStation code fun _ => s' := by
  subst hcode
  exact putStation_eq_modifyStation hs

theorem createJob_tells (h : d.Tells code net n) (hf : n.Filed)
    (hjob : n.createJob code kind destination cars cargo wage = .ok (id, net')) :
    (d.create id).Tells code net net' := by
  obtain ⟨s, overflow, hs, rfl, rfl⟩ := createJob_eq_ok hjob
  rw [hf code s hs]
  exact h.queued hs _ rfl rfl

theorem forward_tells {p : Processor} {load : Job} (h : d.Tells s.code net n) (hf : n.Filed)
    (hfwd : n.forward s p load d = .ok (d', net')) :
    d'.Tells s.code net net' ∧ d'.merged = d.merged := by
  rcases forward_eq_ok hfwd with ⟨generator, -, rfl, rfl⟩ | ⟨target, generator, id, -, rfl, hjob⟩
  · exact ⟨h.drawn generator, rfl⟩
  · exact ⟨createJob_tells (h.drawn generator) hf hjob, rfl⟩

theorem replenish_tells {p : Processor} (h : d.Tells s.code net n) (hf : n.Filed)
    (hrep : n.replenish s p d = .ok (d', net')) :
    d'.Tells s.code net net' ∧ d'.merged = d.merged := by
  rcases replenish_eq_ok hrep with ⟨-, rfl, rfl⟩ | ⟨-, id, rfl, hseed⟩
  · exact ⟨h, rfl⟩
  · obtain ⟨generator, cars, wage, -, hjob⟩ := exists_createJob_of_seedLoad hseed
    exact ⟨createJob_tells (h.drawn generator) hf hjob, rfl⟩

/-- Output is folded into the queue of a station that has the numbers and the queue of the one it
    takes the place of. -/
theorem foldAt_tells (h : d.Tells code net n) (hnone : d.merged = []) (hnumbered : n.Numbered)
    (hs : n.station? code = some s₀) (hcode : s.code = code)
    (hnumber : s.nextNumber = s₀.nextNumber) (hqueue : s.queue = s₀.queue) (hcount : count ≠ 0)
    (hfold : n.foldAt s cargo count d = .ok (d', net')) : d'.Tells code net net' := by
  obtain ⟨⟨folded, s'⟩, hfolded, h'⟩ := Faulty.bind_eq_ok_iff.1 hfold
  cases h'
  have hcode' : s'.code = code := (Station.fold_change hfolded).code_eq.trans hcode
  rw [putStation_eq_of_code hs hcode']
  cases Station.folds hfolded with
  | merged hsplit _ _ hcars _ hrest =>
    obtain ⟨overflow, rfl⟩ := Station.addOverflow_eq_ok hrest
    refine h.merge hnone hnumbered hs _ hnumber (hqueue ▸ hsplit) rfl fun hsame => ?_
    omega
  | created _ _ _ hjob hrest =>
    obtain ⟨overflow, rfl⟩ := Station.addOverflow_eq_ok hrest
    obtain ⟨rfl, rfl⟩ := Station.addJob_eq_ok hjob
    rw [hcode, hnumber]
    exact h.queued hs _ rfl (by rw [hqueue])

theorem drainOverflow_tells (h : d.Tells code net n) (hnone : d.merged = []) (hf : n.Filed)
    (hnumbered : n.Numbered) (hdrain : n.drainOverflow code cargo d = .ok (d', net')) :
    d'.Tells code net net' := by
  rcases drainOverflow_eq_ok hdrain with ⟨-, rfl, rfl⟩ | ⟨s, hs, hdrained⟩
  · exact h
  have hcode : (s.takeOverflow cargo).2.code = code := hf code s hs
  rcases hdrained with ⟨-, rfl, rfl⟩ | ⟨hwaits, hfold⟩
  · rw [putStation_eq_of_code hs hcode]
    exact h.changed hs _ rfl rfl
  · exact foldAt_tells h hnone hnumbered hs hcode rfl rfl hwaits hfold

/-- What is made of a delivery is not nothing. -/
theorem made_ne_zero {made : Cargo × Nat} {s' : Station}
    (h : s.TakesIn cargo count (some made) s') : made.2 ≠ 0 := by
  generalize hproduced : some made = produced at h
  cases h with
  | lost => cases hproduced
  | accepted =>
    split at hproduced
    · cases hproduced
    · rename_i hsome
      cases hproduced
      intro hzero
      exact hsome (Bool.or_eq_true_iff.2 (.inl (decide_eq_true hzero)))

/-- All that the cargo of a finished job does to jobs is told. -/
theorem dispatch_tells {j : Job} (hf : net.Filed) (hnumbered : net.Numbered)
    (h : net.dispatch j = .ok (d, net')) : d.Tells j.destination net net' := by
  have hstart := Tells.none j.destination net
  cases dispatched h with
  | lost | hauled => exact hstart
  | @delivered s s' hs _ hin =>
    obtain ⟨cursor, processors, rfl⟩ := Station.intake_eq_ok hin
    have hcode : Station.code { s with cursor, processors } = j.destination := hf _ s hs
    rw [putStation_eq_of_code hs hcode]
    exact hstart.changed hs _ rfl rfl
  | @produced s s' made _ _ hs _ hin hfold =>
    have hmade := made_ne_zero (Station.takesIn hin)
    obtain ⟨cursor, processors, rfl⟩ := Station.intake_eq_ok hin
    have hcode : Station.code { s with cursor, processors } = j.destination := hf _ s hs
    exact foldAt_tells hstart rfl hnumbered hs hcode rfl rfl hmade hfold
  | @arrived s s' _ _ hs _ _ hjob =>
    have hcode := hf _ s hs
    have hcode' : s'.code = j.destination :=
      (Station.addJob_change hjob (Nat.le_refl _)).code_eq.trans hcode
    rw [putStation_eq_of_code hs hcode']
    obtain ⟨rfl, rfl⟩ := Station.addJob_eq_ok hjob
    rw [hcode]
    exact hstart.queued hs _ rfl rfl
  | stranded hs _ _ hdrain =>
    rw [hf _ _ hs] at hdrain
    exact drainOverflow_tells hstart rfl hf hnumbered hdrain
  | @shipped s p d₁ d₂ d n₁ n₂ _ hs _ _ hfwd hrep hdrain =>
    have hcode := hf _ s hs
    rw [← hcode] at hstart ⊢
    have hsent : net.Upkept n₁ := (forward_upkeptAt hfwd).upkept
    have hfiled := hsent.filed hf
    have hreplenished : net.Upkept n₂ := hsent.trans (replenish_upkeptAt hrep).upkept
    obtain ⟨htells₁, hmerged₁⟩ := forward_tells hstart hf hfwd
    obtain ⟨htells₂, hmerged₂⟩ := replenish_tells htells₁ hfiled hrep
    exact drainOverflow_tells htells₂ (hmerged₂.trans hmerged₁) (hreplenished.filed hf)
      (hnumbered.upkept hf hreplenished) hdrain

end Network

end RailFreight
