import RailFreight.Proofs.Places
import Mathlib.Logic.Relation
import Mathlib.Logic.Function.Iterate

/-!
# Rounds of re-validation

A round is a sequence of visits, and a re-validation a sequence of rounds. A visit decides
about one job and changes at most its origin track and its proposal, so networks that come
from one another by visits are *alike*: they agree in everything else.

A network is *settled* when a round changes no job in it, that is, when every decision
about its jobs is to keep them as they are.

* `Network.visit_of_jobAt?`, `Network.visit_eq_self`: what one visit does;
* `Network.Later.alike`: what visits, in whatever order, leave alone;
* `Network.settled_iff`: a settled network keeps each of its jobs;
* `Network.rounds_snd`, `Network.rounds_eq_of_settled`: rounds are the repetition of one
  function, and they stop at the first settled network.
-/

namespace RailFreight

/-- The job without the tracks that a re-validation may change. -/
def Job.untracked (j : Job) : Job := { j with originTrack := none, proposedTrack := none }

@[simp]
theorem Job.untracked_after (j : Job) (d : Decision) : (j.after d).untracked = j.untracked := by
  cases d <;> rfl

/-- The station with its jobs untracked. -/
def Station.untracked (s : Station) : Station := { s with queue := s.queue.map Job.untracked }

namespace Network

variable {net net' : Network} {place : Place} {j : Job} {v : JobKind × Place}

/-! ## Visits -/

/-- A visit to a job of the kind whose turn it is carries out the decision about it. -/
theorem visit_of_jobAt? (h : net.jobAt? v.2 = some j) (hk : j.kind = v.1) :
    net.visit v =
      (decide (net.decision j ≠ .keep), net.modifyJobAt v.2 (·.after (net.decision j))) := by
  rw [visit, h]
  simp only [ne_eq, hk, not_true_eq_false, if_false]
  cases hd : net.decision j with
  | keep => simp [modifyJobAt_eq_self (f := (·.after .keep)) h rfl]
  | spawn | retarget | despawn => rfl

/-- A visit to any other place changes nothing. -/
theorem visit_eq_self (h : ∀ j, net.jobAt? v.2 = some j → j.kind ≠ v.1) :
    net.visit v = (false, net) := by
  rw [visit]
  cases hj : net.jobAt? v.2 with
  | none => rfl
  | some j => exact if_pos (h j hj)

/-- A visit changes nothing, or carries out the decision about the job visited. -/
theorem visit_snd_cases (net : Network) (v : JobKind × Place) :
    (net.visit v).2 = net ∨ ∃ j, net.jobAt? v.2 = some j ∧ j.kind = v.1 ∧
      (net.visit v).2 = net.modifyJobAt v.2 (·.after (net.decision j)) := by
  by_cases h : ∃ j, net.jobAt? v.2 = some j ∧ j.kind = v.1
  · obtain ⟨j, hj, hk⟩ := h
    exact .inr ⟨j, hj, hk, by rw [visit_of_jobAt? hj hk]⟩
  · rw [visit_eq_self fun j hj hk => h ⟨j, hj, hk⟩]
    exact .inl rfl

/-- A visit that reports no change makes none. -/
theorem visit_snd_eq_self (h : (net.visit v).1 = false) : (net.visit v).2 = net := by
  by_cases hj : ∃ j, net.jobAt? v.2 = some j ∧ j.kind = v.1
  · obtain ⟨j, hj, hk⟩ := hj
    rw [visit_of_jobAt? hj hk] at h ⊢
    have hd : net.decision j = .keep := by simpa using h
    rw [hd]
    exact modifyJobAt_eq_self (f := (·.after .keep)) hj rfl
  · rw [visit_eq_self fun j h hk => hj ⟨j, h, hk⟩]

/-- What a visit does to the job at a place. -/
theorem jobAt?_visit (h : net.jobAt? place = some j) (v : JobKind × Place) :
    (net.visit v).2.jobAt? place =
      some (if v = (j.kind, place) then j.after (net.decision j) else j) := by
  by_cases hv : v = (j.kind, place)
  · subst hv
    rw [visit_of_jobAt? h rfl, if_pos rfl, jobAt?_modifyJobAt, if_pos rfl, h, Option.map_some]
  · rw [if_neg hv]
    rcases visit_snd_cases net v with he | ⟨k, hk, hkind, he⟩
    · rw [he, h]
    · -- A visit to this place in the turn of another kind finds no job of that kind here.
      have hp : v.2 ≠ place := by
        intro hp
        obtain rfl : k = j := Option.some.inj (hk.symm.trans (hp ▸ h))
        exact hv (Prod.ext hkind.symm hp)
      rw [he, jobAt?_modifyJobAt, if_neg hp, h]

/-- `net'` comes from `net` by visits, in whatever order. -/
def Later : Network → Network → Prop := Relation.ReflTransGen fun a b => ∃ v, b = (a.visit v).2

theorem Later.refl (net : Network) : net.Later net := Relation.ReflTransGen.refl

theorem Later.trans {a b c : Network} (h : a.Later b) (h' : b.Later c) : a.Later c :=
  Relation.ReflTransGen.trans h h'

theorem Later.visit {a b : Network} (h : a.Later b) (v : JobKind × Place) :
    a.Later (b.visit v).2 := h.tail ⟨v, rfl⟩

/-! ## What visits leave alone -/

/-- The networks agree in everything but the origin tracks and the proposals of their jobs. -/
structure Alike (net net' : Network) : Prop where
  generator_eq : net'.generator = net.generator
  config_eq : net'.config = net.config
  untracked_eq : ∀ code,
    (net'.station? code).map Station.untracked = (net.station? code).map Station.untracked

theorem Alike.refl (net : Network) : net.Alike net := ⟨rfl, rfl, fun _ => rfl⟩

theorem Alike.symm (h : net.Alike net') : net'.Alike net :=
  ⟨h.generator_eq.symm, h.config_eq.symm, fun code => (h.untracked_eq code).symm⟩

theorem Alike.trans {a b c : Network} (h : a.Alike b) (h' : b.Alike c) : a.Alike c :=
  ⟨h'.generator_eq.trans h.generator_eq, h'.config_eq.trans h.config_eq,
    fun code => (h'.untracked_eq code).trans (h.untracked_eq code)⟩

theorem alike_modifyJobAt (net : Network) (place : Place) (d : Decision) :
    net.Alike (net.modifyJobAt place (·.after d)) := by
  refine ⟨rfl, rfl, ?_⟩
  intro code
  rw [modifyJobAt, station?_modifyStation]
  split
  · rw [Option.map_map]
    congr 1
    funext s
    have hq := map_modify_of_forall (fun j : Job => j.untracked_after d) s.queue place.2
    simp only [Function.comp, Station.untracked, hq]
  · rfl

theorem visit_alike (net : Network) (v : JobKind × Place) : net.Alike (net.visit v).2 := by
  rcases visit_snd_cases net v with h | ⟨j, -, -, h⟩
  · rw [h]
    exact .refl net
  · rw [h]
    exact alike_modifyJobAt net v.2 _

theorem Later.alike (h : net.Later net') : net.Alike net' := by
  induction h with
  | refl => exact .refl net
  | tail _ hv ih =>
    obtain ⟨v, rfl⟩ := hv
    exact ih.trans (visit_alike _ v)

theorem Alike.jobAt?_eq (h : net.Alike net') (place : Place) :
    (net'.jobAt? place).map Job.untracked = (net.jobAt? place).map Job.untracked := by
  have hq : ∀ n : Network, (n.jobAt? place).map Job.untracked =
      ((n.station? place.1).map Station.untracked).bind fun s => s.queue[place.2]? := by
    intro n
    rw [jobAt?]
    cases n.station? place.1 with
    | none => rfl
    | some s => exact (List.getElem?_map ..).symm
  rw [hq, hq, h.untracked_eq]

/-- A job of one of two networks that are alike stands in the other one, with tracks of its
    own. -/
theorem Alike.exists_jobAt? (h : net.Alike net') (hj : net.jobAt? place = some j) :
    ∃ j', net'.jobAt? place = some j' ∧ j'.untracked = j.untracked := by
  have he := h.jobAt?_eq place
  rw [hj, Option.map_some] at he
  exact Option.map_eq_some_iff.1 he

theorem Alike.entries_eq (h : net.Alike net') :
    (net'.stations.entries.map fun e => (e.1, e.2.untracked)) =
      net.stations.entries.map fun e => (e.1, e.2.untracked) := by
  have hmem : ∀ (n : Network) (e : StationCode × Station),
      e ∈ (n.stations.entries.map fun e => (e.1, e.2.untracked)) ↔
        (n.station? e.1).map Station.untracked = some e.2 := by
    rintro n ⟨code, u⟩
    rw [List.mem_map, Option.map_eq_some_iff]
    constructor
    · rintro ⟨⟨c, s⟩, he, heq⟩
      obtain ⟨rfl, rfl⟩ := Prod.mk.inj heq
      exact ⟨s, Table.mem_entries_iff.1 he, rfl⟩
    · rintro ⟨s, hs, rfl⟩
      exact ⟨(code, s), Table.mem_entries_iff.2 hs, rfl⟩
  -- The keys ascend on both sides, so it is enough that the entries are the same.
  refine Table.eq_of_mem_iff ?_ ?_ fun e => by rw [hmem, hmem, h.untracked_eq]
  · exact List.pairwise_map.2 net'.stations.ascending
  · exact List.pairwise_map.2 net.stations.ascending

/-- Networks that are alike have the same places. -/
theorem Alike.places_eq (h : net.Alike net') : net'.places = net.places := by
  have hp : ∀ n : Network, n.places = (n.stations.entries.map fun e => (e.1, e.2.untracked)).flatMap
      fun e => (List.range e.2.queue.length).map fun i => (e.1, i) := by
    intro n
    simp only [places_eq_flatMap, List.flatMap_map, Station.untracked, List.length_map]
  rw [hp, hp, h.entries_eq]

theorem Alike.jobCount_eq (h : net.Alike net') : net'.jobCount = net.jobCount := by
  rw [← length_places, ← length_places, h.places_eq]

/-- Networks that are alike list the same jobs, up to their tracks. -/
theorem Alike.jobs_eq (h : net.Alike net') :
    net'.jobs.map Job.untracked = net.jobs.map Job.untracked := by
  -- Seen as what stands at the places, the jobs can be compared one by one.
  have hj : ∀ n : Network, (n.jobs.map Job.untracked).map some =
      n.places.map fun place => (n.jobAt? place).map Job.untracked := by
    intro n
    rw [List.map_map, show some ∘ Job.untracked = Option.map Job.untracked ∘ some from rfl,
      ← List.map_map, jobs_map_some, List.map_map]
    rfl
  refine List.map_injective_iff.2 (fun _ _ => Option.some.inj) ?_
  rw [hj, hj, h.places_eq]
  exact List.map_congr_left fun place _ => h.jobAt?_eq place

/-- Networks that are alike and have the same jobs at their places are equal. -/
theorem Alike.eq_of_jobAt? (h : net.Alike net')
    (hj : ∀ place, net'.jobAt? place = net.jobAt? place) : net' = net := by
  have hstations : net'.stations = net.stations := by
    refine Table.ext_get? fun code => ?_
    have hu := h.untracked_eq code
    have hq : ∀ i, ((net'.station? code).bind fun s => s.queue[i]?) =
        (net.station? code).bind fun s => s.queue[i]? := fun i => hj (code, i)
    show net'.station? code = net.station? code
    cases hs : net.station? code with
    | none =>
      rw [hs, Option.map_none, Option.map_eq_none_iff] at hu
      exact hu
    | some s =>
      rw [hs, Option.map_some, Option.map_eq_some_iff] at hu
      obtain ⟨s', hs', hu⟩ := hu
      rw [hs, hs'] at hq
      -- Apart from the queues the stations are the same, and the queues have the same jobs.
      have hqueue : s'.queue = s.queue := List.ext_getElem? hq
      rw [hs']
      cases s
      cases s'
      simp_all [Station.untracked]
  have hgenerator := h.generator_eq
  have hconfig := h.config_eq
  cases net
  cases net'
  simp_all

/-- Networks that are alike and list the same jobs are equal. -/
theorem Alike.eq_of_jobs (h : net.Alike net') (hj : net'.jobs = net.jobs) : net' = net := by
  refine h.eq_of_jobAt? ?_
  intro place
  have hmap := congrArg (List.map some) hj
  rw [jobs_map_some, jobs_map_some, h.places_eq, List.map_inj_left] at hmap
  by_cases hp : place ∈ net.places
  · exact hmap place hp
  · have hnone : ∀ n : Network, n.places = net.places → n.jobAt? place = none := by
      intro n hn
      refine Option.eq_none_iff_forall_ne_some.2 fun j hj => hp ?_
      rw [← hn]
      exact mem_places_iff.2 ⟨j, hj⟩
    rw [hnone net' h.places_eq, hnone net rfl]

/-! ## Rounds -/

theorem visitAll_later (net : Network) (vs : List (JobKind × Place)) :
    net.Later (net.visitAll vs).2 := by
  induction vs generalizing net with
  | nil => exact .refl net
  | cons v vs ih => exact ((Later.refl net).visit v).trans (ih _)

/-- Each of the visits is made at some time. -/
theorem exists_visit_of_mem {vs : List (JobKind × Place)} (hv : v ∈ vs) :
    ∃ mid, net.Later mid ∧ (mid.visit v).2.Later (net.visitAll vs).2 := by
  induction vs generalizing net with
  | nil => exact absurd hv List.not_mem_nil
  | cons w vs ih =>
    rcases List.mem_cons.1 hv with rfl | hv
    · exact ⟨net, .refl net, visitAll_later _ vs⟩
    · obtain ⟨mid, hl, hl'⟩ := @ih (net.visit w).2 hv
      exact ⟨mid, ((Later.refl net).visit w).trans hl, hl'⟩

/-- Visits report no change together when none of them does alone. -/
theorem visitAll_fst_eq_false_iff {vs : List (JobKind × Place)} :
    (net.visitAll vs).1 = false ↔ ∀ v ∈ vs, (net.visit v).1 = false := by
  induction vs with
  | nil => simp [visitAll]
  | cons v vs ih =>
    -- The later visits start from the network itself, for the first one leaves it as it is.
    rw [List.forall_mem_cons, ← ih]
    show ((net.visit v).1 || ((net.visit v).2.visitAll vs).1) = false ↔ _
    rw [Bool.or_eq_false_iff]
    exact and_congr_right fun hv => by rw [visit_snd_eq_self hv]

theorem visitAll_snd_eq_self {vs : List (JobKind × Place)} (h : (net.visitAll vs).1 = false) :
    (net.visitAll vs).2 = net := by
  induction vs with
  | nil => rfl
  | cons v vs ih =>
    have hv := visit_snd_eq_self (visitAll_fst_eq_false_iff.1 h v List.mem_cons_self)
    have hvs := visitAll_fst_eq_false_iff.1 h
    show ((net.visit v).2.visitAll vs).2 = net
    rw [hv]
    exact ih (visitAll_fst_eq_false_iff.2 fun w hw => hvs w (List.mem_cons_of_mem _ hw))

theorem mem_visits_iff {kind : JobKind} : (kind, place) ∈ net.visits ↔ place ∈ net.places := by
  simp only [visits, List.mem_flatMap, List.mem_map, Prod.mk.injEq]
  exact ⟨fun ⟨_, _, _, hp, _, he⟩ => he ▸ hp,
    fun hp => ⟨kind, JobKind.mem_assignmentOrder kind, place, hp, rfl, rfl⟩⟩

/-- The network after a round. -/
def afterRound (net : Network) : Network := net.round.2

/-- A round changes no job. -/
def Settled (net : Network) : Prop := net.round.1 = false

instance (net : Network) : Decidable net.Settled := inferInstanceAs (Decidable (_ = _))

theorem afterRound_later (net : Network) : net.Later net.afterRound :=
  visitAll_later net net.visits

theorem iterate_later (net : Network) (n : Nat) : net.Later (afterRound^[n] net) := by
  induction n generalizing net with
  | zero => exact .refl net
  | succ n ih => exact net.afterRound_later.trans (ih _)

theorem Settled.afterRound_eq (h : net.Settled) : net.afterRound = net := visitAll_snd_eq_self h

/-- A network is settled when every decision about its jobs is to keep them. -/
theorem settled_iff : net.Settled ↔ ∀ j ∈ net.jobs, net.decision j = .keep := by
  rw [Settled, round, visitAll_fst_eq_false_iff]
  constructor
  · intro h j hj
    obtain ⟨place, hp⟩ := mem_jobs_iff_jobAt?.1 hj
    have hv := h (j.kind, place) (mem_visits_iff.2 (mem_places_iff.2 ⟨j, hp⟩))
    rw [visit_of_jobAt? hp rfl] at hv
    simpa using hv
  · intro h v _
    by_cases hj : ∃ j, net.jobAt? v.2 = some j ∧ j.kind = v.1
    · obtain ⟨j, hj, hk⟩ := hj
      rw [visit_of_jobAt? hj hk, h j (mem_jobs_of_jobAt? hj)]
      rfl
    · rw [visit_eq_self fun j h hk => hj ⟨j, h, hk⟩]

theorem rounds_succ_of_settled (h : net.Settled) (limit : Nat) :
    net.rounds (limit + 1) = (1, net) := by
  have hround : net.round = (false, net) := Prod.ext h h.afterRound_eq
  rw [rounds, hround]
  rfl

theorem rounds_succ_of_not_settled (h : ¬ net.Settled) (limit : Nat) :
    net.rounds (limit + 1) =
      ((net.afterRound.rounds limit).1 + 1, (net.afterRound.rounds limit).2) := by
  have hround : net.round = (true, net.afterRound) := Prod.ext (by simpa [Settled] using h) rfl
  rw [rounds, hround]
  rfl

/-- Rounds are the repetition of one function: a settled network would stay as it is. -/
theorem rounds_snd (net : Network) (limit : Nat) :
    (net.rounds limit).2 = afterRound^[limit] net := by
  induction limit generalizing net with
  | zero => rfl
  | succ limit ih =>
    by_cases h : net.Settled
    · rw [rounds_succ_of_settled h, Function.iterate_fixed h.afterRound_eq]
    · rw [rounds_succ_of_not_settled h, ih, Function.iterate_succ_apply]

/-- The rounds stop at the first settled network, if they come to one. -/
theorem rounds_eq_of_settled {n limit : Nat} (hn : n < limit)
    (hbefore : ∀ i < n, ¬ (afterRound^[i] net).Settled) (h : (afterRound^[n] net).Settled) :
    net.rounds limit = (n + 1, afterRound^[n] net) := by
  obtain ⟨limit, rfl⟩ : ∃ l, limit = l + 1 := ⟨limit - 1, by omega⟩
  induction n generalizing net limit with
  | zero => exact rounds_succ_of_settled h limit
  | succ n ih =>
    obtain ⟨limit, rfl⟩ : ∃ l, limit = l + 1 := ⟨limit - 1, by omega⟩
    have hnet : ¬ net.Settled := hbefore 0 (Nat.succ_pos n)
    rw [rounds_succ_of_not_settled hnet,
      ih (fun i hi => hbefore (i + 1) (Nat.succ_lt_succ hi)) h limit (by omega)]
    rfl

theorem revalidate_snd (net : Network) :
    net.revalidate.2 = afterRound^[net.jobCount + 2] net := by
  rw [← rounds_snd]
  rfl

theorem revalidate_later (net : Network) : net.Later net.revalidate.2 :=
  revalidate_snd net ▸ iterate_later net _

end Network

end RailFreight
