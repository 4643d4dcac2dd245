import RailFreight.Proofs.Audit
import Mathlib.Data.List.Nodup

/-!
# Findings of an audit of the jobs

What a finding says is so, and what is wrong is found, in whatever network: its jobs may stand in
any queues and have any tracks. A finding about one job tells a rule that the job breaks
(`Job.Breaks`). A finding about a track tells all who hold it, one after the other in the order of
the jobs, and twice a job that holds it at both ends; there is one such finding for each track
that is held more than once, and they come in the order of the tracks.

* `Job.mem_violations_iff`: the findings about one job;
* `Track.rank_lt_rank_iff`: tracks come by station, role, yard and number;
* `Network.heldBy`, `Network.getD_holders_eq_heldBy`: the table of the holders has for a track those
  who hold it;
* `Network.mem_contested_iff`: the tracks that are reported are those held more than once;
* `Network.violations_reported`: the audit finds nothing exactly when nothing is wrong, and what
  it finds is what is wrong.
-/

namespace RailFreight

/-! ## Rules for one job -/

/-- The rule that a job in the queue of a station breaks, under a ceiling on its cars, and what is
    to be said of it. -/
inductive Job.Breaks (j : Job) (queuedAt : StationCode) (ceiling : Nat) : Violation → Prop
  | wrongQueue (h : j.origin ≠ queuedAt) : Breaks j queuedAt ceiling (.wrongQueue j.id queuedAt)
  | overCeiling (h : ceiling < j.cars) :
    Breaks j queuedAt ceiling (.overCeiling j.id j.cars ceiling)
  | activeWithoutOrigin (hactive : j.isActive) (hqueued : ¬ j.isSpawned) :
    Breaks j queuedAt ceiling (.activeWithoutOrigin j.id)
  | misplacedOrigin {t : Track} (ht : j.originTrack = some t)
    (h : ¬ (t.station = j.origin ∧ t.role = j.kind.originRole)) :
    Breaks j queuedAt ceiling (.misplacedTrack j.id t)
  | misplacedTarget {t : Track} (ht : j.targetTrack = some t)
    (h : ¬ (t.station = j.destination ∧ t.role = j.kind.destinationRole)) :
    Breaks j queuedAt ceiling (.misplacedTrack j.id t)

/-- What is found in a job is that it breaks a rule. -/
theorem Job.mem_violations_iff {j : Job} {queuedAt : StationCode} {ceiling : Nat} {v : Violation} :
    v ∈ j.violations queuedAt ceiling ↔ j.Breaks queuedAt ceiling v := by
  have hunsuitable : ∀ (station : StationCode) (role : TrackRole) (track : Option Track),
      v ∈ (track.filter fun t => t.station ≠ station || t.role ≠ role).toList.map
        (Violation.misplacedTrack j.id) ↔
      ∃ t, track = some t ∧ ¬ (t.station = station ∧ t.role = role) ∧
        v = .misplacedTrack j.id t := by
    intro station role track
    simp only [List.mem_map, Option.mem_toList, Option.filter_eq_some_iff, Bool.or_eq_true,
      decide_eq_true_eq, not_and_or, ne_eq, and_assoc, @eq_comm _ _ v]
  simp only [violations, List.mem_append, hunsuitable]
  constructor
  · rintro ((((h | h) | h) | ⟨t, ht, h, rfl⟩) | ⟨t, ht, h, rfl⟩)
    · split at h
      · rename_i horigin
        exact List.mem_singleton.1 h ▸ .wrongQueue horigin
      · exact absurd h List.not_mem_nil
    · split at h
      · rename_i hcars
        exact List.mem_singleton.1 h ▸ .overCeiling hcars
      · exact absurd h List.not_mem_nil
    · split at h
      · rename_i hactive
        rw [Bool.and_eq_true, Bool.not_eq_true'] at hactive
        exact List.mem_singleton.1 h ▸ .activeWithoutOrigin hactive.1 (by simp [hactive.2])
      · exact absurd h List.not_mem_nil
    · exact .misplacedOrigin ht h
    · exact .misplacedTarget ht h
  · rintro (h | h | ⟨hactive, hqueued⟩ | ⟨ht, h⟩ | ⟨ht, h⟩)
    · exact .inl (.inl (.inl (.inl (by simp [h]))))
    · exact .inl (.inl (.inl (.inr (by simp [h]))))
    · exact .inl (.inl (.inr (by simp [hactive, hqueued])))
    · exact .inl (.inr ⟨_, ht, h, rfl⟩)
    · exact .inr ⟨_, ht, h, rfl⟩

/-! ## The order of the tracks -/

/-- A track comes before another one: by station, then role, then yard, then number. -/
def Track.Before (t u : Track) : Prop :=
  t.station.index < u.station.index ∨ t.station = u.station ∧
    (t.role.index < u.role.index ∨ t.role = u.role ∧
      (t.yard < u.yard ∨ t.yard = u.yard ∧ t.number < u.number))

/-- The rank of a track orders tracks by station, role, yard and number. -/
theorem Track.rank_lt_rank_iff {t u : Track} : rank t < rank u ↔ t.Before u := by
  have hs : t.station = u.station ↔ t.station.index = u.station.index := rank_eq_rank_iff.symm
  have hr : t.role = u.role ↔ t.role.index = u.role.index := rank_eq_rank_iff.symm
  have hy : t.yard = u.yard ↔ t.yard.toNat = u.yard.toNat := Char.toNat_inj.symm
  have hyards : t.yard < u.yard ↔ t.yard.toNat < u.yard.toNat := Iff.rfl
  rw [Before, hs, hr, hy, hyards, UInt8.lt_iff_toNat_lt]
  show t.index < u.index ↔ _
  have := t.role.index_lt
  have := u.role.index_lt
  have := toNat_lt t.yard
  have := toNat_lt u.yard
  have := t.number.toNat_lt
  have := u.number.toNat_lt
  rw [index, index]
  omega

namespace Network

variable {net : Network}

/-! ## Holders of tracks -/

/-- Who holds a track, in the order of the jobs. A job that holds it at both ends is named
    twice. -/
def heldBy (net : Network) (t : Track) : List JobId :=
  net.jobs.flatMap fun j =>
    (if j.originTrack = some t then [j.id] else []) ++
      if j.destinationTrack = some t then [j.id] else []

/-- No track is held twice, by two jobs or at both ends of one. -/
def HeldApart (net : Network) : Prop :=
  (∀ j ∈ net.jobs, ∀ t, ¬ (j.originTrack = some t ∧ j.destinationTrack = some t)) ∧
    net.jobs.Pairwise fun j k => ∀ t, ¬ (j.occupies t ∧ k.occupies t)

theorem nodup_occupiedTracks_iff {j : Job} :
    j.occupiedTracks.Nodup ↔ ∀ t, ¬ (j.originTrack = some t ∧ j.destinationTrack = some t) := by
  rw [Job.occupiedTracks]
  cases j.originTrack with
  | none => cases j.destinationTrack <;> simp
  | some o =>
    cases j.destinationTrack with
    | none => simp
    | some d => simp [eq_comm]

/-- No track is held twice when the tracks that the jobs hold are all different. -/
theorem heldApart_iff : net.HeldApart ↔ (net.jobs.flatMap Job.occupiedTracks).Nodup := by
  have hdisjoint : ∀ {j k : Job}, (∀ t, ¬ (j.occupies t ∧ k.occupies t)) ↔
      j.occupiedTracks.Disjoint k.occupiedTracks := by
    intro j k
    simp only [List.Disjoint, Job.mem_occupiedTracks, not_and, imp_false]
  rw [HeldApart, List.nodup_flatMap]
  exact and_congr (forall₂_congr fun j _ => nodup_occupiedTracks_iff.symm)
    (List.Pairwise.iff fun _ _ => hdisjoint)

/-- The table of the holders has those who hold a track, as they are found job by job. -/
theorem getD_holders_eq_heldBy (net : Network) (t : Track) :
    net.holders.getD t [] = net.heldBy t := by
  have hend : ∀ (id : JobId) (track : Option Track),
      ((track.toList.map fun u => (u, id)).filter fun e => e.1 = t).map Prod.snd =
        if track = some t then [id] else [] := by
    intro id track
    cases track with
    | none => rfl
    | some u => by_cases h : u = t <;> simp [h]
  rw [getD_holders, holdings, heldBy, List.filter_flatMap, List.map_flatMap]
  refine List.flatMap_congr fun j _ => ?_
  rw [Job.occupiedTracks, List.map_append, List.filter_append, List.map_append, hend, hend]

/-- The tracks that are held more than once, in order. -/
def contested (net : Network) : List Track :=
  (net.holders.entries.filter fun e => 1 < e.2.length).map Prod.fst

/-- The tracks that are held more than once come in order. -/
theorem pairwise_contested (net : Network) : net.contested.Pairwise Track.Before := by
  refine List.pairwise_map.2 ((net.holders.ascending.filter _).imp fun h => ?_)
  exact Track.rank_lt_rank_iff.1 h

/-- An entry of the table of the holders lists those who hold its track. -/
theorem eq_heldBy_of_mem {e : Track × List JobId} (he : e ∈ net.holders.entries) :
    e.2 = net.heldBy e.1 := by
  rw [← getD_holders_eq_heldBy, Table.getD, Table.mem_entries_iff.1 he, Option.getD_some]

theorem mem_contested_iff {t : Track} : t ∈ net.contested ↔ 2 ≤ (net.heldBy t).length := by
  rw [contested, List.mem_map]
  constructor
  · rintro ⟨e, he, rfl⟩
    obtain ⟨hmem, hmany⟩ := List.mem_filter.1 he
    rw [← eq_heldBy_of_mem hmem]
    exact of_decide_eq_true hmany
  · intro h
    have hget := getD_holders_eq_heldBy net t
    rw [Table.getD] at hget
    cases hids : net.holders.get? t with
    | none =>
      rw [hids, Option.getD_none] at hget
      rw [← hget] at h
      exact absurd h (by decide)
    | some ids =>
      rw [hids, Option.getD_some] at hget
      refine ⟨(t, ids), List.mem_filter.2 ⟨Table.mem_entries_iff.2 hids, decide_eq_true ?_⟩, rfl⟩
      rw [hget]
      exact h

/-- The tracks that are held more than once are reported one by one, with their holders. -/
theorem map_doubleOccupancy (net : Network) :
    ((net.holders.entries.filter fun e => 1 < e.2.length).map fun e =>
      Violation.doubleOccupancy e.1 e.2) =
      net.contested.map fun t => .doubleOccupancy t (net.heldBy t) := by
  rw [contested, List.map_map]
  refine List.map_congr_left fun e he => ?_
  rw [eq_heldBy_of_mem (List.mem_filter.1 he).1]
  rfl

/-! ## The audit -/

/-- The audit finds nothing exactly when every job stands in the queue of its origin, carries no
    more cars than allowed, has an origin track if it is active and only tracks that suit it, and
    no track is held twice. What it finds are first the rules that the jobs break, all of them,
    and then the tracks that are held more than once, each track once and in order, with its
    holders. -/
theorem violations_reported (net : Network) :
    (net.violations = [] ↔
      (∀ s ∈ net.stationList, ∀ j ∈ s.queue,
        j.origin = s.code ∧ j.cars ≤ net.config.maxCars ∧ (j.isActive → j.isSpawned) ∧
        (∀ t, j.originTrack = some t → t.station = j.origin ∧ t.role = j.kind.originRole) ∧
        ∀ t, j.targetTrack = some t →
          t.station = j.destination ∧ t.role = j.kind.destinationRole) ∧
      net.HeldApart) ∧
    ∃ (findings : List Violation) (tracks : List Track),
      net.violations = findings ++ tracks.map (fun t => .doubleOccupancy t (net.heldBy t)) ∧
      (∀ v, v ∈ findings ↔
        ∃ s ∈ net.stationList, ∃ j ∈ s.queue, j.Breaks s.code net.config.maxCars v) ∧
      tracks.Pairwise Track.Before ∧ ∀ t, t ∈ tracks ↔ 2 ≤ (net.heldBy t).length := by
  constructor
  · rw [violations_eq_nil_iff, heldApart_iff]
    simp only [Job.violations_eq_nil_iff]
  · refine ⟨_, net.contested, congrArg _ net.map_doubleOccupancy, fun v => ?_,
      net.pairwise_contested, fun t => mem_contested_iff⟩
    simp only [List.mem_flatMap, Job.mem_violations_iff]

/-- A load that is to end where it starts holds the one track twice, and the track does not suit
    its destination. -/
example :
    let t : Track := ⟨.cm, .storage, 'B', 5⟩
    let load : Job := { Job.queued (.of .cm .shuntingLoad 1) .shuntingLoad .cm .cm 2 .coal 5 with
      originTrack := some t, destinationTrack := some t }
    ((empty {}).putStation { Station.new .cm 1 3 with queue := [load] }).violations =
      [.misplacedTrack load.id t, .doubleOccupancy t [load.id, load.id]] := by decide

end Network

end RailFreight
