import RailFreight.Network.Audit
import RailFreight.Proofs.Places

/-!
# What the audit of the jobs finds

The audit collects the holders of each track in a table, one holding after the other. The
table lists for a track exactly its holders in the order of the jobs, so a track is reported
when it is held more than once, and the audit finds nothing exactly when every job passes
its own checks and no track is held twice.

* `Table.getD_foldl_insert`: a table of lists that is built up entry by entry;
* `Job.violations_eq_nil_iff`: the checks of one job;
* `Network.violations_eq_nil_iff`: the audit of all jobs.
-/

namespace RailFreight

/-- Entries collected under their keys: each key has its own ones, in order. -/
theorem Table.getD_foldl_insert {κ ν : Type} [Ranked κ] [DecidableEq κ] (xs : List (κ × ν))
    (table : Table κ (List ν)) (k : κ) :
    (xs.foldl (fun t e => t.insert e.1 (t.getD e.1 [] ++ [e.2])) table).getD k [] =
      table.getD k [] ++ (xs.filter fun e => e.1 = k).map Prod.snd := by
  induction xs generalizing table with
  | nil => simp
  | cons e xs ih =>
    rw [List.foldl_cons, ih, getD, get?_insert, List.filter_cons]
    by_cases hk : e.1 = k
    · subst hk
      simp [getD]
    · have hrank : rank e.1 ≠ rank k := fun h => hk (rank_injective h)
      simp [hk, hrank, getD]

/-! ## The checks of one job -/

/-- A job passes its checks when it stands in the queue of its origin, carries no more cars
    than allowed, holds an origin track if it is active, and has only tracks that suit it. -/
theorem Job.violations_eq_nil_iff {j : Job} {queuedAt : StationCode} {ceiling : Nat} :
    j.violations queuedAt ceiling = [] ↔
      j.origin = queuedAt ∧ j.cars ≤ ceiling ∧ (j.isActive → j.isSpawned) ∧
      (∀ t, j.originTrack = some t → t.station = j.origin ∧ t.role = j.kind.originRole) ∧
      ∀ t, j.targetTrack = some t →
        t.station = j.destination ∧ t.role = j.kind.destinationRole := by
  have hsuits : ∀ (station : StationCode) (role : TrackRole) (track : Option Track),
      ((track.filter fun t => t.station ≠ station || t.role ≠ role).toList.map
        (Violation.misplacedTrack j.id)) = [] ↔
      ∀ t, track = some t → t.station = station ∧ t.role = role := by
    intro station role track
    cases track with
    | none => simp
    | some t =>
      by_cases h : t.station = station ∧ t.role = role
      · simp [h.1, h.2]
      · have h' : t.station = station → ¬ t.role = role := fun h₁ h₂ => h ⟨h₁, h₂⟩
        by_cases h₁ : t.station = station <;> simp_all [Option.filter]
  simp only [violations, List.append_eq_nil_iff, hsuits, and_assoc]
  refine and_congr (by simp) (and_congr (by simp) (and_congr ?_ Iff.rfl))
  cases j.isActive <;> cases j.isSpawned <;> simp

/-! ## The holders of the tracks -/

namespace Network

variable {net : Network}

/-- The table of the holders lists for a track those that hold it, in the order of the jobs. -/
theorem getD_holders (net : Network) (t : Track) :
    net.holders.getD t [] = (net.holdings.filter fun e => e.1 = t).map Prod.snd :=
  Table.getD_foldl_insert net.holdings Table.empty t

theorem holdings_map_fst (net : Network) :
    net.holdings.map Prod.fst = net.jobs.flatMap Job.occupiedTracks := by
  rw [holdings, List.map_flatMap]
  refine List.flatMap_congr fun j _ => ?_
  rw [List.map_map]
  exact List.map_id _

/-- A track has as many holders as it is held times. -/
theorem length_getD_holders (net : Network) (t : Track) :
    (net.holders.getD t []).length = (net.jobs.flatMap Job.occupiedTracks).count t := by
  rw [getD_holders, List.length_map, ← holdings_map_fst, List.count_eq_countP, List.countP_map,
    List.countP_eq_length_filter]
  rfl

/-- No track is reported to have several holders exactly when none is held twice. -/
theorem forall_holders_le_one_iff :
    (∀ e ∈ net.holders.entries, ¬ 1 < e.2.length) ↔
      (net.jobs.flatMap Job.occupiedTracks).Nodup := by
  rw [List.nodup_iff_count_le_one]
  constructor
  · intro h t
    rw [← length_getD_holders, Table.getD]
    cases hids : net.holders.get? t with
    | none => exact Nat.zero_le 1
    | some ids => exact Nat.not_lt.1 (h (t, ids) (Table.mem_entries_iff.2 hids))
  · rintro h ⟨t, ids⟩ he
    have hids : net.holders.getD t [] = ids := by
      rw [Table.getD, Table.mem_entries_iff.1 he, Option.getD_some]
    rw [← hids, length_getD_holders]
    exact Nat.not_lt.2 (h t)

/-- The audit finds nothing when every job passes its checks and no track is held twice. -/
theorem violations_eq_nil_iff :
    net.violations = [] ↔
      (∀ s ∈ net.stationList, ∀ j ∈ s.queue, j.violations s.code net.config.maxCars = []) ∧
      (net.jobs.flatMap Job.occupiedTracks).Nodup := by
  rw [violations, List.append_eq_nil_iff, List.map_eq_nil_iff, List.filter_eq_nil_iff,
    ← forall_holders_le_one_iff]
  simp only [List.flatMap_eq_nil_iff, decide_eq_true_eq]

end Network

end RailFreight
