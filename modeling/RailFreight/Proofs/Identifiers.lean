import RailFreight.Proofs.Numbering
import RailFreight.Job.View

/-!
# Identifiers

Jobs and tracks are known outside by texts with dashes between their parts. What stands before a
dash tells its part, as long as it has no dash itself: codes have none, and neither have numbers.
The letter of a yard may be any character, a dash too, but it is one character, so what follows it
is found by counting. A number below ten is written with a zero before it, which changes nothing
of what it stands for.

* `Track.ofDigitChars_twoDigits`: the digits of a track stand for its number;
* `Track.name_inj`: a name tells its track;
* `Track.shown_eq_name_iff`: what is shown for a track that may be missing tells it;
* `identifiers_unambiguous`: ids of jobs and names of tracks are unambiguous.
-/

namespace RailFreight

theorem TrackRole.name_inj {r r' : TrackRole} (h : r.name = r'.name) : r = r' := by
  have hr := r.ofName?_name
  rw [h, r'.ofName?_name] at hr
  exact (Option.some.inj hr).symm

namespace Track

/-! ## Names of tracks -/

/-- A zero before the digits changes nothing of the number. -/
theorem ofDigitChars_twoDigits (n : Nat) : Nat.ofDigitChars 10 (twoDigits n).toList 0 = n := by
  rw [twoDigits, Nat.toString_eq_repr]
  split
  · rw [String.toList_append, Nat.toList_repr]
    exact Nat.ofDigitChars_ten_toDigits
  · rw [Nat.toList_repr, Nat.ofDigitChars_ten_toDigits]

theorem notMem_twoDigits (n : Nat) : '-' ∉ (twoDigits n).toList := by
  have hdigits : '-' ∉ Nat.toDigits 10 n := fun h =>
    absurd (Nat.isDigit_of_mem_toDigits (by decide) (by decide) h) (by decide)
  rw [twoDigits, Nat.toString_eq_repr]
  split
  · rw [String.toList_append, Nat.toList_repr, List.mem_append, not_or]
    exact ⟨by decide, hdigits⟩
  · rwa [Nat.toList_repr]

theorem toList_name (t : Track) :
    t.name.toList =
      t.station.name.toList ++ '-' :: t.yard :: '-' ::
        ((twoDigits t.number.toNat).toList ++ '-' :: t.role.name.toList) := by
  simp [name]

/-- A name tells its track. -/
theorem name_inj {t u : Track} (h : t.name = u.name) : t = u := by
  have hname := congrArg String.toList h
  rw [toList_name, toList_name] at hname
  obtain ⟨hstation, hname⟩ :=
    append_cons_inj_of_notMem_left t.station.notMem_name u.station.notMem_name hname
  -- The yard is one character, whichever it is; only the dash behind it ends the part.
  obtain ⟨hyard, hname⟩ := List.cons.inj hname
  obtain ⟨hnumber, hrole⟩ :=
    append_cons_inj_of_notMem_left (notMem_twoDigits _) (notMem_twoDigits _) (List.cons.inj hname).2
  have hnumber := congrArg (Nat.ofDigitChars 10 · 0) hnumber
  simp only [ofDigitChars_twoDigits] at hnumber
  obtain ⟨station, role, yard, number⟩ := t
  rw [Track.mk.injEq]
  exact ⟨StationCode.name_inj (String.toList_inj.1 hstation),
    TrackRole.name_inj (String.toList_inj.1 hrole), hyard, UInt8.toNat_inj.1 hnumber⟩

theorem name_ne_empty (t : Track) : t.name ≠ "" := by
  intro h
  have hname := congrArg String.toList h
  rw [toList_name] at hname
  exact absurd hname (by simp)

/-- What is shown for a track that may be missing tells the track. -/
theorem shown_eq_name_iff {track : Option Track} {t : Track} :
    (track.map name).getD "" = t.name ↔ track = some t := by
  cases track with
  | none => simpa using t.name_ne_empty.symm
  | some u => simpa using ⟨name_inj, congrArg name⟩

/-- Nothing is shown exactly for a missing track. -/
theorem shown_eq_empty_iff {track : Option Track} :
    (track.map name).getD "" = "" ↔ track = none := by
  cases track with
  | none => simp
  | some u => simpa using u.name_ne_empty

end Track

/-- Ids of jobs tell their station, kind and number, and names of tracks tell the track, with any
    character as the letter of the yard. So what is shown of a job tells its tracks: a name is
    shown for the track of that name only, and the empty name when the job has no track. -/
theorem identifiers_unambiguous :
    (∀ s k n s' k' n', JobId.of s k n = JobId.of s' k' n' ↔ s = s' ∧ k = k' ∧ n = n') ∧
    (∀ t u : Track, t.name = u.name ↔ t = u) ∧
    ∀ j : Job,
      (∀ t : Track, (j.view.startingTrack = t.name ↔ j.originTrack = some t) ∧
        (j.view.targetTrack = t.name ↔ j.targetTrack = some t)) ∧
      (j.view.startingTrack = "" ↔ j.originTrack = none) ∧
      (j.view.targetTrack = "" ↔ j.targetTrack = none) := by
  refine ⟨fun s k n s' k' n' => ⟨JobId.of_inj, ?_⟩, fun t u => ⟨Track.name_inj, congrArg _⟩,
    fun j => ⟨fun t => ⟨Track.shown_eq_name_iff, Track.shown_eq_name_iff⟩,
      Track.shown_eq_empty_iff, Track.shown_eq_empty_iff⟩⟩
  rintro ⟨rfl, rfl, rfl⟩
  rfl

/-- A dash as the letter of a yard, and a number of three digits. -/
example : (⟨.sm, .storage, '-', 107⟩ : Track).name = "SM---107-S" := by decide

end RailFreight
