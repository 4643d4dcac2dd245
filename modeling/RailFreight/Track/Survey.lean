import RailFreight.Track.Basic
import RailFreight.Generator

/-!
# The survey of the tracks

Which tracks each station has, yard by yard. Three stations have not been surveyed and
have no tracks.

* `tracksOf_ascending`: the tracks of a role are listed in order, each once;
* `mem_tracksOf`: a listed track belongs to the station and has the role.
-/

namespace RailFreight

/-- The tracks of one role in one yard. -/
structure Yard where
  role : TrackRole
  letter : Char
  numbers : List UInt8

private def yard (role : TrackRole) (letter : Char) (numbers : List UInt8) : Yard :=
  ⟨role, letter, numbers⟩

/-- The yards of a station. -/
def yardsOf : StationCode → List Yard
  | .csw =>
    [yard .input 'C' [2, 3], yard .output 'C' [5], yard .storage 'C' [4], yard .loading 'C' [6]]
  | .cm =>
    [yard .input 'B' [1], yard .output 'B' [2, 3], yard .storage 'B' [5],
     yard .storage 'C' [1, 3], yard .loading 'A' [3]]
  | .ff =>
    [yard .input 'C' [4, 6], yard .input 'D' [2], yard .output 'C' [2, 3, 5, 7, 8],
     yard .storage 'A' [1], yard .storage 'C' [1], yard .storage 'D' [3, 4],
     yard .loading 'D' [1]]
  | .fm =>
    [yard .input 'B' [2], yard .output 'B' [5, 6], yard .storage 'B' [1, 3],
     yard .loading 'A' [1, 2, 3]]
  | .frc =>
    [yard .output 'B' [2], yard .output 'C' [4], yard .storage 'B' [4], yard .storage 'C' [1, 2],
     yard .loading 'B' [1]]
  | .gf =>
    [yard .input 'D' [5, 6], yard .output 'D' [2, 3, 4], yard .storage 'A' [2, 3],
     yard .storage 'B' [2, 3], yard .storage 'D' [1], yard .loading 'B' [1]]
  | .hb =>
    [yard .input 'C' [2], yard .input 'D' [4], yard .input 'E' [8, 9], yard .input 'G' [5],
     yard .output 'D' [3, 6], yard .output 'E' [1, 2, 3, 4, 5, 7, 10, 11], yard .output 'G' [3],
     yard .storage 'C' [1], yard .storage 'D' [1, 2, 5], yard .storage 'G' [1, 2, 6, 7],
     yard .loading 'C' [3], yard .loading 'D' [7]]
  | .ime =>
    [yard .input 'C' [4], yard .output 'B' [2, 4], yard .output 'C' [3], yard .storage 'B' [1],
     yard .storage 'C' [1], yard .loading 'A' [1]]
  | .imw =>
    [yard .input 'B' [2], yard .output 'B' [3, 4, 6], yard .storage 'B' [1, 7],
     yard .loading 'B' [8]]
  | .mf =>
    [yard .input 'C' [3, 4], yard .output 'B' [2, 4, 5], yard .storage 'B' [1, 6],
     yard .storage 'C' [2], yard .loading 'C' [1]]
  | .owc =>
    [yard .output 'B' [1, 3, 4, 5], yard .storage 'A' [2, 3], yard .storage 'B' [6],
     yard .loading 'A' [1]]
  | .own =>
    [yard .output 'B' [3, 4, 5], yard .output 'C' [3], yard .storage 'B' [2],
     yard .storage 'C' [1], yard .loading 'B' [6]]
  | .sw =>
    [yard .input 'B' [3], yard .input 'C' [3], yard .output 'C' [1], yard .storage 'B' [1],
     yard .storage 'C' [4], yard .loading 'B' [4]]
  | .sm =>
    [yard .input 'A' [6], yard .input 'B' [3], yard .output 'B' [1, 2, 4, 6],
     yard .storage 'B' [7, 8], yard .loading 'A' [7]]
  | .frs | .hmb | .mb => []

/-- The tracks of a role at a station, in order. -/
def tracksOf (station : StationCode) (role : TrackRole) : List Track :=
  (yardsOf station).flatMap fun y =>
    if y.role = role then y.numbers.map fun n => ⟨station, role, y.letter, n⟩ else []

/-- The tracks of a station, role by role. -/
def allTracksOf (station : StationCode) : List Track :=
  TrackRole.all.flatMap (tracksOf station)

/-- Draws a track of a role at a station, if there is one. -/
def randomTrack (station : StationCode) (role : TrackRole) (g : Generator) :
    Option Track × Generator :=
  g.pick (tracksOf station role)

/-- The tracks of a role are listed in order, each once. -/
theorem tracksOf_ascending (station : StationCode) (role : TrackRole) :
    (tracksOf station role).Pairwise fun a b => rank a < rank b := by
  cases station <;> cases role <;> decide +kernel

/-- A listed track belongs to the station and has the role. -/
theorem mem_tracksOf {station : StationCode} {role : TrackRole} {t : Track}
    (h : t ∈ tracksOf station role) : t.station = station ∧ t.role = role := by
  obtain ⟨y, _, ht⟩ := List.mem_flatMap.1 h
  split at ht
  · obtain ⟨n, _, rfl⟩ := List.mem_map.1 ht
    exact ⟨rfl, rfl⟩
  · exact absurd ht List.not_mem_nil

end RailFreight
