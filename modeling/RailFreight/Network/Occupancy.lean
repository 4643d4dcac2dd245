import RailFreight.Network.Basic
import RailFreight.Track.Survey

/-!
# Occupancy

Which job holds a track is nowhere stored: it is read off the jobs. A track that no job
holds is free; a proposal does not hold its track. Of several free tracks the first in
the order of the survey is chosen.

* `Network.mem_freeTracks`: the free tracks of a role are the surveyed ones that no job
  holds;
* `Network.firstFree?_eq_head?`: the first free track is the head of their list.
-/

namespace RailFreight.Network

/-- The job that holds a track. -/
def occupant? (net : Network) (t : Track) : Option Job := net.jobs.find? (·.occupies t)

/-- Whether no job holds a track. -/
def isFree (net : Network) (t : Track) : Bool := (net.occupant? t).isNone

/-- The free tracks of a role at a station, in order. -/
def freeTracks (net : Network) (station : StationCode) (role : TrackRole) : List Track :=
  (tracksOf station role).filter net.isFree

/-- The first free track of a role at a station, other than `excluded`. -/
def firstFreeExcept? (net : Network) (station : StationCode) (role : TrackRole)
    (excluded : Option Track) : Option Track :=
  (tracksOf station role).find? fun t => some t ≠ excluded && net.isFree t

/-- The first free track of a role at a station. -/
def firstFree? (net : Network) (station : StationCode) (role : TrackRole) : Option Track :=
  net.firstFreeExcept? station role none

theorem isFree_iff {net : Network} {t : Track} :
    net.isFree t ↔ ∀ j ∈ net.jobs, ¬ j.occupies t := by
  simp [isFree, occupant?]

/-- The free tracks of a role are the surveyed ones that no job holds. -/
theorem mem_freeTracks {net : Network} {station : StationCode} {role : TrackRole} {t : Track} :
    t ∈ net.freeTracks station role ↔
      t ∈ tracksOf station role ∧ ∀ j ∈ net.jobs, ¬ j.occupies t := by
  rw [freeTracks, List.mem_filter, isFree_iff]

/-- The first free track is the head of the list of free tracks. -/
theorem firstFree?_eq_head? (net : Network) (station : StationCode) (role : TrackRole) :
    net.firstFree? station role = (net.freeTracks station role).head? := by
  simp [firstFree?, firstFreeExcept?, freeTracks, List.head?_filter]

end RailFreight.Network
