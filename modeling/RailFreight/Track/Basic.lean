import RailFreight.StationCode

/-!
# Tracks

A *track* belongs to a station and has a role there; within the station it is told
apart by the letter of its yard and a number. Tracks are ordered by station, then role,
then yard, then number.

* `Track.rank_injective`: the rank of a track tells it apart, with any character as yard
  letter.
-/

namespace RailFreight

/-- What a track is used for. -/
inductive TrackRole
  | input | output | storage | loading
  deriving DecidableEq, Repr, Inhabited

namespace TrackRole

/-- The roles in order. -/
def all : List TrackRole := [input, output, storage, loading]

/-- The letter by which a role is written. -/
def letter : TrackRole → Char
  | input => 'I'
  | output => 'O'
  | storage => 'S'
  | loading => 'L'

/-- The name of a role: its letter as a text. -/
def name (r : TrackRole) : String := String.singleton r.letter

/-- The role of that name. -/
def ofName? (text : String) : Option TrackRole := all.find? fun r => r.name = text

/-- The place of a role in the order. -/
def index (r : TrackRole) : Nat := r.ctorIdx

theorem getElem?_index (r : TrackRole) : all[r.index]? = some r := by cases r <;> rfl

theorem index_lt (r : TrackRole) : r.index < 4 := by cases r <;> decide

theorem ofName?_name (r : TrackRole) : ofName? r.name = some r := by cases r <;> decide

instance : Ranked TrackRole where
  rank := index
  rank_injective h := Option.some.inj ((getElem?_index _).symm.trans (h ▸ getElem?_index _))

end TrackRole

/-- A track of a station. -/
structure Track where
  station : StationCode
  role : TrackRole
  /-- The letter of the yard. -/
  yard : Char
  number : UInt8
  deriving DecidableEq, Repr

namespace Track

/-- A number in at least two digits. -/
def twoDigits (n : Nat) : String := if n < 10 then "0" ++ toString n else toString n

/-- The name of a track: station, yard, number in two digits, role. -/
def name (t : Track) : String :=
  t.station.name ++ "-" ++ String.singleton t.yard ++ "-" ++ twoDigits t.number.toNat ++ "-" ++
    t.role.name

/-- A number for each track that ascends by station, role, yard and number. -/
def index (t : Track) : Nat :=
  ((t.station.index * 4 + t.role.index) * 0x110000 + t.yard.toNat) * 256 + t.number.toNat

theorem toNat_lt (c : Char) : c.toNat < 0x110000 := by
  have h := c.valid
  simp only [UInt32.isValidChar, Nat.isValidChar] at h
  show c.val.toNat < 0x110000
  omega

instance : Ranked Track where
  rank := index
  rank_injective := by
    rintro ⟨s, r, y, n⟩ ⟨s', r', y', n'⟩ h
    simp only [index] at h
    have hn := n.toNat_lt
    have hn' := n'.toNat_lt
    have hy := toNat_lt y
    have hy' := toNat_lt y'
    have hr := r.index_lt
    have hr' := r'.index_lt
    have e₁ : n = n' := UInt8.toNat_inj.1 (by omega)
    have e₂ : y = y' := Char.toNat_inj.1 (by omega)
    have e₃ : r = r' := rank_injective (show r.index = r'.index by omega)
    have e₄ : s = s' := rank_injective (show s.index = s'.index by omega)
    subst e₁ e₂ e₃ e₄
    rfl

end Track

end RailFreight
