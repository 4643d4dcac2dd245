import RailFreight.Table
import RailFreight.Text.Blank

/-!
# Station codes

The seventeen stations of the network, each with a short code of capital letters. The
order of the stations is the order in which they are declared; whatever runs over
stations runs in it.

* `StationCode.parse?_name`: every code reads back as its station.
-/

namespace RailFreight

/-- A station of the network. -/
inductive StationCode
  | csw | cm | ff | fm | frc | frs | gf | hb | hmb | ime | imw | mf | mb | owc | own | sw | sm
  deriving DecidableEq, Repr, Inhabited

namespace StationCode

/-- The stations in order. -/
def all : List StationCode :=
  [csw, cm, ff, fm, frc, frs, gf, hb, hmb, ime, imw, mf, mb, owc, own, sw, sm]

/-- The code by which a station is written. -/
def name : StationCode → String
  | csw => "CSW"
  | cm => "CM"
  | ff => "FF"
  | fm => "FM"
  | frc => "FRC"
  | frs => "FRS"
  | gf => "GF"
  | hb => "HB"
  | hmb => "HMB"
  | ime => "IME"
  | imw => "IMW"
  | mf => "MF"
  | mb => "MB"
  | owc => "OWC"
  | own => "OWN"
  | sw => "SW"
  | sm => "SM"

/-- The place of a station in the order. -/
def index (s : StationCode) : Nat := s.ctorIdx

theorem getElem?_index (s : StationCode) : all[s.index]? = some s := by cases s <;> rfl

theorem mem_all (s : StationCode) : s ∈ all := List.mem_of_getElem? (getElem?_index s)

instance : Ranked StationCode where
  rank := index
  rank_injective h := Option.some.inj ((getElem?_index _).symm.trans (h ▸ getElem?_index _))

/-- The station whose code is exactly `text`. -/
def ofName? (text : String) : Option StationCode := all.find? fun s => s.name = text

/-- The station whose code is `text`, with blanks around it and letters of either case
    allowed. -/
def parse? (text : String) : Option StationCode :=
  ofName? (String.ofList ((Text.trimBlanks text.toList).map Char.toUpper))

theorem ofName?_name (s : StationCode) : ofName? s.name = some s := by
  cases s <;> decide

/-- Every code reads back as its station. -/
theorem parse?_name (s : StationCode) : parse? s.name = some s := by
  cases s <;> decide

/-- What is said of a text that is no station code. -/
def unknownMessage (text : String) : String := "unknown station code '" ++ text ++ "'"

end StationCode

end RailFreight
