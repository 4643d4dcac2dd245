import RailFreight.Record
import RailFreight.Text.Scan

/-!
# RON documents

A RON document tells records, tuples, lists, maps and options apart by how they are
written. A record may be preceded by its name, which must then be the right one; a value
that may be missing is written out as an option, unless the document declares that the
word for a present value may be left out (`Ron.Document.implicitSome`). Such a document may
also run that word into a text without escapes. It does so only where a value may be
missing: what nobody asks for must be readable without knowing what is expected there
(`Ron.isSettled`).
-/

namespace RailFreight

/-- A RON value. -/
inductive Ron
  | text (s : String)
  /-- A natural number without a sign. -/
  | natural (n : Nat)
  /-- A boolean, a character, another number, a bare name or a map. -/
  | other
  | absent
  | present (value : Ron)
  /-- A text without escapes, right behind the word for a present value. -/
  | joined (s : String)
  | list (items : List Ron)
  | tuple (name : Option String) (items : List Ron)
  | record (name : Option String) (members : List (String × Ron))
  deriving Inhabited

namespace Ron

/-- A value with what the document declares. -/
structure Document where
  /-- Whether a present value may be written without the word for it. -/
  implicitSome : Bool
  value : Ron

mutual

/-- Whether a value can be read without knowing what is expected in its place. -/
def isSettled : Ron → Bool
  | .joined _ => false
  | .present v => v.isSettled
  | .list items => areSettled items
  | .tuple _ items => areSettled items
  | .record _ members => haveSettledMembers members
  | _ => true

/-- Whether all items are settled. -/
def areSettled : List Ron → Bool
  | [] => true
  | item :: items => item.isSettled && areSettled items

/-- Whether the values of all members are settled. -/
def haveSettledMembers : List (String × Ron) → Bool
  | [] => true
  | (_, v) :: members => v.isSettled && haveSettledMembers members

end

/-- Whether a record may be preceded by a name. -/
def nameFits (expected : String) (name : Option String) : Bool := name.all (· = expected)

/-- The fields of a record. The members that nobody asks for must be settled. -/
def fields? (expected : String) (names : List String) : Ron → Option (Fields Ron)
  | .record name members =>
    let unasked := members.filter fun member => !names.contains member.1
    if nameFits expected name && unasked.all (·.2.isSettled) then
      Fields.ofMembers? names members
    else none
  | .tuple name [] => if nameFits expected name then Fields.ofMembers? names [] else none
  | _ => none

/-- A natural number. -/
def natural? : Ron → Option Nat
  | .natural n => some n
  | _ => none

/-- A string. -/
def string? : Ron → Option String
  | .text s => some s
  | _ => none

/-- The items of a list. -/
def list? : Ron → Option (List Ron)
  | .list items => some items
  | _ => none

/-- A value that may be missing. -/
def optional? (implicitSome : Bool) : Ron → Option (Option Ron)
  | .absent => some none
  | .present v => some (some v)
  | .joined s => some (some (.text s))
  | v => if implicitSome then some (some v) else none

/-- How values are found in RON. -/
def dialect (implicitSome : Bool) : Dialect Ron where
  fields := fields?
  natural := natural?
  string := string?
  list := list?
  optional := optional? implicitSome

end Ron

end RailFreight
