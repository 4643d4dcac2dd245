import RailFreight.Text.Blank

/-!
# Users

A user is known by a name, which is not blank and has no blanks at its ends.

* `User.ofText?_name`: the name of a user reads back as the user.
-/

namespace RailFreight

/-- A user, by name. -/
structure User where
  name : String
  /-- There are no blanks at the ends of the name. -/
  trimmed : Text.trim name = name
  /-- The name is not blank. -/
  nonempty : name ≠ ""
  deriving DecidableEq

namespace User

/-- The user whose name is `text` without the blanks around it; a blank text names none. -/
def ofText? (text : String) : Option User :=
  if h : Text.trim text = "" then none else some ⟨Text.trim text, Text.trim_trim text, h⟩

/-- What is said of a blank text given as a user name. -/
def blankMessage : String := "user name must not be empty"

/-- The name of a user reads back as the user. -/
theorem ofText?_name (u : User) : ofText? u.name = some u := by
  have h : Text.trim u.name ≠ "" := u.trimmed.symm ▸ u.nonempty
  rw [ofText?, dif_neg h]
  cases u
  simp only [Option.some.injEq, mk.injEq]
  assumption

end User

end RailFreight
