/-!
# Paths of files

A path is a text of parts with slashes between them. An empty part and a part that is one
point stay where they are, two points lead back, and every other part is a name.

* `FilePath.join_of_absolute`: a path that starts at the root is not looked for in a folder.
-/

namespace RailFreight.FilePath

/-- The parts of a path. -/
def splitParts : List Char → List (List Char)
  | [] => [[]]
  | c :: cs =>
    if c = '/' then [] :: splitParts cs
    else
      match splitParts cs with
      | [] => [[c]]
      | part :: parts => (c :: part) :: parts

/-- Whether a part stays where it is. -/
def stays (part : List Char) : Bool := part = [] || part = ['.']

/-- Whether a part leads back. -/
def leadsBack (part : List Char) : Bool := part = ['.', '.']

/-- The parts of a path that do not stay where they are. -/
def steps (path : String) : List (List Char) :=
  (splitParts path.toList).filter fun part => !stays part

/-- The name of the file at the end of a path, unless the path ends by leading back. -/
def fileName? (path : String) : Option (List Char) :=
  ((steps path).getLast?).filter fun part => !leadsBack part

/-- What stands behind the last point of a name. A point at the start of a name does not
    count. -/
def extensionOf? (name : List Char) : Option (List Char) :=
  match name.reverse.span (· ≠ '.') with
  | (after, _ :: _ :: _) => some after.reverse
  | _ => none

/-- The extension of a path, without its point. -/
def extension? (path : String) : Option String :=
  ((fileName? path).bind extensionOf?).map String.ofList

/-- Whether a path starts at the root. -/
def isAbsolute (path : String) : Bool := path.toList.head? = some '/'

/-- The path of `inner` in a folder. -/
def join (folder inner : String) : String :=
  if isAbsolute inner then inner
  else if folder.toList.getLast?.all (· = '/') then folder ++ inner
  else folder ++ "/" ++ inner

/-- A path that starts at the root is not looked for in a folder. -/
theorem join_of_absolute {inner : String} (h : isAbsolute inner = true) (folder : String) :
    join folder inner = inner := by
  rw [join, if_pos h]

end RailFreight.FilePath
