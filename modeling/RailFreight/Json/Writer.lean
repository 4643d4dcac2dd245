import RailFreight.Json.Basic

/-!
# Writing JSON

A document is written without blanks (`Json.compact`), or with one item or member to a
line, indented by two blanks for each level (`Json.pretty`).
-/

namespace RailFreight.Json

/-- A written text between its quotes. -/
def quoted (literal : List Char) : List Char := '"' :: literal ++ ['"']

/-- The characters of a word. -/
def word (b : Bool) : List Char := if b then "true".toList else "false".toList

mutual

/-- A document without blanks. -/
def write : Json → List Char
  | .null => "null".toList
  | .bool b => word b
  | .number literal => literal
  | .text literal => quoted literal
  | .list items => '[' :: writeItems items ++ [']']
  | .object members => '{' :: writeMembers members ++ ['}']

/-- Items with commas between them. -/
def writeItems : List Json → List Char
  | [] => []
  | [item] => item.write
  | item :: items => item.write ++ ',' :: writeItems items

/-- Members with commas between them. -/
def writeMembers : List (List Char × Json) → List Char
  | [] => []
  | [(name, value)] => quoted name ++ ':' :: value.write
  | (name, value) :: members => quoted name ++ ':' :: value.write ++ ',' :: writeMembers members

end

/-- A line end, and the indentation of a level. -/
def newLine (level : Nat) : List Char := '\n' :: List.replicate (2 * level) ' '

mutual

/-- A document with one item or member to a line, at a level. -/
def writePretty (level : Nat) : Json → List Char
  | .null => "null".toList
  | .bool b => word b
  | .number literal => literal
  | .text literal => quoted literal
  | .list [] => ['[', ']']
  | .list items => '[' :: writePrettyItems (level + 1) items ++ newLine level ++ [']']
  | .object [] => ['{', '}']
  | .object members => '{' :: writePrettyMembers (level + 1) members ++ newLine level ++ ['}']

/-- Items, each on a line of its own. -/
def writePrettyItems (level : Nat) : List Json → List Char
  | [] => []
  | [item] => newLine level ++ item.writePretty level
  | item :: items =>
    newLine level ++ item.writePretty level ++ ',' :: writePrettyItems level items

/-- Members, each on a line of its own. -/
def writePrettyMembers (level : Nat) : List (List Char × Json) → List Char
  | [] => []
  | [(name, value)] => newLine level ++ quoted name ++ ':' :: ' ' :: value.writePretty level
  | (name, value) :: members =>
    newLine level ++ quoted name ++ ':' :: ' ' :: value.writePretty level ++
      ',' :: writePrettyMembers level members

end

/-- The text of a document, without blanks. -/
def compact (j : Json) : String := String.ofList j.write

/-- The text of a document, with one item or member to a line. -/
def pretty (j : Json) : String := String.ofList (j.writePretty 0)

end RailFreight.Json
