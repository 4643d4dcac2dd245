/-!
# Columns and lines

A text in a column is filled up with blanks to the width of the column; a text that is
too wide is left as it is. Every line has a line end, the last one as well.
-/

namespace RailFreight.Text

/-- The text at the left of a column. -/
def leftAligned (width : Nat) (text : String) : String :=
  text ++ String.ofList (List.replicate (width - text.length) ' ')

/-- The text at the right of a column. -/
def rightAligned (width : Nat) (text : String) : String :=
  String.ofList (List.replicate (width - text.length) ' ') ++ text

/-- Parts with commas between them. -/
def commaSeparated (parts : List String) : String := ",".intercalate parts

/-- Lines, each with its line end. -/
def lines (lines : List String) : String := String.join (lines.map (· ++ "\n"))

end RailFreight.Text
