import RailFreight.FilePath

/-!
# Files

What a program sees of files: the entry that a path leads to, if it leads anywhere. This
can be a view of a disk, or of a folder that is only thought of (`Files.inFolder`).
-/

namespace RailFreight

/-- What a path leads to. -/
inductive FileEntry
  | folder
  /-- A file that holds text. -/
  | text (content : String)
  /-- A file that holds no text. -/
  | binary
  deriving DecidableEq, Repr, Inhabited

/-- A file that holds bytes; text is written in UTF-8. -/
def FileEntry.ofBytes (bytes : ByteArray) : FileEntry :=
  match String.fromUTF8? bytes with
  | some content => .text content
  | none => .binary

/-- The entries that paths lead to. -/
abbrev Files := String → Option FileEntry

namespace Files

/-- Whether a path leads anywhere. -/
def present (files : Files) (path : String) : Bool := (files path).isSome

/-- The entry at the end of names, among entries of which the later count. A folder need
    not be listed where an entry in it is. -/
def entryAt? (entries : List (List (List Char) × FileEntry)) (names : List (List Char)) :
    Option FileEntry :=
  match entries.reverse.lookup names with
  | some entry => some entry
  | none =>
    if names = [] || entries.any (fun e => names.isPrefixOf e.1) then some .folder else none

/-- The entry to which parts lead from the end of names. Only a folder leads on, and
    nothing is known of what is outside. -/
def follow? (entries : List (List (List Char) × FileEntry)) :
    List (List Char) → List (List Char) → Option FileEntry
  | names, [] => entryAt? entries names
  | names, part :: parts =>
    if entryAt? entries names ≠ some .folder then none
    else if FilePath.stays part then follow? entries names parts
    else if FilePath.leadsBack part then
      if names = [] then none else follow? entries names.dropLast parts
    else follow? entries (names ++ [part]) parts

/-- A folder that holds entries, each with a path from the folder. Paths lead on from the
    folder, unless they start with the path of the folder itself. -/
def inFolder (folder : String) (entries : List (String × FileEntry)) : Files := fun path =>
  let entries := entries.map fun (path, entry) => (FilePath.steps path, entry)
  let inner := folder.toList ++ ['/']
  if path = "" then none
  else if inner.isPrefixOf path.toList then
    follow? entries [] (FilePath.splitParts (path.toList.drop inner.length))
  else if FilePath.isAbsolute path then none
  else follow? entries [] (FilePath.splitParts path.toList)

end Files

end RailFreight
