import RailFreight.Toml.Scalar

/-!
# Lines and values of TOML

A document is read line by line: values under keys, and headers of tables. Keys may be
dotted, and are written plain or between quotes. Lists may spread over lines and hold
comments; tables between braces stay on one line and end without a comma. Lists and
tables between braces are nested less than `nestingLimit` deep, and keys have fewer
parts.
-/

namespace RailFreight.Toml

open Text (Scan)

/-- The nesting of lists and tables that is too deep. -/
def nestingLimit : Nat := 80

/-- Whether a character may stand in a key that is written plain. -/
def isPlainKey (c : Char) : Bool := c.isAlphanum || c = '_' || c = '-'

/-- One part of a key. -/
def keyPart : Scan String := do
  match ← Scan.peek with
  | some '"' | some '\'' => return String.ofList (← (lineText : List Char → Option _))
  | _ => return String.ofList (← Scan.many1 isPlainKey)

/-- The further parts of a key, each behind a point. -/
def keyParts : Nat → Scan (List String)
  | 0 => failure
  | fuel + 1 => do
    if ← Scan.found "." then
      spaces
      let part ← keyPart
      spaces
      return part :: (← keyParts fuel)
    else return []

/-- A key, with blanks around its parts: the parts before the last one, and the last. -/
def key : Scan (List String × String) := do
  spaces
  let first ← keyPart
  spaces
  let parts := first :: (← keyParts (← Scan.ahead).length.succ)
  guard (parts.length < nestingLimit)
  return (parts.dropLast, parts.getLastD first)

/-- Blanks, line ends and comments. -/
def gap : Nat → Scan Unit
  | 0 => pure ()
  | fuel + 1 => do
    spaces
    match ← Scan.peek with
    | some '#' => do
      comment
      newline
      gap fuel
    | some '\n' | some '\r' => do
      newline
      gap fuel
    | _ => pure ()

/-- Blanks, line ends and comments, as far as they go. -/
def gaps : Scan Unit := do gap ((← Scan.ahead).length + 1)

/-- The entries with a value under a dotted key added. New tables on the way are dotted into
    being; a table that is there already must have come about in the same way. -/
def put (key : String) (v : Toml) : List String → Entries → Option Entries
  | [], entries => if entries.any (·.1 = key) then none else some (entries ++ [(key, v)])
  | k :: path, entries =>
    match entries.lookup k with
    | none => do return entries ++ [(k, .table .dotted (← put key v path []))]
    | some (.table standing inner) =>
      if standing = .dotted ∨ (standing = .implied ∧ path ≠ []) then do
        let inner ← put key v path inner
        return entries.map fun e => if e.1 = k then (k, .table standing inner) else e
      else none
    | some (.tables items) =>
      match items.getLast? with
      | some (.table standing inner) =>
        if path = [] then none else do
          let inner ← put key v path inner
          return entries.map fun e =>
            if e.1 = k then (k, .tables (items.dropLast ++ [.table standing inner])) else e
      | _ => none
    | some _ => none

mutual

/-- A value at a depth of nesting. The first argument bounds how far the reading goes. -/
def value : Nat → Nat → Scan Toml
  | 0, _ => failure
  | fuel + 1, depth => do
    match ← Scan.peek with
    | some '"' | some '\'' => return .text (String.ofList (← (text? : List Char → Option _)))
    | some '[' => do
      guard (depth + 1 < nestingLimit)
      Scan.exactly "["
      gaps
      if ← Scan.found "]" then return .array []
      return .array (← items fuel (depth + 1))
    | some '{' => do
      guard (depth + 1 < nestingLimit)
      Scan.exactly "\x7b"
      spaces
      if ← Scan.found "\x7d" then return .table .sealed []
      return .table .sealed (← members fuel (depth + 1) [])
    | some 't' => Scan.exactly "true" *> pure .other
    | some 'f' => Scan.exactly "false" *> pure .other
    | some 'i' => Scan.exactly "inf" *> pure .other
    | some 'n' => Scan.exactly "nan" *> pure .other
    | _ => dateOrTime <|> number

/-- The items of a list, up to the closing bracket. -/
def items : Nat → Nat → Scan (List Toml)
  | 0, _ => failure
  | fuel + 1, depth => do
    gaps
    let item ← value fuel depth
    gaps
    if ← Scan.found "]" then return [item]
    Scan.exactly ","
    gaps
    if ← Scan.found "]" then return [item]
    return item :: (← items fuel depth)

/-- The members of a table between braces, up to the closing brace, added to those that were
    read before. -/
def members : Nat → Nat → Entries → Scan Entries
  | 0, _, _ => failure
  | fuel + 1, depth, entries => do
    let (path, last) ← key
    Scan.exactly "="
    spaces
    let v ← value fuel depth
    spaces
    let entries ← (put last v path entries : Option Entries)
    if ← Scan.found "\x7d" then return entries
    Scan.exactly ","
    members fuel depth entries

end

/-- The rest of a line: blanks, and perhaps a comment. -/
def lineEnd : Scan Unit := do
  spaces
  if (← Scan.peek) = some '#' then comment
  newline <|> finish

/-- A header. -/
def header : Scan Line := do
  if ← Scan.found "[[" then
    let (path, last) ← key
    Scan.exactly "]]"
    return .arrayHeader path last
  else
    Scan.exactly "["
    let (path, last) ← key
    Scan.exactly "]"
    return .header path last

/-- A key with its value. -/
def entry : Scan Line := do
  let (path, last) ← key
  Scan.exactly "="
  spaces
  let v ← value (2 * (← Scan.ahead).length + 1) 0
  return .entry path last v

/-- The lines of a document, without those that are empty or hold only a comment. -/
def lines : Nat → Scan (List Line)
  | 0 => failure
  | fuel + 1 => do
    spaces
    match ← Scan.peek with
    | none => return []
    | some '#' => do
      lineEnd
      lines fuel
    | some '\n' | some '\r' => do
      newline
      lines fuel
    | some '[' => do
      let line ← header
      lineEnd
      return line :: (← lines fuel)
    | _ => do
      let line ← entry
      lineEnd
      return line :: (← lines fuel)

/-- The mark that may stand at the start of a document. -/
def byteOrderMark : Char := '\ufeff'

/-- The lines of a text. -/
def linesOf? (text : String) : Option (List Line) :=
  (do
    discard (Scan.attempt (Scan.one (· = byteOrderMark)))
    lines (text.length + 2)).whole? text

end RailFreight.Toml
