import RailFreight.Ron.Scalar

/-!
# Reading RON

What stands between parentheses is a record if it starts with a name and a colon, and a
tuple otherwise. Items and members are separated by commas, and a last comma is allowed.
A document may start with attributes that enable extensions.
-/

namespace RailFreight.Ron

open Text (Scan)

/-- How deep values may be nested. A list and each of its items count as one level each, and
    so do the other values that hold values; two parentheses with nothing between them count
    as none. -/
def nestingLimit : Nat := 128

/-- Whether a name and a colon come next. -/
def startsMember (cs : List Char) : Bool :=
  ((do discard name; gaps; Scan.exactly ":" : Scan Unit).run cs).isSome

/-- The word for a present value, run into a text without escapes. -/
def joinedText (implicitSome : Bool) : Scan Ron := do
  guard implicitSome
  Scan.exactly "Some"
  return .joined (String.ofList (← rawText))

mutual

/-- A value. The first argument bounds how far the reading goes, and the second one how deep
    values may still be nested. -/
def value (implicitSome : Bool) : Nat → Nat → Scan Ron
  | 0, _ => failure
  | fuel + 1, depth => do
    match ← Scan.attempt plainName with
    | some "true" | some "false" | some "inf" | some "NaN" => return .other
    | some "None" => return .absent
    | some "Some" => option implicitSome fuel depth
    | some n => named implicitSome fuel depth n
    | none =>
      match ← Scan.attempt rawName with
      | some n => named implicitSome fuel depth n
      | none =>
        match ← Scan.peek with
        | some '(' => do
          if ← Scan.found "()" then return .tuple none []
          parenthesised implicitSome fuel depth none
        | some '[' => do
          guard (0 < depth)
          Scan.exactly "["
          return .list (← items implicitSome fuel (depth - 1) "]")
        | some '\x7b' => do
          guard (0 < depth)
          Scan.exactly "\x7b"
          entries implicitSome fuel (depth - 1)
          return .other
        | some '.' => float *> pure .other
        | some '"' | some 'r' => return .text (← quoted)
        | some '\'' => character *> pure .other
        | _ => number
termination_by structural fuel => fuel

/-- What follows a name: a record or a tuple of that name, or nothing. -/
def named (implicitSome : Bool) : Nat → Nat → String → Scan Ron
  | 0, _, _ => failure
  | fuel + 1, depth, n => do
    gaps
    if (← Scan.peek) = some '(' then parenthesised implicitSome fuel depth (some n)
    else return .other
termination_by structural fuel => fuel

/-- The value behind the word for a present one. -/
def option (implicitSome : Bool) : Nat → Nat → Scan Ron
  | 0, _ => failure
  | fuel + 1, depth => do
    gaps
    if ← Scan.found "(" then
      gaps
      guard (0 < depth)
      let v ← value implicitSome fuel (depth - 1)
      discard comma
      Scan.exactly ")"
      return .present v
    else
      guard (implicitSome && 0 < depth)
      return .present (← value implicitSome fuel (depth - 1))
termination_by structural fuel => fuel

/-- A record or a tuple, behind its name. -/
def parenthesised (implicitSome : Bool) : Nat → Nat → Option String → Scan Ron
  | 0, _, _ => failure
  | fuel + 1, depth, name => do
    Scan.exactly "("
    guard (0 < depth)
    gaps
    if startsMember (← Scan.ahead) then
      return .record name (← members implicitSome fuel (depth - 1))
    else return .tuple name (← items implicitSome fuel (depth - 1) ")")
termination_by structural fuel => fuel

/-- Items with commas between them, up to the closing bracket. -/
def items (implicitSome : Bool) : Nat → Nat → String → Scan (List Ron)
  | 0, _, _ => failure
  | fuel + 1, depth, close => do
    gaps
    if ← Scan.found close then return []
    guard (0 < depth)
    let item ← value implicitSome fuel (depth - 1)
    if ← comma then return item :: (← items implicitSome fuel depth close)
    Scan.exactly close
    return [item]
termination_by structural fuel => fuel

/-- Members with commas between them, up to the closing parenthesis. -/
def members (implicitSome : Bool) : Nat → Nat → Scan (List (String × Ron))
  | 0, _ => failure
  | fuel + 1, depth => do
    gaps
    if ← Scan.found ")" then return []
    guard (0 < depth)
    let n ← name
    gaps
    Scan.exactly ":"
    gaps
    let v ← joinedText implicitSome <|> value implicitSome fuel (depth - 1)
    if ← comma then return (n, v) :: (← members implicitSome fuel depth)
    Scan.exactly ")"
    return [(n, v)]
termination_by structural fuel => fuel

/-- Entries of a map with commas between them, up to the closing brace. Nobody asks for their
    keys and values, which must be settled. -/
def entries (implicitSome : Bool) : Nat → Nat → Scan Unit
  | 0, _ => failure
  | fuel + 1, depth => do
    gaps
    if ← Scan.found "\x7d" then return
    guard (0 < depth)
    guard (← value implicitSome fuel (depth - 1)).isSettled
    gaps
    Scan.exactly ":"
    gaps
    guard (← value implicitSome fuel (depth - 1)).isSettled
    if ← comma then entries implicitSome fuel depth
    else Scan.exactly "\x7d"
termination_by structural fuel => fuel

end

/-- The extensions that a document may enable. -/
def extensions : List String := ["unwrap_newtypes", "implicit_some", "unwrap_variant_newtypes"]

/-- The extensions that an attribute lists, up to the end of the list. -/
def extensionList : Nat → Scan (List String)
  | 0 => failure
  | fuel + 1 => do
    let n ← name
    guard (extensions.contains n)
    let separated ← comma
    let next ← Scan.peek
    if separated && next.any startsName then return n :: (← extensionList fuel)
    else return [n]

/-- The extensions that the attributes at the start enable. -/
def attributes : Nat → Scan (List String)
  | 0 => failure
  | fuel + 1 => do
    gaps
    if ← Scan.found "#" then
      ["!", "[", "enable", "("].forM fun part => gaps *> Scan.exactly part
      gaps
      let enabled ← extensionList ((← Scan.ahead).length + 1)
      [")", "]"].forM fun part => gaps *> Scan.exactly part
      return enabled ++ (← attributes fuel)
    else return []

/-- A document. -/
def document : Scan Document := do
  let size := (← Scan.ahead).length
  let enabled ← attributes (size + 1)
  let implicitSome := enabled.contains "implicit_some"
  let v ← value implicitSome (3 * size + 3) nestingLimit
  gaps
  return ⟨implicitSome, v⟩

/-- The document of a text. -/
def ofText? (text : String) : Option Document := document.whole? text

end RailFreight.Ron
