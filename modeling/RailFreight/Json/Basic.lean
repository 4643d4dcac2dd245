import RailFreight.Text.Scan

/-!
# JSON documents

A *document* keeps numbers and texts as they are written. What they stand for is worked
out where it is asked for (`Json.natural?`, `Json.string?`), so a text that stands for no
string, because half of a surrogate pair is missing, does harm only where it is read.
-/

namespace RailFreight

/-- A JSON document. -/
inductive Json
  | null
  | bool (b : Bool)
  /-- A number, as it is written. -/
  | number (literal : List Char)
  /-- A text, as it is written between its quotes. -/
  | text (literal : List Char)
  | list (items : List Json)
  /-- Members with their names, as they are written between quotes. -/
  | object (members : List (List Char × Json))
  deriving Inhabited

namespace Json

/-! ## Texts -/

/-- The letter that a character is escaped by, if it has one. -/
def escapeLetter? : Char → Option Char
  | '"' => some '"'
  | '\\' => some '\\'
  | '\x08' => some 'b'
  | '\t' => some 't'
  | '\n' => some 'n'
  | '\x0c' => some 'f'
  | '\r' => some 'r'
  | _ => none

/-- The character that a letter behind a backslash stands for. -/
def escaped? : Char → Option Char
  | '"' => some '"'
  | '\\' => some '\\'
  | '/' => some '/'
  | 'b' => some '\x08'
  | 'f' => some '\x0c'
  | 'n' => some '\n'
  | 'r' => some '\r'
  | 't' => some '\t'
  | _ => none

/-- Four hexadecimal digits. -/
def fourDigits (n : Nat) : List Char :=
  [n / 4096 % 16, n / 256 % 16, n / 16 % 16, n % 16].map Nat.digitChar

/-- How a character is written in a text. Only quotes, backslashes and control characters
    are escaped. -/
def escapeChar (c : Char) : List Char :=
  match escapeLetter? c with
  | some letter => ['\\', letter]
  | none => if c.toNat < 0x20 then '\\' :: 'u' :: fourDigits c.toNat else [c]

/-- How characters are written in a text. -/
def escape (cs : List Char) : List Char := cs.flatMap escapeChar

/-- A part of a written text: a character, or a unit of sixteen bits, which may be half of
    a pair. -/
inductive Unit16
  | char (c : Char)
  | unit (n : Nat)
  deriving DecidableEq, Repr

/-- The parts of a written text. -/
def parts : List Char → Option (List Unit16)
  | [] => some []
  | '\\' :: 'u' :: a :: b :: c :: d :: rest =>
    if [a, b, c, d].all (Text.isDigitOf 16) then
      (parts rest).map (.unit (Text.numeral 16 [a, b, c, d]) :: ·)
    else none
  | '\\' :: letter :: rest => do
    let c ← escaped? letter
    (parts rest).map (.char c :: ·)
  | c :: rest => (parts rest).map (.char c :: ·)

/-- Whether a unit opens a pair. -/
def opensPair (n : Nat) : Bool := 0xD800 ≤ n && n < 0xDC00

/-- Whether a unit closes a pair. -/
def closesPair (n : Nat) : Bool := 0xDC00 ≤ n && n < 0xE000

/-- The characters that parts stand for, unless half of a pair is missing. -/
def pair : List Unit16 → Option (List Char)
  | [] => some []
  | .char c :: rest => (pair rest).map (c :: ·)
  | .unit n :: .unit m :: rest =>
    if opensPair n then
      if closesPair m then
        (pair rest).map (Char.ofNat (0x10000 + (n - 0xD800) * 0x400 + (m - 0xDC00)) :: ·)
      else none
    else if closesPair n then none
    else (pair (.unit m :: rest)).map (Char.ofNat n :: ·)
  | .unit n :: rest =>
    if opensPair n || closesPair n then none else (pair rest).map (Char.ofNat n :: ·)

/-- The characters that a written text stands for. -/
def unescape? (literal : List Char) : Option (List Char) := (parts literal).bind pair

/-! ## What documents stand for -/

/-- The document of a string. -/
def ofString (s : String) : Json := .text (escape s.toList)

/-- The document of a natural number. -/
def ofNat (n : Nat) : Json := .number (Nat.toDigits 10 n)

/-- The document of a record with its named fields. -/
def record (fields : List (String × Json)) : Json :=
  .object (fields.map fun (name, value) => (escape name.toList, value))

/-- The document of a value that may be missing. -/
def optional {α : Type} (write : α → Json) : Option α → Json
  | none => .null
  | some a => write a

/-- The string that a text stands for. -/
def string? : Json → Option String
  | .text literal => (unescape? literal).map String.ofList
  | _ => none

/-- The natural number that a number stands for, if it is written with digits alone. -/
def natural? : Json → Option Nat
  | .number literal =>
    if literal.all Char.isDigit then some (Nat.ofDigitChars 10 literal 0) else none
  | _ => none

/-- The items of a list. -/
def list? : Json → Option (List Json)
  | .list items => some items
  | _ => none

/-- The members of an object, by their names. -/
def members? : Json → Option (List (String × Json))
  | .object members => members.mapM fun (name, value) => do
    return (String.ofList (← unescape? name), value)
  | _ => none

end Json

end RailFreight
