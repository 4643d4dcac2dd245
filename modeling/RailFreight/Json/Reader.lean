import RailFreight.Json.Basic

/-!
# Reading JSON

A text is read as one document with blanks around it. Blanks are the space, the tab and
the line ends; numbers have no leading zeros, and a point or an exponent is followed by
digits; texts hold no control characters, and in them a backslash is followed by a known
letter, or by `u` and four hexadecimal digits.
-/

namespace RailFreight.Json

/-- Whether a character may stand between the parts of a document. -/
def isSpace (c : Char) : Bool := c = ' ' || c = '\t' || c = '\n' || c = '\r'

/-- The characters from the next that is no blank. -/
def skip (cs : List Char) : List Char := cs.dropWhile isSpace

/-- A text behind its opening quote, as it is written, up to its closing quote. -/
def readText : List Char → Option (List Char × List Char)
  | [] => none
  | '"' :: rest => some ([], rest)
  | '\\' :: 'u' :: a :: b :: c :: d :: rest =>
    if [a, b, c, d].all (Text.isDigitOf 16) then
      (readText rest).map fun (literal, rest) => ('\\' :: 'u' :: a :: b :: c :: d :: literal, rest)
    else none
  | '\\' :: letter :: rest =>
    if (escaped? letter).isSome then
      (readText rest).map fun (literal, rest) => ('\\' :: letter :: literal, rest)
    else none
  | c :: rest =>
    if c.toNat < 0x20 then none
    else (readText rest).map fun (literal, rest) => (c :: literal, rest)

/-- One digit or more. -/
def readDigits (cs : List Char) : Option (List Char × List Char) :=
  if (cs.takeWhile Char.isDigit).isEmpty then none
  else some (cs.takeWhile Char.isDigit, cs.dropWhile Char.isDigit)

/-- A point and digits, if there is a point. -/
def readFraction : List Char → Option (List Char × List Char)
  | '.' :: cs => (readDigits cs).map fun (digits, rest) => ('.' :: digits, rest)
  | cs => some ([], cs)

/-- A sign, if there is one. -/
def readSign : List Char → List Char × List Char
  | '+' :: cs => (['+'], cs)
  | '-' :: cs => (['-'], cs)
  | cs => ([], cs)

/-- A letter, a sign and digits, if there is the letter of an exponent. -/
def readExponent : List Char → Option (List Char × List Char)
  | [] => some ([], [])
  | c :: cs =>
    if c = 'e' || c = 'E' then
      let (sign, cs) := readSign cs
      (readDigits cs).map fun (digits, rest) => (c :: sign ++ digits, rest)
    else some ([], c :: cs)

/-- A number without a sign. -/
def readUnsigned (cs : List Char) : Option (List Char × List Char) := do
  let (whole, rest) ← readDigits cs
  guard (whole.head? ≠ some '0' ∨ whole.length = 1)
  let (fraction, rest) ← readFraction rest
  let (exponent, rest) ← readExponent rest
  return (whole ++ fraction ++ exponent, rest)

/-- A number. -/
def readNumber : List Char → Option (List Char × List Char)
  | '-' :: cs => (readUnsigned cs).map fun (literal, rest) => ('-' :: literal, rest)
  | cs => readUnsigned cs

/-- A word or a number. -/
def readScalar (cs : List Char) : Option (Json × List Char) :=
  match "null".toList.isPrefixOf? cs with
  | some rest => some (.null, rest)
  | none =>
    match "true".toList.isPrefixOf? cs with
    | some rest => some (.bool true, rest)
    | none =>
      match "false".toList.isPrefixOf? cs with
      | some rest => some (.bool false, rest)
      | none => (readNumber cs).map fun (literal, rest) => (.number literal, rest)

mutual

/-- A document, with blanks before it. The first argument bounds how far the reading goes;
    the length of the text is enough. -/
def readValue : Nat → List Char → Option (Json × List Char)
  | 0, _ => none
  | fuel + 1, cs =>
    match skip cs with
    | '"' :: rest => (readText rest).map fun (literal, rest) => (.text literal, rest)
    | '[' :: rest =>
      match skip rest with
      | ']' :: rest => some (.list [], rest)
      | rest => (readItems fuel rest).map fun (items, rest) => (.list items, rest)
    | '{' :: rest =>
      match skip rest with
      | '}' :: rest => some (.object [], rest)
      | rest => (readMembers fuel rest).map fun (members, rest) => (.object members, rest)
    | rest => readScalar rest

/-- Items with commas between them, up to the closing bracket. -/
def readItems : Nat → List Char → Option (List Json × List Char)
  | 0, _ => none
  | fuel + 1, cs =>
    match readValue fuel cs with
    | none => none
    | some (item, rest) =>
      match skip rest with
      | ']' :: rest => some ([item], rest)
      | ',' :: rest => (readItems fuel rest).map fun (items, rest) => (item :: items, rest)
      | _ => none

/-- Members with commas between them, up to the closing brace. -/
def readMembers : Nat → List Char → Option (List (List Char × Json) × List Char)
  | 0, _ => none
  | fuel + 1, cs =>
    match skip cs with
    | '"' :: rest =>
      match readText rest with
      | none => none
      | some (name, rest) =>
        match skip rest with
        | ':' :: rest =>
          match readValue fuel rest with
          | none => none
          | some (value, rest) =>
            match skip rest with
            | '}' :: rest => some ([(name, value)], rest)
            | ',' :: rest =>
              (readMembers fuel rest).map fun (members, rest) => ((name, value) :: members, rest)
            | _ => none
        | _ => none
    | _ => none

end

/-- The document that a text is, with blanks around it. -/
def ofText? (text : String) : Option Json :=
  match readValue (2 * text.length + 1) text.toList with
  | some (j, rest) => if (skip rest).isEmpty then some j else none
  | none => none

end RailFreight.Json
