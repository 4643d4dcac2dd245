import RailFreight.Ron.Basic

/-!
# Blanks, names, texts and numbers in RON

Comments run to the end of their line, or between markers that nest. Names consist of
letters, digits and underscores; behind `r#` they may also hold points and signs. Texts
stand between double quotes and have escapes; behind `r` and the same number of hash
signs at each end they have none. Numbers are read as floating point where that takes
more of the text, or where they are no integers of 64 bits.
-/

namespace RailFreight.Ron

open Text (Scan isDigitOf numeral charOfCode?)

/-- Whether a character may stand between the parts of a document. -/
def isSpace (c : Char) : Bool := c = ' ' || c = '\t' || c = '\n' || c = '\r'

/-- What follows a comment between markers, of which `level` are open. -/
def blockEnd (level : Nat) : List Char → Option (List Char)
  | [] => none
  | '/' :: '*' :: rest => blockEnd (level + 1) rest
  | '*' :: '/' :: rest => if level ≤ 1 then some rest else blockEnd (level - 1) rest
  | _ :: rest => blockEnd level rest

/-- Blanks and comments. -/
def gap : Nat → Scan Unit
  | 0 => pure ()
  | fuel + 1 => do
    discard (Scan.many isSpace)
    if ← Scan.found "//" then
      discard (Scan.many (· ≠ '\n'))
      gap fuel
    else if ← Scan.found "/*" then
      fun cs => (blockEnd 1 cs).map ((), ·)
      gap fuel
    else guard ((← Scan.peek) ≠ some '/')

/-- Blanks and comments, as far as they go. -/
def gaps : Scan Unit := do gap ((← Scan.ahead).length + 1)

/-- A comma with blanks around it, if there is one. -/
def comma : Scan Bool := do
  gaps
  if ← Scan.found "," then
    gaps
    return true
  else return false

/-! ## Names -/

/-- Whether a name may start with a character. -/
def startsName (c : Char) : Bool := c.isAlpha || c = '_'

/-- Whether a name may go on with a character. -/
def inName (c : Char) : Bool := c.isAlphanum || c = '_'

/-- Whether a name behind `r#` may hold a character. -/
def inRawName (c : Char) : Bool := inName c || c = '.' || c = '+' || c = '-'

/-- A name behind `r#`. -/
def rawName : Scan String := do
  Scan.exactly "r#"
  return String.ofList (← Scan.many1 inRawName)

/-- A name that does not start a text. -/
def plainName : Scan String := do
  guard ((← Scan.peek).any startsName)
  let name ← Scan.many inName
  guard (name ≠ ['r'] ∨ !(← Scan.peek).all fun c => c = '"' || c = '#')
  return String.ofList name

/-- A name. -/
def name : Scan String := rawName <|> plainName

/-- A certain word. -/
def word (w : String) : Scan Unit := do
  Scan.exactly w
  guard !((← Scan.peek).any inName)

/-! ## Texts -/

/-- The character that a letter behind a backslash stands for. -/
def escaped? : Char → Option Char
  | '\'' => some '\''
  | '"' => some '"'
  | '\\' => some '\\'
  | 'n' => some '\n'
  | 'r' => some '\r'
  | 't' => some '\t'
  | '0' => some '\x00'
  | _ => none

/-- What a backslash stands for, behind it. -/
def escape : Scan Char := do
  let letter ← Scan.next
  if letter = 'x' then
    (charOfCode? (numeral 16 (← Scan.times 2 (isDigitOf 16))) : Option Char)
  else if letter = 'u' then
    Scan.exactly "\x7b"
    let digits ← Scan.many1 (isDigitOf 16)
    guard (digits.length ≤ 6)
    Scan.exactly "\x7d"
    (charOfCode? (numeral 16 digits) : Option Char)
  else (escaped? letter : Option Char)

/-- A text with escapes, behind its opening quote. -/
def escapedText : Nat → Scan (List Char)
  | 0 => failure
  | fuel + 1 => do
    let c ← Scan.next
    if c = '"' then return []
    else if c = '\\' then
      let c ← escape
      return c :: (← escapedText fuel)
    else return c :: (← escapedText fuel)

/-- A text without escapes up to `ending`. -/
def textUpTo (ending : List Char) : List Char → Option (List Char × List Char)
  | [] => none
  | c :: cs =>
    match ending.isPrefixOf? (c :: cs) with
    | some rest => some ([], rest)
    | none => (textUpTo ending cs).map fun (inside, rest) => (c :: inside, rest)

/-- A text without escapes. -/
def rawText : Scan (List Char) := do
  Scan.exactly "r"
  let hashes ← Scan.many (· = '#')
  Scan.exactly "\""
  (textUpTo ('"' :: hashes) : List Char → Option _)

/-- A text. -/
def quoted : Scan String := do
  if ← Scan.found "\"" then
    return String.ofList (← escapedText ((← Scan.ahead).length + 1))
  else return String.ofList (← rawText)

/-- A character between quotes. -/
def character : Scan Unit := do
  Scan.exactly "'"
  let c ← Scan.next
  if c = '\\' then discard escape else guard (c ≠ '\'')
  Scan.exactly "'"

/-! ## Numbers -/

/-- Whether a character is taken for part of an integer. -/
def inInteger (c : Char) : Bool := isDigitOf 16 c || c = '_'

/-- Whether a character is taken for part of a floating point number. -/
def inFloat (c : Char) : Bool :=
  c.isDigit || c = 'e' || c = 'E' || c = '.' || c = '+' || c = '-'

/-- An integer without a sign; underscores may stand anywhere behind its first digit. -/
def integer : Scan Nat := do
  let base ← (Scan.exactly "0x" *> pure 16) <|> (Scan.exactly "0b" *> pure 2) <|>
    (Scan.exactly "0o" *> pure 8) <|> pure 10
  let run ← Scan.many1 inInteger
  guard (run.head? ≠ some '_')
  let digits := run.filter (· ≠ '_')
  guard (digits.all (isDigitOf base))
  return numeral base digits

/-- A sign, if there is one; answers with whether there is, and whether it is a minus. -/
def sign : Scan (Option Bool) := do
  if ← Scan.found "-" then return some true
  else if ← Scan.found "+" then return some false
  else return none

/-- The digits of a floating point number with its exponent, without a sign: there are
    digits before or behind the point, and behind the letter of an exponent. -/
def mantissa : Scan Unit := do
  let whole ← Scan.many Char.isDigit
  let places ← if ← Scan.found "." then Scan.many Char.isDigit else pure []
  guard !(whole ++ places).isEmpty
  if (← Scan.attempt (Scan.one fun c => c = 'e' || c = 'E')).isSome then
    discard sign
    discard (Scan.many1 Char.isDigit)

/-- A floating point number. -/
def float : Scan Unit :=
  ["inf", "+inf", "-inf", "NaN", "+NaN", "-NaN"].foldr (fun w rest => word w <|> rest) do
    let run ← Scan.many inFloat
    match (do discard sign; mantissa : Scan Unit).run run with
    | some (_, []) => pure ()
    | _ => failure

/-- An integer of 64 bits. -/
def integer64 : Scan Ron := do
  match ← sign with
  | none =>
    let n ← integer
    guard (n < UInt64.size)
    return .natural n
  | some negative =>
    let n ← integer
    let bound := UInt64.size / 2
    guard (n < bound ∨ (negative ∧ n = bound))
    return .other

/-- Whether the text goes on longer as a floating point number than as an integer. -/
def looksFloat (cs : List Char) : Bool :=
  let cs := match cs with
    | c :: rest => if c = '+' || c = '-' then rest else c :: rest
    | [] => []
  (cs.takeWhile inInteger).length < (cs.takeWhile inFloat).length

/-- A number. -/
def number : Scan Ron := do
  if looksFloat (← Scan.ahead) then
    float
    return .other
  else integer64 <|> (float *> pure .other)

end RailFreight.Ron
