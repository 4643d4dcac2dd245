import RailFreight.Toml.Basic

/-!
# Texts, numbers and dates in TOML

Texts stand between quotes, one or three at each end; those in double quotes have
escapes. Integers have 64 bits and a sign, and may be written in base two, eight, ten or
sixteen; single underscores may stand between digits. A floating point number must not be
so large that it rounds to infinity. Dates must exist.
-/

namespace RailFreight.Toml

open Text (Scan isDigitOf numeral charOfCode?)

/-- Whether a character may stand between the parts of a line. -/
def isSpace (c : Char) : Bool := c = ' ' || c = '\t'

/-- Blanks within a line. -/
def spaces : Scan Unit := discard (Scan.many isSpace)

/-- The end of a line. -/
def newline : Scan Unit := Scan.exactly "\n" <|> Scan.exactly "\r\n"

/-- The end of the document. -/
def finish : Scan Unit := do guard (← Scan.peek).isNone

/-- Whether a character may stand in comments and texts: the tab, and what is no control
    character. -/
def isPlain (c : Char) : Bool := c = '\t' || (0x20 ≤ c.toNat && c.toNat ≠ 0x7F)

/-- A comment. -/
def comment : Scan Unit := do
  Scan.exactly "#"
  discard (Scan.many isPlain)

/-! ## Texts -/

/-- The character that a letter behind a backslash stands for. -/
def escaped? : Char → Option Char
  | '"' => some '"'
  | '\\' => some '\\'
  | 'b' => some '\x08'
  | 't' => some '\t'
  | 'n' => some '\n'
  | 'f' => some '\x0c'
  | 'r' => some '\r'
  | _ => none

/-- The character of hexadecimal digits, if they are digits and it exists. -/
def codeChar? (digits : List Char) : Option Char :=
  if digits.all (isDigitOf 16) then charOfCode? (numeral 16 digits) else none

/-- Puts a character in front of a text that was read. -/
def front (c : Char) : Option (List Char × List Char) → Option (List Char × List Char) :=
  Option.map fun (cs, rest) => (c :: cs, rest)

/-- A text in double quotes, behind the opening quote. -/
def basic : List Char → Option (List Char × List Char)
  | [] => none
  | '"' :: rest => some ([], rest)
  | '\\' :: 'u' :: a :: b :: c :: d :: rest => do
    front (← codeChar? [a, b, c, d]) (basic rest)
  | '\\' :: 'U' :: a :: b :: c :: d :: e :: f :: g :: h :: rest => do
    front (← codeChar? [a, b, c, d, e, f, g, h]) (basic rest)
  | '\\' :: letter :: rest => do front (← escaped? letter) (basic rest)
  | c :: rest => if isPlain c then front c (basic rest) else none

/-- A text in single quotes, behind the opening quote. -/
def literal (cs : List Char) : Option (List Char × List Char) :=
  match cs.dropWhile fun c => c ≠ '\'' && isPlain c with
  | '\'' :: rest => some (cs.takeWhile fun c => c ≠ '\'' && isPlain c, rest)
  | _ => none

/-- The end of a text in three quotes, behind these: up to two more quotes are its last
    characters. -/
def closing (quote : Char) : List Char → List Char × List Char
  | a :: b :: rest =>
    if a = quote then
      if b = quote then ([quote, quote], rest) else ([quote], b :: rest)
    else ([], a :: b :: rest)
  | [a] => if a = quote then ([quote], []) else ([], [a])
  | [] => ([], [])

/-- Whether only blanks come before the end of the line. -/
def endsLine (cs : List Char) : Bool :=
  match cs.dropWhile isSpace with
  | '\n' :: _ => true
  | '\r' :: '\n' :: _ => true
  | _ => false

/-- A text in three double quotes, behind the opening ones. A backslash at the end of a line
    swallows all blanks and line ends up to the next other character; `swallowing` says
    whether that is going on. -/
def basicLines (swallowing : Bool) : List Char → Option (List Char × List Char)
  | [] => none
  | '"' :: '"' :: '"' :: rest => some (closing '"' rest)
  | '\n' :: rest => if swallowing then basicLines true rest else front '\n' (basicLines false rest)
  | '\r' :: '\n' :: rest =>
    if swallowing then basicLines true rest else front '\n' (basicLines false rest)
  | '\\' :: 'u' :: a :: b :: c :: d :: rest => do
    front (← codeChar? [a, b, c, d]) (basicLines false rest)
  | '\\' :: 'U' :: a :: b :: c :: d :: e :: f :: g :: h :: rest => do
    front (← codeChar? [a, b, c, d, e, f, g, h]) (basicLines false rest)
  | '\\' :: letter :: rest =>
    if endsLine (letter :: rest) then basicLines true (letter :: rest)
    else do front (← escaped? letter) (basicLines false rest)
  | c :: rest =>
    if swallowing && isSpace c then basicLines true rest
    else if isPlain c then front c (basicLines false rest)
    else none

/-- A text in three single quotes, behind the opening ones. -/
def literalLines : List Char → Option (List Char × List Char)
  | [] => none
  | '\'' :: '\'' :: '\'' :: rest => some (closing '\'' rest)
  | '\n' :: rest => front '\n' (literalLines rest)
  | '\r' :: '\n' :: rest => front '\n' (literalLines rest)
  | c :: rest => if isPlain c then front c (literalLines rest) else none

/-- The characters behind a line end at the start. -/
def dropNewline : List Char → List Char
  | '\n' :: rest => rest
  | '\r' :: '\n' :: rest => rest
  | cs => cs

/-- A text in one quote at each end. -/
def lineText : List Char → Option (List Char × List Char)
  | '"' :: rest => basic rest
  | '\'' :: rest => literal rest
  | _ => none

/-- A text. -/
def text? : List Char → Option (List Char × List Char)
  | '"' :: '"' :: '"' :: rest => basicLines false (dropNewline rest)
  | '\'' :: '\'' :: '\'' :: rest => literalLines (dropNewline rest)
  | cs => lineText cs

/-! ## Numbers -/

/-- Whether single underscores stand between digits only. -/
def wellSpaced : List Char → Bool
  | [] => false
  | ['_'] => false
  | [_] => true
  | '_' :: _ => false
  | _ :: '_' :: rest => wellSpaced rest
  | _ :: rest => wellSpaced rest

/-- Digits with underscores between them; the underscores are left out. -/
def digits (base : Nat) : Scan (List Char) := do
  let run ← Scan.many fun c => isDigitOf base c || c = '_'
  guard (wellSpaced run)
  return run.filter (· ≠ '_')

/-- An integer of 64 bits, one of which is its sign. -/
def word64 (n : Int) : Scan Toml := do
  guard (Int64.minValue.toInt ≤ n ∧ n ≤ Int64.maxValue.toInt)
  return .integer n

/-- Whether `d` times a power of ten rounds to infinity as a floating point number of 64
    bits: that is so from half a step above the largest finite one. -/
def overflows (d : Nat) (exponent : Int) : Bool :=
  let magnitude : Int := (Nat.toDigits 10 d).length + exponent
  if d = 0 || magnitude < 300 then false
  else if 320 < magnitude then true
  else
    let threshold := Nat.pow 2 1024 - Nat.pow 2 970
    if 0 ≤ exponent then threshold ≤ d * Nat.pow 10 exponent.toNat
    else threshold * Nat.pow 10 (-exponent).toNat ≤ d

/-- The fraction of a number behind its integer part, if there is one. -/
def fraction : Scan (Option (List Char)) := do
  if ← Scan.found "." then some <$> digits 10 else return none

/-- The exponent of a number, if there is one. -/
def exponent : Scan (Option Int) := do
  if (← Scan.attempt (Scan.one fun c => c = 'e' || c = 'E')).isSome then
    let negative ← Scan.found "-"
    if !negative then discard (Scan.found "+")
    let n := numeral 10 (← digits 10)
    return some (if negative then -n else n)
  else return none

/-- A number in base ten behind its sign. -/
def decimal (negative : Bool) : Scan Toml := do
  let whole ← digits 10
  guard (whole.head? ≠ some '0' ∨ whole.length = 1)
  let fraction ← fraction
  let exponent ← exponent
  let n := numeral 10 whole
  match fraction, exponent with
  | none, none => word64 (if negative then -n else n)
  | _, _ =>
    let places := fraction.getD []
    guard (negative || !overflows (numeral 10 (whole ++ places))
      (exponent.getD 0 - places.length))
    return .other

/-- A number. -/
def number : Scan Toml := do
  if ← Scan.found "0x" then word64 (numeral 16 (← digits 16))
  else if ← Scan.found "0o" then word64 (numeral 8 (← digits 8))
  else if ← Scan.found "0b" then word64 (numeral 2 (← digits 2))
  else
    let negative ← Scan.found "-"
    if !negative then discard (Scan.found "+")
    (Scan.exactly "inf" *> pure .other) <|> (Scan.exactly "nan" *> pure .other) <|>
      decimal negative

/-! ## Dates and times -/

/-- A number of `count` digits between two bounds. -/
def timeField (count least most : Nat) : Scan Nat := do
  let n := numeral 10 (← Scan.times count Char.isDigit)
  guard (least ≤ n ∧ n ≤ most)
  return n

/-- How many days a month has. -/
def daysOf (year month : Nat) : Nat :=
  if month = 2 then
    if year % 4 = 0 ∧ (year % 100 ≠ 0 ∨ year % 400 = 0) then 29 else 28
  else if month = 4 ∨ month = 6 ∨ month = 9 ∨ month = 11 then 30
  else 31

/-- A date. -/
def date : Scan Unit := do
  let year ← timeField 4 0 9999
  Scan.exactly "-"
  let month ← timeField 2 1 12
  Scan.exactly "-"
  discard (timeField 2 1 (daysOf year month))

/-- A time of day. -/
def time : Scan Unit := do
  discard (timeField 2 0 23)
  Scan.exactly ":"
  discard (timeField 2 0 59)
  Scan.exactly ":"
  discard (timeField 2 0 60)
  if ← Scan.found "." then discard (Scan.many1 Char.isDigit)

/-- The distance of a time from universal time. -/
def offset : Scan Unit := do
  let c ← Scan.next
  if c = 'Z' || c = 'z' then return
  guard (c = '+' || c = '-')
  discard (timeField 2 0 23)
  Scan.exactly ":"
  discard (timeField 2 0 59)

/-- A date, a time, or both. -/
def dateOrTime : Scan Toml := do
  (do
    date
    discard <| Scan.attempt do
      discard (Scan.one fun c => c = 'T' || c = 't' || c = ' ')
      time
      discard (Scan.attempt offset)) <|> time
  return .moment

end RailFreight.Toml
