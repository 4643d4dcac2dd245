/-!
# Reading a text from its start

A *scan* reads something at the start of a list of characters and answers with the
characters behind it, or with nothing when it is not there. Scans are joined by `do`, and
`<|>` tries a second scan from the same start when the first finds nothing.
-/

namespace RailFreight.Text

/-- A scan for an `α`. -/
abbrev Scan (α : Type) := StateT (List Char) Option α

namespace Scan

variable {α : Type}

/-- The next character, which is left where it is. -/
def peek : Scan (Option Char) := fun cs => some (cs.head?, cs)

/-- All characters that are left, which are left where they are. -/
def ahead : Scan (List Char) := fun cs => some (cs, cs)

/-- The next character. -/
def next : Scan Char
  | [] => none
  | c :: cs => some (c, cs)

/-- The next character, if it satisfies `p`. -/
def one (p : Char → Bool) : Scan Char
  | [] => none
  | c :: cs => if p c then some (c, cs) else none

/-- Exactly the characters of `text`. -/
def exactly (text : String) : Scan Unit := fun cs => (text.toList.isPrefixOf? cs).map ((), ·)

/-- The longest run of characters that satisfy `p`. -/
def many (p : Char → Bool) : Scan (List Char) := fun cs => some (cs.takeWhile p, cs.dropWhile p)

/-- The longest run of characters that satisfy `p`, which must not be empty. -/
def many1 (p : Char → Bool) : Scan (List Char) := do
  let cs ← many p
  guard !cs.isEmpty
  return cs

/-- Exactly `count` characters that satisfy `p`. -/
def times (count : Nat) (p : Char → Bool) : Scan (List Char) := fun cs =>
  let found := cs.take count
  if found.length = count ∧ found.all p then some (found, cs.drop count) else none

/-- What `s` finds, or nothing read. -/
def attempt (s : Scan α) : Scan (Option α) := (some <$> s) <|> pure none

/-- Whether the characters of `text` come next; they are read if so. -/
def found (text : String) : Scan Bool := do
  return (← attempt (exactly text)).isSome

/-- The answer of a scan that reads a whole text. -/
def whole? (s : Scan α) (text : String) : Option α :=
  match s.run text.toList with
  | some (a, []) => some a
  | _ => none

end Scan

/-- The value of a digit, in bases up to sixteen. -/
def digitValue? (c : Char) : Option Nat :=
  if '0' ≤ c ∧ c ≤ '9' then some (c.toNat - '0'.toNat)
  else if 'a' ≤ c ∧ c ≤ 'f' then some (c.toNat - 'a'.toNat + 10)
  else if 'A' ≤ c ∧ c ≤ 'F' then some (c.toNat - 'A'.toNat + 10)
  else none

/-- Whether `c` is a digit in a base up to sixteen. -/
def isDigitOf (base : Nat) (c : Char) : Bool := (digitValue? c).any (· < base)

/-- The number that digits stand for in a base. -/
def numeral (base : Nat) (digits : List Char) : Nat :=
  digits.foldl (fun n c => base * n + (digitValue? c).getD 0) 0

/-- The character with a code point, if there is one. -/
def charOfCode? (code : Nat) : Option Char :=
  if h : code.isValidChar then some (Char.ofNatAux code h) else none

end RailFreight.Text
