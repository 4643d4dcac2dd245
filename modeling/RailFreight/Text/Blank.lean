/-!
# Blank space around a text

The blank characters are the 25 characters with the property White_Space of the Unicode
character database. Names and codes given by users are trimmed of them at both ends
before they are read.

* `trim_trim`: trimming again changes nothing.
-/

namespace RailFreight.Text

/-- The blank characters, as inclusive ranges of code points. -/
def blankRanges : List (Nat × Nat) :=
  [(0x09, 0x0D), (0x20, 0x20), (0x85, 0x85), (0xA0, 0xA0), (0x1680, 0x1680),
   (0x2000, 0x200A), (0x2028, 0x2029), (0x202F, 0x202F), (0x205F, 0x205F), (0x3000, 0x3000)]

/-- Whether a character is blank: tabs, line ends, and the spaces of all scripts. -/
def isBlank (c : Char) : Bool :=
  blankRanges.any fun r => r.1 ≤ c.toNat && c.toNat ≤ r.2

/-- The ranges hold 25 characters. -/
example : (blankRanges.map fun r => r.2 + 1 - r.1).sum = 25 := rfl

/-- The characters without the blank ones at both ends. -/
def trimBlanks (cs : List Char) : List Char :=
  ((cs.dropWhile isBlank).reverse.dropWhile isBlank).reverse

/-- The text without the blank characters at both ends. -/
def trim (s : String) : String := String.ofList (trimBlanks s.toList)

theorem dropWhile_dropWhile {α : Type} (p : α → Bool) (xs : List α) :
    (xs.dropWhile p).dropWhile p = xs.dropWhile p := by
  induction xs with
  | nil => rfl
  | cons x xs ih =>
    by_cases h : p x
    · simpa [List.dropWhile_cons, h] using ih
    · simp [h]

/-- Cutting at the end keeps a list that has nothing to cut at its start. -/
theorem dropWhile_reverse_dropWhile {α : Type} (p : α → Bool) {xs : List α}
    (h : xs.dropWhile p = xs) :
    (xs.reverse.dropWhile p).reverse.dropWhile p = (xs.reverse.dropWhile p).reverse := by
  cases xs with
  | nil => rfl
  | cons x xs =>
    have hx : ¬ p x := fun hx => by
      have hle := (List.dropWhile_suffix p (l := xs)).length_le
      rw [List.dropWhile_cons_of_pos hx] at h
      rw [h] at hle
      exact Nat.not_succ_le_self _ hle
    have hrev : (x :: xs).reverse.dropWhile p = xs.reverse.dropWhile p ++ [x] := by
      rw [List.reverse_cons, List.dropWhile_append]
      split
      · rename_i hnil
        simp [List.isEmpty_iff.1 hnil, hx]
      · rfl
    rw [hrev, List.reverse_append]
    simp [hx]

theorem trimBlanks_trimBlanks (cs : List Char) : trimBlanks (trimBlanks cs) = trimBlanks cs := by
  have h := dropWhile_reverse_dropWhile isBlank (dropWhile_dropWhile isBlank cs)
  rw [trimBlanks, trimBlanks, h, List.reverse_reverse, dropWhile_dropWhile]

/-- Trimming again changes nothing. -/
theorem trim_trim (s : String) : trim (trim s) = trim s := by
  rw [trim, trim, String.toList_ofList, trimBlanks_trimBlanks]

end RailFreight.Text
