/-!
# Random draws

A generator of random words: a 64-bit counter that grows by a fixed odd increment, and
a bijective scrambling of the counter that gives the word drawn (SplitMix64). A draw
answers with the value and the generator that goes on from there, so equal generators
draw equal values for ever.

* `Generator.below_lt`: a draw below a positive bound stays below it;
* `Generator.le_range`, `Generator.range_lt`: a draw from a range stays in it.
-/

namespace RailFreight

/-- A generator of random words. -/
structure Generator where
  /-- The counter. -/
  state : UInt64
  deriving DecidableEq, Repr, Inhabited

namespace Generator

/-- What the counter grows by at each draw. -/
def increment : UInt64 := 0x9E3779B97F4A7C15

/-- The scrambling of the counter. -/
def scramble (z : UInt64) : UInt64 :=
  let z := (z ^^^ (z >>> 30)) * 0xBF58476D1CE4E5B9
  let z := (z ^^^ (z >>> 27)) * 0x94D049BB133111EB
  z ^^^ (z >>> 31)

/-- The generator of a seed. -/
def ofSeed (seed : UInt64) : Generator := ⟨seed⟩

/-- Draws a word. -/
def next (g : Generator) : UInt64 × Generator :=
  let state := g.state + increment
  (scramble state, ⟨state⟩)

/-- The share of `bound` that the upper half of a word stands for. -/
def share (word : UInt64) (bound : Nat) : Nat := word.toNat / UInt32.size * bound / UInt32.size

/-- Draws a number below `bound`, for bounds up to `2 ^ 32`. Below `0` there is nothing to
    draw: the answer is `0`, and the generator stays as it is. -/
def below (bound : Nat) (g : Generator) : Nat × Generator :=
  if bound = 0 then (0, g) else (share g.next.1 bound, g.next.2)

/-- Draws a number from `lo` up to, but not including, `hi`. An empty range gives `lo`
    without a draw. -/
def range (lo hi : Nat) (g : Generator) : Nat × Generator :=
  if hi ≤ lo then (lo, g) else
    let (n, g) := g.below (hi - lo)
    (lo + n, g)

/-- Draws an element of a list; there is none to draw from an empty one. -/
def pick {α : Type} (items : List α) (g : Generator) : Option α × Generator :=
  if items.isEmpty then (none, g) else
    let (n, g) := g.below items.length
    (items[n]?, g)

theorem share_lt (word : UInt64) {bound : Nat} (h : 0 < bound) : share word bound < bound := by
  have hw : word.toNat / UInt32.size < UInt32.size :=
    Nat.div_lt_of_lt_mul (Nat.lt_of_lt_of_eq word.toNat_lt (by decide))
  rw [share, Nat.div_lt_iff_lt_mul (by decide), Nat.mul_comm bound]
  exact Nat.mul_lt_mul_of_lt_of_le hw (Nat.le_refl _) h

/-- A draw below a positive bound stays below it. -/
theorem below_lt {bound : Nat} (h : 0 < bound) (g : Generator) : (g.below bound).1 < bound := by
  rw [below, if_neg (Nat.ne_of_gt h)]
  exact share_lt _ h

/-- A draw from a range is not below its start. -/
theorem le_range (lo hi : Nat) (g : Generator) : lo ≤ (g.range lo hi).1 := by
  rw [range]
  split
  · exact Nat.le_refl _
  · exact Nat.le_add_right _ _

/-- A draw from a range that is not empty is below its end. -/
theorem range_lt {lo hi : Nat} (h : lo < hi) (g : Generator) : (g.range lo hi).1 < hi := by
  rw [range, if_neg (Nat.not_le_of_lt h)]
  have := below_lt (Nat.sub_pos_of_lt h) g
  show lo + (g.below (hi - lo)).1 < hi
  omega

end Generator

end RailFreight
