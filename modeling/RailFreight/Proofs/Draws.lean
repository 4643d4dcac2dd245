import RailFreight.Generator
import Mathlib.Data.List.Basic

/-!
# What can be drawn

The scrambling of the counter of a generator can be undone step by step: a word that was combined
with itself shifted is got back by further shifts, and a factor that was multiplied with by the
inverse of the factor. So some generator draws any given word, hence any number below a bound, and
any element of a list.

* `Generator.exists_scramble`: every word comes of scrambling some counter;
* `Generator.exists_below`: every number below a bound is drawn by some generator;
* `Generator.exists_pick`, `Generator.mem_of_pick`: so is every element of a list, and nothing else.
-/

namespace RailFreight.Generator

/-! ## Words -/

/-- Bits that were combined with those `n` places above are got back by shifts by `n` and by
    `2 * n` places: what is still missing is above the highest bit. -/
theorem xor_ushiftRight_xor (z : BitVec 64) {n : Nat} (hn : 64 ≤ 3 * n) :
    (z ^^^ z >>> n ^^^ z >>> (2 * n)) ^^^ (z ^^^ z >>> n ^^^ z >>> (2 * n)) >>> n = z := by
  ext i hi
  have hnone : z.getLsbD (2 * n + (n + i)) = false := BitVec.getLsbD_of_ge _ _ (by omega)
  have hsame : 2 * n + i = n + (n + i) := by omega
  simp only [BitVec.getElem_xor, BitVec.getElem_ushiftRight, BitVec.getLsbD_xor,
    BitVec.getLsbD_ushiftRight, hnone, hsame]
  cases z[i] <;> cases z.getLsbD (n + i) <;> cases z.getLsbD (n + (n + i)) <;> rfl

/-- Every word is a word combined with itself shifted. -/
theorem exists_xor_shiftRight (word shift : UInt64) (hlt : shift.toNat < 64)
    (hle : 64 ≤ 3 * shift.toNat) : ∃ z : UInt64, z ^^^ z >>> shift = word := by
  let n := shift.toNat
  refine ⟨⟨word.toBitVec ^^^ word.toBitVec >>> n ^^^ word.toBitVec >>> (2 * n)⟩, ?_⟩
  apply UInt64.eq_of_toBitVec_eq
  have hshift : (shift.toBitVec % 64).toNat = n := by
    rw [BitVec.toNat_umod]
    exact Nat.mod_eq_of_lt hlt
  rw [UInt64.toBitVec_xor, UInt64.toBitVec_shiftRight, BitVec.ushiftRight_eq', hshift]
  exact xor_ushiftRight_xor _ hle

/-- Every word is a product with a factor that has an inverse. -/
theorem exists_mul (word factor inverse : UInt64) (h : inverse * factor = 1) :
    ∃ z, z * factor = word :=
  ⟨word * inverse, by rw [UInt64.mul_assoc, h, UInt64.mul_one]⟩

/-- Every word comes of scrambling some counter. -/
theorem exists_scramble (word : UInt64) : ∃ z, scramble z = word := by
  -- The steps of the scrambling are undone from the last one to the first one.
  obtain ⟨a, rfl⟩ := exists_xor_shiftRight word 31 (by decide) (by decide)
  obtain ⟨b, rfl⟩ := exists_mul a 0x94D049BB133111EB 0x319642B2D24D8EC3 (by decide)
  obtain ⟨c, rfl⟩ := exists_xor_shiftRight b 27 (by decide) (by decide)
  obtain ⟨d, rfl⟩ := exists_mul c 0xBF58476D1CE4E5B9 0x96DE1B173F119089 (by decide)
  obtain ⟨e, rfl⟩ := exists_xor_shiftRight d 30 (by decide) (by decide)
  exact ⟨e, rfl⟩

/-- Every word is drawn by some generator. -/
theorem exists_next (word : UInt64) : ∃ g : Generator, g.next.1 = word := by
  obtain ⟨z, rfl⟩ := exists_scramble word
  refine ⟨⟨z - increment⟩, ?_⟩
  rw [next, UInt64.sub_add_cancel]

/-! ## Numbers and elements -/

/-- Every number below a bound is the share of some word. -/
theorem exists_share {n bound : Nat} (hn : n < bound) (hbound : bound ≤ UInt32.size) :
    ∃ word, share word bound = n := by
  -- The least upper half whose share is not below `n`.
  let half := (n * UInt32.size + (bound - 1)) / bound
  have hle : half * bound ≤ n * UInt32.size + (bound - 1) := Nat.div_mul_le_self _ _
  have hge : n * UInt32.size + (bound - 1) < half * bound + bound :=
    Nat.lt_div_mul_add (Nat.zero_lt_of_lt hn)
  have hnext : (n + 1) * UInt32.size = n * UInt32.size + UInt32.size := Nat.succ_mul _ _
  have hhalf : half < UInt32.size := by
    have hlast : (n + 1) * UInt32.size ≤ bound * UInt32.size := Nat.mul_le_mul_right _ hn
    rw [Nat.mul_comm bound] at hlast
    exact Nat.lt_of_mul_lt_mul_right (a := bound) (by omega)
  have hlt : half * UInt32.size < UInt32.size * UInt32.size :=
    Nat.mul_lt_mul_of_lt_of_le hhalf (Nat.le_refl _) (by decide)
  have hword : (UInt64.ofNat (half * UInt32.size)).toNat = half * UInt32.size := by
    rw [UInt64.toNat_ofNat']
    exact Nat.mod_eq_of_lt (Nat.lt_of_lt_of_eq hlt (by decide))
  refine ⟨UInt64.ofNat (half * UInt32.size), ?_⟩
  rw [share, hword, Nat.mul_div_cancel _ (by decide)]
  exact Nat.div_eq_of_lt_le (by omega) (by omega)

/-- Every number below a bound is drawn by some generator. -/
theorem exists_below {n bound : Nat} (hn : n < bound) (hbound : bound ≤ UInt32.size) :
    ∃ g : Generator, (g.below bound).1 = n := by
  obtain ⟨word, hword⟩ := exists_share hn hbound
  obtain ⟨g, rfl⟩ := exists_next word
  refine ⟨g, ?_⟩
  rw [below, if_neg (Nat.ne_of_gt (Nat.zero_lt_of_lt hn))]
  exact hword

/-- Every element of a list is drawn by some generator. -/
theorem exists_pick {α : Type} {items : List α} {x : α} (hx : x ∈ items)
    (hlength : items.length ≤ UInt32.size) : ∃ g : Generator, (g.pick items).1 = some x := by
  obtain ⟨i, hi, rfl⟩ := List.getElem_of_mem hx
  obtain ⟨g, hg⟩ := exists_below hi hlength
  refine ⟨g, ?_⟩
  have hne : items.isEmpty = false := List.isEmpty_eq_false_iff_exists_mem.2 ⟨_, hx⟩
  rw [pick, hne]
  show items[(g.below items.length).1]? = _
  rw [hg, List.getElem?_eq_getElem hi]

/-- What is drawn is an element of the list. -/
theorem mem_of_pick {α : Type} {items : List α} {x : α} {g g' : Generator}
    (h : g.pick items = (some x, g')) : x ∈ items := by
  rw [pick] at h
  split at h
  · exact absurd h nofun
  · exact List.mem_of_getElem? (Prod.mk.inj h).1

end RailFreight.Generator
