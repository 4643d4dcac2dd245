import RailFreight.Fault
import RailFreight.Proofs.Draws
import Mathlib.Algebra.Order.Floor.Div
import Mathlib.Data.FinEnum
import Mathlib.Data.Set.Card
import Mathlib.Order.Interval.Finset.Nat

/-!
# How evenly numbers are drawn

A generator draws from a seed, and over all seeds it draws evenly. Every word comes of one seed
alone, at each place of the sequence: the counter is moved on by a constant, and no two counters are
scrambled to one word. So a number below a bound is drawn from as many seeds as there are words
whose share it is. These are the words with an upper half from some number on and below another, and
the two numbers are as far apart as the bound goes into the upper halves, up to rounding.

* `Generator.afterAll_eq`: where a generator stands depends on how many words were drawn only;
* `Generator.word_bijective`: every word is drawn from one seed alone;
* `Generator.share_eq_iff`, `Generator.ncard_share_eq`: the words that a number is the share of;
* `Generator.draws_evenly`: numbers below a bound, numbers from a range and elements of a list are
  drawn as they should be, whatever the seed is, and evenly over all seeds.
-/

namespace RailFreight.Generator

/-! ## Words -/

/-- The generator after `k` more words. -/
def after (k : Nat) (g : Generator) : Generator := (fun g => g.next.2)^[k] g

theorem after_add (m n : Nat) (g : Generator) : (g.after m).after n = g.after (m + n) := by
  rw [after, after, after, Nat.add_comm, Function.iterate_add_apply]

/-- No two counters are scrambled to one word, as every word comes of some counter. -/
theorem scramble_bijective : Function.Bijective scramble :=
  Finite.surjective_iff_bijective.1 exists_scramble

theorem ofSeed_bijective : Function.Bijective ofSeed :=
  ⟨fun _ _ h => congrArg state h, fun g => ⟨g.state, rfl⟩⟩

/-- The counter moves on without running into another one. -/
theorem state_next_bijective : Function.Bijective fun g : Generator => g.next.2.state := by
  refine ⟨fun g g' h => ?_, fun counter => ⟨⟨counter - increment⟩, UInt64.sub_add_cancel ..⟩⟩
  have hstate : g.state = g'.state := (UInt64.add_left_inj increment).1 h
  exact congrArg ofSeed hstate

/-- Every generator is come to from one seed alone, in any number of steps. -/
theorem after_bijective (k : Nat) : Function.Bijective fun seed => (ofSeed seed).after k :=
  ((ofSeed_bijective.comp state_next_bijective).iterate k).comp ofSeed_bijective

/-- Every word is drawn from one seed alone, at each place of the sequence. -/
theorem word_bijective (k : Nat) :
    Function.Bijective fun seed => ((ofSeed seed).after k).next.1 :=
  (scramble_bijective.comp state_next_bijective).comp (after_bijective k)

/-! ## Draws -/

/-- What can be asked of a generator. -/
inductive Draw : Type 1
  | word
  | below (bound : Nat)
  | range (lo hi : Nat)
  | pick {α : Type} (items : List α)

/-- The words that a draw takes: none if there is nothing to choose from. -/
def Draw.words : Draw → Nat
  | word => 1
  | below bound => if bound = 0 then 0 else 1
  | range lo hi => if hi ≤ lo then 0 else 1
  | pick items => if items.isEmpty then 0 else 1

/-- The generator that a draw leaves. -/
def Draw.leaves : Draw → Generator → Generator
  | word, g => g.next.2
  | below bound, g => (g.below bound).2
  | range lo hi, g => (g.range lo hi).2
  | pick items, g => (g.pick items).2

/-- The generator that draws leave one after another. -/
def afterAll (draws : List Draw) (g : Generator) : Generator :=
  draws.foldl (fun g d => d.leaves g) g

theorem below_snd {bound : Nat} (hne : bound ≠ 0) (g : Generator) :
    (g.below bound).2 = g.after 1 := by
  rw [below, if_neg hne]
  rfl

/-- A draw moves the generator on by the words that it takes. -/
theorem Draw.leaves_eq (d : Draw) (g : Generator) : d.leaves g = g.after d.words := by
  cases d with
  | word => rfl
  | below bound =>
    rw [words]
    split
    · next hzero => rw [hzero]; rfl
    · next hne => exact below_snd hne g
  | range lo hi =>
    rw [leaves, words, Generator.range]
    split
    · rfl
    · exact below_snd (by omega) g
  | pick items =>
    rw [leaves, words, Generator.pick]
    split
    · rfl
    · next hne => exact below_snd (mt List.length_eq_zero_iff.1 (mt List.isEmpty_iff.2 hne)) g

/-- So it does not matter what was drawn, only how many words it took. -/
theorem afterAll_eq (draws : List Draw) (g : Generator) :
    g.afterAll draws = g.after (draws.map Draw.words).sum := by
  induction draws generalizing g with
  | nil => rfl
  | cons d draws ih =>
    have hstep : g.afterAll (d :: draws) = (d.leaves g).afterAll draws := rfl
    rw [hstep, ih, Draw.leaves_eq, after_add, List.map_cons, List.sum_cons]

/-! ## Shares -/

variable {bound v : Nat}

/-- The least upper half whose share is not below `v`. -/
def firstHalf (bound v : Nat) : Nat := v * UInt32.size ⌈/⌉ bound

theorem firstHalf_le_iff (hpos : 0 < bound) {half : Nat} :
    firstHalf bound v ≤ half ↔ v ≤ half * bound / UInt32.size := by
  rw [firstHalf, ceilDiv_le_iff_le_mul hpos, Nat.le_div_iff_mul_le (by decide), Nat.mul_comm half]

/-- The words whose share is `v` are those with an upper half from the first one for `v` on, and
    below the first one for `v + 1`. -/
theorem share_eq_iff (hpos : 0 < bound) (word : UInt64) : share word bound = v ↔
    firstHalf bound v * UInt32.size ≤ word.toNat ∧
      word.toNat < firstHalf bound (v + 1) * UInt32.size := by
  have hsize : 0 < UInt32.size := by decide
  calc share word bound = v
    _ ↔ v ≤ share word bound ∧ ¬ v + 1 ≤ share word bound := by omega
    _ ↔ firstHalf bound v ≤ word.toNat / UInt32.size ∧
          ¬ firstHalf bound (v + 1) ≤ word.toNat / UInt32.size := by
        rw [firstHalf_le_iff hpos, firstHalf_le_iff hpos, share]
    _ ↔ _ := by rw [Nat.not_le, Nat.le_div_iff_mul_le hsize, Nat.div_lt_iff_lt_mul hsize]

/-- The first upper half for `v` is the least number that the bound takes as far as `v`. -/
theorem mul_firstHalf (hpos : 0 < bound) (v : Nat) : v * UInt32.size ≤ bound * firstHalf bound v ∧
    bound * firstHalf bound v < v * UInt32.size + bound := by
  refine ⟨(ceilDiv_le_iff_le_mul hpos).1 (Nat.le_refl _), ?_⟩
  rw [firstHalf, Nat.ceilDiv_eq_add_pred_div]
  exact (Nat.mul_div_le _ _).trans_lt (by omega)

/-- As many upper halves have a share as the bound goes into them, up to rounding. -/
theorem firstHalf_sub (hpos : 0 < bound) (v : Nat) :
    firstHalf bound (v + 1) - firstHalf bound v = UInt32.size / bound ∨
      firstHalf bound (v + 1) - firstHalf bound v = UInt32.size ⌈/⌉ bound := by
  let m := firstHalf bound (v + 1) - firstHalf bound v
  obtain ⟨hlo, hlo'⟩ := mul_firstHalf hpos v
  obtain ⟨hhi, hhi'⟩ := mul_firstHalf hpos (v + 1)
  have hnext : (v + 1) * UInt32.size = v * UInt32.size + UInt32.size := Nat.succ_mul _ _
  have hm : bound * m = bound * firstHalf bound (v + 1) - bound * firstHalf bound v :=
    Nat.mul_sub ..
  -- The product with the bound misses the size by less than the bound.
  have hfloor : UInt32.size / bound < m + 1 := by
    rw [Nat.div_lt_iff_lt_mul hpos, Nat.mul_comm, Nat.mul_succ]
    omega
  have hceil : m < UInt32.size ⌈/⌉ bound + 1 := by
    have hsize : UInt32.size ≤ bound * (UInt32.size ⌈/⌉ bound) :=
      (ceilDiv_le_iff_le_mul hpos).1 (Nat.le_refl _)
    refine Nat.lt_of_mul_lt_mul_left (a := bound) ?_
    rw [Nat.mul_succ]
    omega
  have hround : UInt32.size ⌈/⌉ bound ≤ UInt32.size / bound + 1 := by
    rw [ceilDiv_le_iff_le_mul hpos]
    exact (Nat.lt_mul_div_succ _ hpos).le
  change m = _ ∨ m = _
  omega

/-- The number of words whose share is `v`: `2 ^ 32` for each upper half. -/
theorem ncard_share_eq (hv : v < bound) : {word | share word bound = v}.ncard =
    UInt32.size * (firstHalf bound (v + 1) - firstHalf bound v) := by
  have hpos : 0 < bound := Nat.zero_lt_of_lt hv
  let words := Finset.Ico (firstHalf bound v * UInt32.size) (firstHalf bound (v + 1) * UInt32.size)
  have hlast : firstHalf bound (v + 1) ≤ UInt32.size := by
    rw [firstHalf_le_iff hpos, Nat.mul_div_cancel_left _ (by decide)]
    exact hv
  -- No upper half of these is beyond the last one, so all these numbers are those of words.
  have hsubset : (words : Set Nat) ⊆ Set.range UInt64.toNat := by
    intro n hn
    have hlt : n < UInt64.size :=
      (Finset.mem_Ico.1 hn).2.trans_le (Nat.mul_le_mul_right UInt32.size hlast)
    exact ⟨UInt64.ofNat n, UInt64.toNat_ofNat_of_lt' hlt⟩
  calc {word | share word bound = v}.ncard
    _ = (Set.preimage UInt64.toNat words).ncard := by
        congr 1
        ext word
        rw [Set.mem_ofPred_eq, share_eq_iff hpos, Set.mem_preimage, Finset.mem_coe, Finset.mem_Ico]
    _ = words.card := by
        rw [Set.ncard_preimage_of_injective_subset_range (fun _ _ => UInt64.toNat_inj.1) hsubset,
          Set.ncard_coe_finset]
    _ = UInt32.size * (firstHalf bound (v + 1) - firstHalf bound v) := by
        rw [Nat.card_Ico, ← Nat.sub_mul, Nat.mul_comm]

/-! ## Seeds -/

/-- The numbers drawn from the seeds are below the bound, and each number below it is drawn from
    equally many of the `2 ^ 64` seeds, up to rounding. -/
def EvenBelow (bound : Nat) (draw : UInt64 → Nat) : Prop :=
  (∀ seed, draw seed < bound) ∧ ∀ v < bound, ∃ m,
    (m = UInt32.size / bound ∨ m = UInt32.size ⌈/⌉ bound) ∧
      {seed | draw seed = v}.ncard = UInt32.size * m

/-- Numbers below a bound are drawn evenly, however many words were drawn before. -/
theorem below_even (hpos : 0 < bound) (k : Nat) :
    EvenBelow bound fun seed => (((ofSeed seed).after k).below bound).1 := by
  refine ⟨fun seed => below_lt hpos _, fun v hv => ⟨_, firstHalf_sub hpos v, ?_⟩⟩
  have hword := word_bijective k
  -- A number is drawn from as many seeds as there are words for it, as no seeds share a word.
  have hseeds : {seed | (((ofSeed seed).after k).below bound).1 = v} =
      Set.preimage (fun seed => ((ofSeed seed).after k).next.1) {word | share word bound = v} := by
    ext seed
    show (((ofSeed seed).after k).below bound).1 = v ↔ _
    rw [Generator.below, if_neg hpos.ne']
    rfl
  rw [hseeds, Set.ncard_preimage_of_injective_subset_range hword.1
    (hword.2.range_eq ▸ Set.subset_univ _), ncard_share_eq hv]

/-- A draw from a range is in it, and its arithmetic stays within the words that it is done on. -/
structure DrawsWithin (lo hi : Nat) (g : Generator) : Prop where
  le : lo ≤ (g.range lo hi).1
  lt : (g.range lo hi).1 < hi
  width : Count.sub hi lo = .ok (hi - lo)
  product : g.next.1.toNat / UInt32.size * (hi - lo) < UInt64.size
  value : Count.add lo (g.below (hi - lo)).1 = .ok (g.range lo hi).1

theorem drawsWithin {lo hi : Nat} (hlt : lo < hi) (hhi : hi < UInt32.size) (g : Generator) :
    DrawsWithin lo hi g where
  le := le_range lo hi g
  lt := range_lt hlt g
  width := Count.sub_eq_ok_iff.2 ⟨hlt.le, rfl⟩
  product := by
    have hhalf : g.next.1.toNat / UInt32.size < UInt32.size :=
      Nat.div_lt_of_lt_mul (g.next.1.toNat_lt.trans_eq (by decide))
    have hwidth : hi - lo < UInt32.size := by omega
    exact Nat.mul_lt_mul'' hhalf hwidth
  value := by
    have hvalue : (g.range lo hi).1 = lo + (g.below (hi - lo)).1 := by
      rw [range, if_neg hlt.not_ge]
    have hfits : (g.range lo hi).1 < UInt32.size := (range_lt hlt g).trans hhi
    exact Count.add_eq_ok_iff.2 ⟨hvalue ▸ hfits, hvalue⟩

/-- A list that is not empty gives one of its elements. -/
theorem exists_pick_eq_some {α : Type} {items : List α} (hne : items ≠ []) (g : Generator) :
    ∃ x ∈ items, (g.pick items).1 = some x := by
  have hlt : (g.below items.length).1 < items.length := below_lt (List.length_pos_iff.2 hne) g
  refine ⟨items[(g.below items.length).1], List.getElem_mem hlt, ?_⟩
  rw [pick, if_neg (mt List.isEmpty_iff.1 hne)]
  exact List.getElem?_eq_getElem hlt

/-- Every element of a list is picked from some seed, however many words were drawn before. -/
theorem exists_seed_pick {α : Type} {items : List α} {x : α} (hx : x ∈ items)
    (hlength : items.length ≤ UInt32.size) (k : Nat) :
    ∃ seed, (((ofSeed seed).after k).pick items).1 = some x := by
  obtain ⟨g, hg⟩ := exists_pick hx hlength
  obtain ⟨seed, rfl⟩ := (after_bijective k).2 g
  exact ⟨seed, hg⟩

/-- A generator draws evenly over its seeds, at each place of the sequence and whatever was drawn
    before: each word from one seed, and each number below a bound from as many seeds as another, up
    to rounding. So a draw from a range is in it, and a list gives its elements, each from some
    seed. -/
theorem draws_evenly :
    (∀ k, Function.Bijective fun seed => ((ofSeed seed).after k).next.1) ∧
    (∀ (draws : List Draw) (g : Generator),
      g.afterAll draws = g.after (draws.map Draw.words).sum) ∧
    (∀ bound, 1 ≤ bound → bound < UInt32.size → ∀ k,
      EvenBelow bound fun seed => (((ofSeed seed).after k).below bound).1) ∧
    (∀ lo hi, lo < hi → hi < UInt32.size → ∀ g, DrawsWithin lo hi g) ∧
    ∀ {α : Type} (items : List α), items ≠ [] → items.length < UInt32.size →
      (∀ g : Generator, ∃ x ∈ items, (g.pick items).1 = some x) ∧
      ∀ x ∈ items, ∀ k, ∃ seed, (((ofSeed seed).after k).pick items).1 = some x :=
  ⟨word_bijective, afterAll_eq, fun _ hpos _ k => below_even hpos k,
    fun _ _ hlt hhi g => drawsWithin hlt hhi g,
    fun _ hne hlength => ⟨exists_pick_eq_some hne,
      fun _ hx k => exists_seed_pick hx hlength.le k⟩⟩

/-- Three destinations share the seeds: each is the third one drawn, after a number of cars from a
    range and a draw from an empty list that takes no word, from a third of them. -/
theorem threeDestinations_draw_evenly :
    let destinations : List String := ["HB", "CSW", "MF"]
    let g := ofSeed 12345
    (1 ≤ 3 ∧ 3 < UInt32.size ∧ 5 < 8 ∧ 8 < UInt32.size ∧ destinations ≠ [] ∧
      destinations.length < UInt32.size) ∧
    g.afterAll [.range 5 8, .pick ([] : List String), .pick destinations] = g.after 2 ∧
    (∃ m, (m = 1431655765 ∨ m = 1431655766) ∧
      {seed | (((ofSeed seed).after 2).below 3).1 = 1}.ncard = UInt32.size * m) ∧
    DrawsWithin 5 8 g ∧ (g.range 5 8).1 = 5 ∧
    (∃ x ∈ destinations, (g.pick destinations).1 = some x) ∧
    ∃ seed, (((ofSeed seed).after 2).pick destinations).1 = some "MF" := by
  intro destinations g
  obtain ⟨-, hafter, hbelow, hrange, hpick⟩ := draws_evenly
  have hlength : destinations.length < UInt32.size := by decide
  obtain ⟨hsome, hall⟩ := hpick destinations (List.cons_ne_nil _ _) hlength
  refine ⟨⟨by decide, by decide, by decide, by decide, List.cons_ne_nil _ _, hlength⟩,
    hafter _ _, (hbelow 3 (by decide) (by decide) 2).2 1 (by decide),
    hrange 5 8 (by decide) (by decide) g, ?_, hsome g, hall "MF" (by decide) 2⟩
  decide +kernel

end RailFreight.Generator
