/-!
# Tables

A *table* holds one value per key, in ascending order of the keys. Keys are ordered by
a *rank*, a natural number that tells them apart (`Ranked`). The order is part of the
type, so two tables with the same entries are equal, and a listing of a table has only
one order.

* `Table.get?_insert`, `Table.get?_erase`, `Table.get?_modify`: what each operation does
  to a lookup;
* `Table.ext_get?`: tables with the same lookups are equal;
* `Table.ofList_entries`: a table can be built up again from its entries.
-/

namespace RailFreight

/-- Keys with a rank: a natural number that orders them and tells them apart. -/
class Ranked (κ : Type) where
  /-- The place of a key in the order. -/
  rank : κ → Nat
  /-- Keys of one rank are the same key. -/
  rank_injective : ∀ {a b : κ}, rank a = rank b → a = b

export Ranked (rank rank_injective)

instance : Ranked Nat where
  rank := id
  rank_injective := id

/-- Sorts keys by their rank, keeping the order of equal ones. -/
def sortByRank {κ : Type} [Ranked κ] (keys : List κ) : List κ :=
  keys.mergeSort fun a b => rank a ≤ rank b

/-- Keys in ascending order, each kept once. -/
def sortedUnique {κ : Type} [Ranked κ] [BEq κ] (keys : List κ) : List κ :=
  (sortByRank keys).eraseDups

variable {κ ν : Type} [Ranked κ]

/-- Entries in ascending order of their keys, each key once. -/
def Ascending (entries : List (κ × ν)) : Prop :=
  entries.Pairwise fun a b => rank a.1 < rank b.1

/-- A table: one value per key, in ascending order of the keys. -/
structure Table (κ ν : Type) [Ranked κ] where
  /-- The keys with their values, by ascending key. -/
  entries : List (κ × ν)
  /-- The keys ascend, so each occurs once. -/
  ascending : Ascending entries

/-- The entries with `v` under `k`, in place of any value that `k` had. -/
def insertEntry (k : κ) (v : ν) : List (κ × ν) → List (κ × ν)
  | [] => [(k, v)]
  | (k', v') :: rest =>
    if rank k < rank k' then (k, v) :: (k', v') :: rest
    else if rank k = rank k' then (k, v) :: rest
    else (k', v') :: insertEntry k v rest

theorem mem_insertEntry {k : κ} {v : ν} {entries : List (κ × ν)} {e : κ × ν} :
    e ∈ insertEntry k v entries → e = (k, v) ∨ e ∈ entries := by
  induction entries with
  | nil => simp [insertEntry]
  | cons head rest ih =>
    rw [insertEntry]
    split
    · simp
    · split
      · intro h
        rcases List.mem_cons.1 h with h | h
        · exact .inl h
        · exact .inr (List.mem_cons_of_mem _ h)
      · intro h
        rcases List.mem_cons.1 h with h | h
        · exact .inr (h ▸ List.mem_cons_self)
        · exact (ih h).imp_right (List.mem_cons_of_mem _)

theorem Ascending.insertEntry (k : κ) (v : ν) {entries : List (κ × ν)}
    (h : Ascending entries) : Ascending (RailFreight.insertEntry k v entries) := by
  induction entries with
  | nil => simp [RailFreight.insertEntry, Ascending]
  | cons head rest ih =>
    obtain ⟨hhead, hrest⟩ := List.pairwise_cons.1 h
    rw [RailFreight.insertEntry]
    split
    · rename_i hlt
      refine List.pairwise_cons.2 ⟨fun e he => ?_, h⟩
      rcases List.mem_cons.1 he with rfl | he
      · exact hlt
      · exact Nat.lt_trans hlt (hhead e he)
    · split
      · rename_i heq
        exact List.pairwise_cons.2 ⟨fun e he => heq ▸ hhead e he, hrest⟩
      · rename_i hlt hne
        refine List.pairwise_cons.2 ⟨fun e he => ?_, ih hrest⟩
        rcases mem_insertEntry he with rfl | he
        · show rank head.1 < rank k
          omega
        · exact hhead e he

namespace Table

/-- The table without entries. -/
def empty : Table κ ν := ⟨[], List.Pairwise.nil⟩

instance : EmptyCollection (Table κ ν) := ⟨empty⟩
instance : Inhabited (Table κ ν) := ⟨empty⟩

instance [DecidableEq κ] [DecidableEq ν] : DecidableEq (Table κ ν) := fun a b =>
  if h : a.entries = b.entries then
    isTrue (by cases a; cases b; cases h; rfl)
  else isFalse fun e => h (e ▸ rfl)

instance [Repr κ] [Repr ν] : Repr (Table κ ν) := ⟨fun t => reprPrec t.entries⟩

/-- The value under `k`. -/
def get? (t : Table κ ν) (k : κ) : Option ν :=
  (t.entries.find? fun e => rank e.1 = rank k).map (·.2)

/-- Whether `k` has a value. -/
def contains (t : Table κ ν) (k : κ) : Bool := (t.get? k).isSome

/-- The value under `k`, or `default` when it has none. -/
def getD (t : Table κ ν) (k : κ) (default : ν) : ν := (t.get? k).getD default

/-- The keys in ascending order. -/
def keys (t : Table κ ν) : List κ := t.entries.map (·.1)

/-- The values by ascending key. -/
def values (t : Table κ ν) : List ν := t.entries.map (·.2)

/-- Puts `v` under `k`, in place of any value that `k` had. -/
def insert (t : Table κ ν) (k : κ) (v : ν) : Table κ ν :=
  ⟨insertEntry k v t.entries, t.ascending.insertEntry k v⟩

/-- Takes the value of `k` away. -/
def erase (t : Table κ ν) (k : κ) : Table κ ν :=
  ⟨t.entries.filter fun e => rank e.1 ≠ rank k, t.ascending.filter _⟩

/-- Changes the value of `k` by `f`; nothing happens when it has none. -/
def modify (t : Table κ ν) (k : κ) (f : ν → ν) : Table κ ν :=
  ⟨t.entries.map fun e => if rank e.1 = rank k then (e.1, f e.2) else e, by
    refine List.pairwise_map.2 (t.ascending.imp fun h => ?_)
    simpa only [apply_ite Prod.fst, ite_self] using h⟩

/-- The table of a list of entries; of two for one key the later counts. -/
def ofList (entries : List (κ × ν)) : Table κ ν :=
  entries.foldl (fun t e => t.insert e.1 e.2) empty

/-! ### Lookups -/

theorem find?_insertEntry (k j : κ) (v : ν) (entries : List (κ × ν)) :
    ((insertEntry k v entries).find? fun e => rank e.1 = rank j) =
      if rank k = rank j then some (k, v) else entries.find? fun e => rank e.1 = rank j := by
  induction entries with
  | nil => by_cases h : rank k = rank j <;> simp [insertEntry, h]
  | cons head rest ih =>
    obtain ⟨k', v'⟩ := head
    rw [insertEntry]
    split
    · by_cases h : rank k = rank j <;> simp [h]
    · split
      · rename_i heq
        by_cases h : rank k = rank j
        · simp [h]
        · have h' : ¬ rank k' = rank j := heq ▸ h
          simp [h, h']
      · rename_i hne
        by_cases h : rank k' = rank j
        · have hk : ¬ rank k = rank j := fun e => hne (e.trans h.symm)
          simp [h, hk]
        · simp [h, ih]

/-- After an insertion the key has the new value, and all others what they had. -/
theorem get?_insert (t : Table κ ν) (k j : κ) (v : ν) :
    (t.insert k v).get? j = if rank k = rank j then some v else t.get? j := by
  rw [get?, insert, find?_insertEntry]
  split <;> simp [get?]

/-- After an erasure the key has no value, and all others what they had. -/
theorem get?_erase (t : Table κ ν) (k j : κ) :
    (t.erase k).get? j = if rank k = rank j then none else t.get? j := by
  rw [get?, get?, erase, List.find?_filter]
  split
  · rename_i h
    rw [List.find?_eq_none.2]
    · rfl
    · intro e _
      simp [h]
  · rename_i h
    congr 2
    funext e
    by_cases he : rank e.1 = rank j
    · simp [he, Ne.symm h]
    · simp [he]

/-- A change of one value changes the lookup of its key alone. -/
theorem get?_modify (t : Table κ ν) (k j : κ) (f : ν → ν) :
    (t.modify k f).get? j = if rank k = rank j then (t.get? j).map f else t.get? j := by
  simp only [get?, modify]
  generalize t.entries = entries
  induction entries with
  | nil => simp
  | cons head rest ih =>
    by_cases hk : rank head.1 = rank k <;> by_cases hj : rank head.1 = rank j <;> simp_all
    exact fun h => absurd h.symm hk

@[simp]
theorem keys_modify (t : Table κ ν) (k : κ) (f : ν → ν) : (t.modify k f).keys = t.keys := by
  simp only [keys, modify, List.map_map]
  refine List.map_congr_left fun e _ => ?_
  by_cases h : rank e.1 = rank k <;> simp [h]

@[simp]
theorem get?_empty (k : κ) : (empty : Table κ ν).get? k = none := rfl

/-- An entry is what a lookup of its key finds. -/
theorem mem_entries_iff {t : Table κ ν} {k : κ} {v : ν} :
    (k, v) ∈ t.entries ↔ t.get? k = some v := by
  rw [get?]
  have h := t.ascending
  revert h
  generalize t.entries = entries
  intro h
  induction entries with
  | nil => simp
  | cons head rest ih =>
    obtain ⟨hhead, hrest⟩ := List.pairwise_cons.1 h
    obtain ⟨k', v'⟩ := head
    by_cases hk : rank k' = rank k
    · have : k' = k := rank_injective hk
      subst this
      have hnot : (k', v) ∉ rest := fun hm => Nat.lt_irrefl (rank k') (hhead (k', v) hm)
      simp [hnot, eq_comm]
    · have : k ≠ k' := fun e => hk (e ▸ rfl)
      simp [hk, this, ih hrest]

theorem eq_of_mem_iff : ∀ {xs ys : List (κ × ν)}, Ascending xs → Ascending ys →
    (∀ e, e ∈ xs ↔ e ∈ ys) → xs = ys
  | [], [], _, _, _ => rfl
  | [], y :: _, _, _, h => absurd ((h y).2 List.mem_cons_self) List.not_mem_nil
  | x :: _, [], _, _, h => absurd ((h x).1 List.mem_cons_self) List.not_mem_nil
  | x :: xs, y :: ys, hx, hy, h => by
    obtain ⟨hxhead, hxrest⟩ := List.pairwise_cons.1 hx
    obtain ⟨hyhead, hyrest⟩ := List.pairwise_cons.1 hy
    have hxy : x = y := by
      rcases List.mem_cons.1 ((h x).1 List.mem_cons_self) with e | hm
      · exact e
      · rcases List.mem_cons.1 ((h y).2 List.mem_cons_self) with e | hm'
        · exact e.symm
        · exact absurd (hyhead x hm) (Nat.lt_asymm (hxhead y hm'))
    subst hxy
    congr 1
    refine eq_of_mem_iff hxrest hyrest fun e => ⟨fun he => ?_, fun he => ?_⟩
    · rcases List.mem_cons.1 ((h e).1 (List.mem_cons_of_mem _ he)) with rfl | hm
      · exact absurd (hxhead e he) (Nat.lt_irrefl _)
      · exact hm
    · rcases List.mem_cons.1 ((h e).2 (List.mem_cons_of_mem _ he)) with rfl | hm
      · exact absurd (hyhead e he) (Nat.lt_irrefl _)
      · exact hm

/-- Tables with the same lookups are equal. -/
theorem ext_get? {s t : Table κ ν} (h : ∀ k, s.get? k = t.get? k) : s = t := by
  have he : s.entries = t.entries := eq_of_mem_iff s.ascending t.ascending fun ⟨k, v⟩ => by
    rw [mem_entries_iff, mem_entries_iff, h]
  cases s
  cases t
  cases he
  rfl

theorem get?_foldl_insert {entries : List (κ × ν)} (h : Ascending entries) (t : Table κ ν)
    (k : κ) : (entries.foldl (fun t e => t.insert e.1 e.2) t).get? k =
      ((entries.find? fun e => rank e.1 = rank k).map (·.2)).or (t.get? k) := by
  induction entries generalizing t with
  | nil => simp
  | cons e entries ih =>
    obtain ⟨hhead, hrest⟩ := List.pairwise_cons.1 h
    rw [List.foldl_cons, ih hrest, get?_insert]
    by_cases hk : rank e.1 = rank k
    · have hnone : (entries.find? fun e => rank e.1 = rank k) = none := by
        refine List.find?_eq_none.2 fun e' he' heq => ?_
        have hlt := hhead e' he'
        rw [hk, of_decide_eq_true heq] at hlt
        exact Nat.lt_irrefl _ hlt
      simp [hk, hnone]
    · simp [hk]

/-- A table is the one of its entries. -/
theorem ofList_entries (t : Table κ ν) : ofList t.entries = t :=
  ext_get? fun k => (get?_foldl_insert t.ascending empty k).trans Option.or_none

end Table

end RailFreight
