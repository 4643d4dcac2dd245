import RailFreight.Proofs.Progress

/-!
# Batches of deliveries

A processor gets its cargo in deliveries of any size, and is told to produce at any time between
them. What is left in the buffer is carried over to the next time, so nothing is lost by producing
early or late: whenever a processor that started with nothing has just produced, the units that it
has made so far are those that everything delivered so far would have made at once. They are
decided by the scarcest cargo of the blueprint.

* `Processor.followAll_balanced`: what was delivered is in the buffer, or went into units;
* `Processor.exists_followAll`: deliveries that fit a count in total meet no fault;
* `Processor.exists_short_of_tryProduce`: production stops only when some cargo is short;
* `Processor.produced_of_delivered`: how many units have been made after a production, and what
  is left, however the deliveries were batched.
-/

namespace RailFreight.Processor

/-- What is asked of a processor. -/
inductive Call
  /-- Cars of a cargo are delivered. -/
  | deliver (cargo : Cargo) (count : Nat)
  /-- As many units as possible are to be produced. -/
  | produce
  deriving DecidableEq, Repr

/-- The cars of a cargo that a call brings. -/
def Call.brings (x : Cargo) : Call → Nat
  | deliver cargo count => cargo.only count x
  | produce => 0

/-- The cars of a cargo that calls bring altogether. -/
def delivered (calls : List Call) (x : Cargo) : Nat := (calls.map (·.brings x)).sum

/-- Follows a call, and answers with the units produced. -/
def follow (p : Processor) : Call → Faulty (Nat × Processor)
  | .deliver cargo count => do return (0, ← p.accumulate cargo count)
  | .produce => p.tryProduce

/-- Follows calls one after the other, and answers with the units produced altogether. -/
def followAll (p : Processor) : List Call → Faulty (Nat × Processor)
  | [] => .ok (0, p)
  | call :: calls => do
    let (units, p) ← p.follow call
    let (more, p) ← p.followAll calls
    return (units + more, p)

variable {p q : Processor} {call : Call} {calls : List Call} {units : Nat}

/-! ## The balance of a processor -/

/-- What comes of calls that bring `amount` of each cargo: it is in the buffer, or went into
    units, and nothing else has changed. -/
structure Balanced (p : Processor) (amount : Cargo → Nat) (units : Nat) (q : Processor) : Prop where
  same : q = { p with buffer := q.buffer }
  buffered : ∀ x, q.buffered x + units * p.needOf x = p.buffered x + amount x

theorem delivered_append (calls calls' : List Call) (x : Cargo) :
    delivered (calls ++ calls') x = delivered calls x + delivered calls' x := by
  rw [delivered, List.map_append, List.sum_append]
  rfl

/-- The last one of some calls is followed by what the others leave. -/
theorem followAll_concat (h : p.followAll (calls ++ [call]) = .ok (units, q)) :
    ∃ first r last, p.followAll calls = .ok (first, r) ∧ r.follow call = .ok (last, q) ∧
      units = first + last := by
  induction calls generalizing p units with
  | nil =>
    obtain ⟨⟨last, r⟩, hlast, h⟩ := Faulty.bind_eq_ok_iff.1 h
    cases h
    exact ⟨0, p, last, rfl, hlast, Nat.add_comm last 0⟩
  | cons c calls ih =>
    obtain ⟨⟨n, r⟩, hfirst, h⟩ := Faulty.bind_eq_ok_iff.1 h
    obtain ⟨⟨m, q'⟩, hrest, h⟩ := Faulty.bind_eq_ok_iff.1 h
    cases h
    obtain ⟨m', r', last, hcalls, hlast, rfl⟩ := ih hrest
    refine ⟨n + m', r', last, ?_, hlast, (Nat.add_assoc n m' last).symm⟩
    exact Faulty.bind_eq_ok_iff.2 ⟨_, hfirst, Faulty.bind_eq_ok_iff.2 ⟨_, hcalls, rfl⟩⟩

theorem follow_balanced (h : p.follow call = .ok (units, q)) :
    p.Balanced (call.brings ·) units q := by
  cases call with
  | deliver cargo count =>
    obtain ⟨r, hdelivery, h⟩ := Faulty.bind_eq_ok_iff.1 h
    cases h
    obtain ⟨hq, hamount⟩ := accumulate_eq_ok hdelivery
    refine ⟨by rw [hq], fun x => ?_⟩
    rw [Nat.zero_mul, Nat.add_zero]
    exact hamount x
  | produce =>
    obtain ⟨-, hq, hamount⟩ := tryProduce_amount h
    exact ⟨hq, hamount⟩

theorem followAll_balanced (h : p.followAll calls = .ok (units, q)) :
    p.Balanced (delivered calls) units q := by
  induction calls generalizing p units with
  | nil =>
    cases h
    exact ⟨rfl, fun x => by rw [Nat.zero_mul]; rfl⟩
  | cons call calls ih =>
    obtain ⟨⟨first, r⟩, hfirst, h⟩ := Faulty.bind_eq_ok_iff.1 h
    obtain ⟨⟨more, q'⟩, hrest, h⟩ := Faulty.bind_eq_ok_iff.1 h
    cases h
    have hcall := follow_balanced hfirst
    have hcalls := ih hrest
    -- Needs are those of the blueprint, which no call changes.
    have hneed : ∀ x, r.needOf x = p.needOf x := fun x => by rw [hcall.same]; rfl
    refine ⟨by rw [hcalls.same, hcall.same], fun x => ?_⟩
    have hr := hcall.buffered x
    have hq := hcalls.buffered x
    rw [hneed] at hq
    have hsum : delivered (call :: calls) x = call.brings x + delivered calls x := rfl
    rw [hsum, Nat.add_mul]
    omega

/-! ## Faults -/

/-- Deliveries that fit a count together with what is in the buffer meet no fault. -/
theorem exists_followAll (h : ∀ x, p.buffered x + delivered calls x < Count.limit) :
    ∃ units q, p.followAll calls = .ok (units, q) := by
  induction calls generalizing p with
  | nil => exact ⟨0, p, rfl⟩
  | cons call calls ih =>
    have hsum : ∀ x, delivered (call :: calls) x = call.brings x + delivered calls x := fun _ => rfl
    simp only [hsum] at h
    have hcall : ∃ units r, p.follow call = .ok (units, r) := by
      cases call with
      | deliver cargo count =>
        have hroom := h cargo
        rw [Call.brings, Cargo.only, if_pos rfl] at hroom
        have hfits : p.buffer.amount cargo + count < Count.limit := by
          rw [buffered] at hroom
          omega
        obtain ⟨buffer, hadded⟩ := Stock.exists_add hfits
        exact ⟨0, { p with buffer }, Faulty.bind_eq_ok_iff.2
          ⟨_, Faulty.bind_eq_ok_iff.2 ⟨buffer, hadded, rfl⟩, rfl⟩⟩
      | produce =>
        refine exists_tryProduce fun x => ?_
        have hroom := h x
        omega
    obtain ⟨units, r, hfirst⟩ := hcall
    -- Units only take from the buffer, so the room for the other deliveries is still there.
    have hroom : ∀ x, r.buffered x + delivered calls x < Count.limit := by
      intro x
      have hx := h x
      have hr := (follow_balanced hfirst).buffered x
      omega
    obtain ⟨more, q, hrest⟩ := ih hroom
    exact ⟨_, _, Faulty.bind_eq_ok_iff.2 ⟨_, hfirst, Faulty.bind_eq_ok_iff.2 ⟨_, hrest, rfl⟩⟩⟩

/-! ## Production -/

theorem perUnit_pos (need : Nat) : 0 < perUnit need :=
  Nat.lt_of_lt_of_le Nat.one_pos (Nat.le_max_right _ _)

theorem needOf_of_mem {e : Cargo × Nat} (h : e ∈ p.blueprint.entries) :
    p.needOf e.1 = perUnit e.2 := by
  rw [needOf, Table.mem_entries_iff.1 h]
  rfl

/-- Production stops only when a cargo is short for one more unit. -/
theorem exists_short_of_tryProduce (hg : ¬ p.isGenerative) (h : p.tryProduce = .ok (units, q)) :
    ∃ e ∈ p.blueprint.entries, q.buffered e.1 < perUnit e.2 := by
  obtain ⟨hunits, -, hamount⟩ := tryProduce_amount h
  rw [if_neg hg] at hunits
  have hne : (p.blueprint.entries.map fun e => p.buffered e.1 / perUnit e.2) ≠ [] := by
    intro hnil
    refine hg ?_
    rw [isGenerative, Table.keys, List.map_eq_nil_iff.1 hnil]
    rfl
  -- The cargo that decides how many units there are is the one that is short afterwards.
  obtain ⟨least, hleast⟩ := Option.isSome_iff_exists.1 (List.isSome_min?_of_ne_nil hne)
  obtain ⟨e, he, hdecides⟩ := List.mem_map.1 (List.min?_mem hleast)
  have hleast : units = p.buffered e.1 / perUnit e.2 := by
    rw [hunits, affordable, hleast, Option.getD_some, hdecides]
  refine ⟨e, he, ?_⟩
  have hbuffer := hamount e.1
  have hmod := Nat.mod_lt (p.buffered e.1) (perUnit_pos e.2)
  have hdiv := Nat.div_add_mod' (p.buffered e.1) (perUnit e.2)
  rw [needOf_of_mem he, hleast] at hbuffer
  omega

/-- Nothing is produced while a cargo is short. -/
theorem tryProduce_of_short {e : Cargo × Nat} (he : e ∈ p.blueprint.entries)
    (hshort : p.buffered e.1 < perUnit e.2) : p.tryProduce = .ok (0, p) := by
  have hle : p.affordable ≤ p.buffered e.1 / perUnit e.2 :=
    List.min?_getD_le_of_mem (List.mem_map_of_mem he)
  rw [Nat.div_eq_of_lt hshort] at hle
  rw [tryProduce, if_pos]
  rw [Nat.le_zero.1 hle]
  simp

/-- After a production a cargo is short, whatever was asked before. -/
theorem exists_short_of_followAll (hg : ¬ p.isGenerative)
    (h : p.followAll (calls ++ [.produce]) = .ok (units, q)) :
    ∃ e ∈ p.blueprint.entries, q.buffered e.1 < perUnit e.2 := by
  obtain ⟨first, r, last, hcalls, hproduction, -⟩ := followAll_concat h
  have hr := (followAll_balanced hcalls).same
  have hgr : ¬ r.isGenerative := by rwa [hr]
  have hblueprint : r.blueprint = p.blueprint := by rw [hr]
  rw [← hblueprint]
  exact exists_short_of_tryProduce hgr hproduction

/-- When a cargo is short, the units made so far are as many as all that was brought allows. -/
theorem Balanced.min?_eq {amount : Cargo → Nat} {short : Cargo × Nat}
    (h : p.Balanced amount units q) (hnone : ∀ x, p.buffered x = 0)
    (hmem : short ∈ p.blueprint.entries) (hshort : q.buffered short.1 < perUnit short.2) :
    (p.blueprint.entries.map fun e => amount e.1 / perUnit e.2).min? = some units := by
  -- What is left of a cargo allows some further units, and those of the short one allow none.
  have hallows : ∀ e ∈ p.blueprint.entries,
      amount e.1 / perUnit e.2 = q.buffered e.1 / perUnit e.2 + units := by
    intro e he
    have hbalance := h.buffered e.1
    rw [hnone, Nat.zero_add, needOf_of_mem he] at hbalance
    rw [← hbalance, Nat.add_mul_div_right _ _ (perUnit_pos _)]
  refine List.min?_eq_some_iff.2 ⟨List.mem_map.2 ⟨short, hmem, ?_⟩, fun n hn => ?_⟩
  · rw [hallows short hmem, Nat.div_eq_of_lt hshort, Nat.zero_add]
  · obtain ⟨e, he, rfl⟩ := List.mem_map.1 hn
    rw [hallows e he]
    exact Nat.le_add_left _ _

/-- However the deliveries to a processor that had nothing are batched, they meet no fault as long
    as they fit a count in total. Right after a production, all units made so far are as many as
    the scarcest cargo of the blueprint allows, given all that was delivered; what was not used is
    in the buffer; and there is nothing more to produce. -/
theorem produced_of_delivered (hg : ¬ p.isGenerative) (hempty : p.buffer = Table.empty)
    (hfits : ∀ x, delivered calls x < Count.limit) :
    (∃ units q, p.followAll calls = .ok (units, q)) ∧
    ∀ before after, calls = before ++ .produce :: after →
      ∃ units q, p.followAll (before ++ [.produce]) = .ok (units, q) ∧
        (p.blueprint.entries.map fun e => delivered before e.1 / max e.2 1).min? = some units ∧
        (∀ x need, p.blueprint.get? x = some need →
          q.buffered x + units * max need 1 = delivered before x) ∧
        (∀ x, p.blueprint.get? x = none → q.buffered x = delivered before x) ∧
        q.tryProduce = .ok (0, q) := by
  have hnone : ∀ x, p.buffered x = 0 := fun x => by rw [buffered, hempty]; rfl
  refine ⟨exists_followAll fun x => by rw [hnone, Nat.zero_add]; exact hfits x, ?_⟩
  rintro before after rfl
  -- A production brings nothing.
  have hlast : delivered (before ++ [.produce]) = delivered before :=
    funext (delivered_append before [.produce])
  obtain ⟨units, q, hrun⟩ : ∃ units q, p.followAll (before ++ [.produce]) = .ok (units, q) := by
    refine exists_followAll fun x => ?_
    have hx := hfits x
    rw [delivered_append] at hx
    rw [hnone, hlast]
    omega
  have hbalanced := followAll_balanced hrun
  rw [hlast] at hbalanced
  have hbalance := hbalanced.buffered
  simp only [hnone, Nat.zero_add] at hbalance
  obtain ⟨short, hmem, hshort⟩ := exists_short_of_followAll hg hrun
  refine ⟨units, q, hrun, hbalanced.min?_eq hnone hmem hshort, ?_, ?_, ?_⟩
  · intro x need hneed
    rw [← hbalance, needOf, hneed]
    rfl
  · intro x hx
    have hother : p.needOf x = 0 := by rw [needOf, hx]; rfl
    rw [← hbalance, hother, Nat.mul_zero, Nat.add_zero]
  · refine tryProduce_of_short (e := short) ?_ hshort
    rwa [hbalanced.same]

/-- A mill that takes two cars of ore and one of coal for a slab gets five cars of coal and six of
    ore in four deliveries, is told to produce three times, and has made three slabs. Something
    that it does not need, and a need of zero, which counts as one, are among them. -/
theorem millCalls_produced_of_delivered :
    let mill := ofBlueprint (Table.ofList [(.coal, 1), (.ironOre, 2), (.argon, 0)]) .steelSlabs []
    let before : List Call := [.deliver .coal 3, .deliver .argon 4, .deliver .ironOre 5, .produce,
      .deliver .coal 2, .produce, .deliver .ironOre 1, .deliver .logs 7]
    let calls := before ++ .produce :: [.deliver .coal 1]
    (¬ mill.isGenerative ∧ mill.buffer = Table.empty ∧ ∀ x, delivered calls x < Count.limit) ∧
    (∃ units q, mill.followAll calls = .ok (units, q)) ∧
    ∃ units q, mill.followAll (before ++ [.produce]) = .ok (units, q) ∧
      (mill.blueprint.entries.map fun e => delivered before e.1 / max e.2 1).min? = some units ∧
      units = 3 ∧ q.buffered .coal + units * max 1 1 = delivered before .coal ∧
      q.buffered .logs = delivered before .logs ∧ q.tryProduce = .ok (0, q) := by
  intro mill before calls
  have hg : ¬ mill.isGenerative := by decide
  have hfits : ∀ x, delivered calls x < Count.limit := fun x => by cases x <;> decide
  obtain ⟨hfault, hproduced⟩ := produced_of_delivered hg rfl hfits
  obtain ⟨units, q, hrun, hmin, hneeded, hother, hspent⟩ := hproduced before _ rfl
  refine ⟨⟨hg, rfl, hfits⟩, hfault, units, q, hrun, hmin, ?_, hneeded _ _ rfl, hother _ rfl, hspent⟩
  have hthree : (mill.blueprint.entries.map fun e => delivered before e.1 / max e.2 1).min? =
      some 3 := by decide
  exact Option.some.inj (hmin.symm.trans hthree)

end RailFreight.Processor
