import RailFreight.Network.Standard
import RailFreight.Proofs.Ledger

/-!
# How many loads there are

A processor that makes its cargo from nothing brings one load of it along, and each load that is
finished is replaced by the next one. Where it is the only one for its cargo, that load is the
only one, and whoever reserves or takes it, it neither gets lost nor doubled: no output is folded
in, so nothing ever waits for room that could be folded in later. A processor that makes its cargo
of deliveries brings no load along, and its output joins a load that nobody has claimed, if there
is one. So there is never more than one such load.

* `Ledger.Balanced`: the numbers of loads that the makers of a cargo account for;
* `Ledger.Turn.balanced`: operations that create no job keep them;
* `load_population`: the loads in a run without created jobs, and in the standard network.
-/

namespace RailFreight

/-! ## Balanced ledgers -/

namespace Ledger

variable {code : StationCode} {x : Cargo} {op : Operation} {l l' : Ledger}

@[simp] theorem fold_makers (l : Ledger) (waiting : Nat) : (l.fold waiting).makers = l.makers := by
  rw [fold]
  split <;> rfl

@[simp] theorem replenish_makers (l : Ledger) : l.replenish.makers = l.makers := by
  rw [replenish]
  split <;> rfl

@[simp] theorem addMaker_makers (l : Ledger) (generative : Bool) :
    (l.addMaker generative).makers = l.makers ++ [generative] := by
  cases generative <;> rfl

theorem Drained.makers_eq (h : l.Drained l') : l'.makers = l.makers := by
  cases h with
  | dry => rfl
  | folded waiting => exact l.fold_makers waiting

/-- Folded output does not make a second unclaimed load. -/
theorem fold_unclaimed_le (h : l.unclaimed ≤ 1) (waiting : Nat) :
    (l.fold waiting).unclaimed ≤ 1 := by
  rw [fold]
  split
  · rename_i hnone
    show l.unclaimed + 1 ≤ 1
    omega
  · exact h

theorem Drained.unclaimed_le (h : l.Drained l') (hl : l.unclaimed ≤ 1) : l'.unclaimed ≤ 1 := by
  cases h with
  | dry => exact hl
  | folded waiting => exact fold_unclaimed_le hl waiting

/-- Where no maker is generative, none brings a load. -/
theorem replenish_eq_self (h : true ∉ l.makers) : l.replenish = l :=
  if_neg fun hfirst => h (List.mem_of_head? hfirst)

/-- The loads are those that the makers account for. -/
structure Balanced (l : Ledger) : Prop where
  /-- Nothing is there of a cargo that nobody makes. -/
  unmade : l.makers = [] → l.loads = 0 ∧ l.unclaimed = 0 ∧ l.waiting = 0
  /-- A generative maker that is alone keeps one load going. -/
  single : l.makers = [true] → l.loads = 1 ∧ l.waiting = 0
  /-- Makers that are not generative share a load. -/
  shared : true ∉ l.makers → l.unclaimed ≤ 1

theorem balanced_blank : blank.Balanced :=
  ⟨fun _ => ⟨rfl, rfl, rfl⟩, nofun, fun _ => Nat.zero_le 1⟩

theorem Balanced.addMaker (h : l.Balanced) (generative : Bool) :
    (l.addMaker generative).Balanced := by
  refine ⟨?_, ?_, ?_⟩ <;> rw [addMaker_makers] <;> intro hmakers
  · exact absurd hmakers (List.append_ne_nil_of_right_ne_nil _ (List.cons_ne_nil _ _))
  · -- The new maker is the only one, so it comes first of all.
    obtain ⟨hnone, hg⟩ : l.makers = [] ∧ generative = true := by
      have hlength := congrArg List.length hmakers
      rw [List.length_append, List.length_singleton, List.length_singleton] at hlength
      have hnone : l.makers = [] := List.eq_nil_of_length_eq_zero (by omega)
      rw [hnone] at hmakers
      exact ⟨hnone, List.head_eq_of_cons_eq hmakers⟩
    obtain ⟨hloads, -, hwaiting⟩ := h.unmade hnone
    subst hg
    exact ⟨congrArg Nat.succ hloads, hwaiting⟩
  · rw [List.mem_append, List.mem_singleton, not_or] at hmakers
    obtain ⟨hold, hnew⟩ := hmakers
    rw [Ledger.addMaker, if_neg (Ne.symm hnew)]
    exact h.shared hold

/-- A load that leaves is replaced where its maker is generative, and only there. -/
theorem Balanced.shipped {loads : Nat} (h : l.Balanced) (hloads : l.loads = loads + 1)
    (hd : { l with loads }.replenish.Drained l') : l'.Balanced := by
  have hmakers : l'.makers = l.makers := by rw [hd.makers_eq, replenish_makers]
  refine ⟨?_, ?_, ?_⟩ <;> rw [hmakers] <;> intro hm
  · obtain ⟨hnone, -⟩ := h.unmade hm
    omega
  · obtain ⟨hone, hwaiting⟩ := h.single hm
    have hnext : { l with loads }.replenish = { l with loads }.addLoad := if_pos (by rw [hm]; rfl)
    rw [hnext] at hd
    cases hd with
    | dry => exact ⟨hloads.symm.trans hone, hwaiting⟩
    | folded _ hwaits => exact absurd hwaiting hwaits
  · rw [replenish_eq_self (l := { l with loads }) hm] at hd
    exact hd.unclaimed_le (h.shared hm)

end Ledger

/-- Whether the operation creates a job. -/
def Operation.createsJob : Operation → Bool
  | createJob .. => true
  | _ => false

/-- Nobody creates a job, so all of them are made by the network. -/
def Unaided (_ : Network) (op : Operation) : Prop := op.createsJob = false

namespace Ledger

variable {code : StationCode} {x : Cargo} {op : Operation} {l l' : Ledger}

/-- Operations that create no job keep a ledger balanced. -/
theorem Turn.balanced {net : Network} (h : Turn code x op l l') (hop : Unaided net op)
    (hl : l.Balanced) : l'.Balanced := by
  cases h with
  | kept => exact hl
  | replaced => exact balanced_blank
  | equipped => exact hl.addMaker _
  | queued => exact absurd hop nofun
  | claimed unclaimed hle =>
    refine ⟨fun hm => ?_, hl.single, fun hm => hle.trans (hl.shared hm)⟩
    obtain ⟨hloads, hnone, hwaiting⟩ := hl.unmade hm
    exact ⟨hloads, Nat.le_zero.1 (hnone ▸ hle), hwaiting⟩
  | made waiting hmaker =>
    -- Some maker is not generative, so only the last part says anything.
    refine ⟨?_, ?_, ?_⟩ <;> rw [fold_makers] <;> intro hm
    · rw [hm] at hmaker
      exact absurd hmaker List.not_mem_nil
    · rw [hm] at hmaker
      exact absurd hmaker (by decide)
    · exact fold_unclaimed_le (hl.shared hm) waiting
  | shipped loads hloads _ hd => exact hl.shipped hloads hd

end Ledger

/-! ## Operations that spare a ledger -/

/-- The operation neither creates a job, nor replaces the station, nor adds a processor that makes
    the cargo there. -/
def Operation.Spares (code : StationCode) (cargo : Cargo) : Operation → Prop
  | .addStation c _ _ => c ≠ code
  | .addProcessor c p => ¬ (c = code ∧ p.output = cargo)
  | .createJob .. => False
  | _ => True

theorem Operation.Spares.unaided {code : StationCode} {cargo : Cargo} {op : Operation}
    (h : op.Spares code cargo) (net : Network) : Unaided net op := by
  cases op with
  | createJob => exact h.elim
  | addStation | addProcessor | revalidate | request => rfl

theorem Unaided.keepsLoadsHome {net : Network} {op : Operation} (h : Unaided net op) :
    net.KeepsLoadsHome op := by
  cases op with
  | createJob => exact absurd h nofun
  | addStation | addProcessor | revalidate | request => exact trivial

/-- The makers of a cargo stay as they are. -/
theorem Ledger.Turn.makers_eq {code : StationCode} {x : Cargo} {op : Operation} {l l' : Ledger}
    (h : Turn code x op l l') (hop : op.Spares code x) : l'.makers = l.makers := by
  cases h with
  | kept | claimed => rfl
  | replaced => exact absurd rfl hop
  | equipped houtput => exact absurd ⟨rfl, houtput⟩ hop
  | queued => exact hop.elim
  | made waiting => exact fold_makers _ waiting
  | shipped loads _ _ hd => rw [hd.makers_eq, replenish_makers]

section Runs

variable {config : Config} {history : List Event} {net net' : Network} {code : StationCode}
  {cargo : Cargo} {s : Station}

/-- In a run without created jobs all ledgers are balanced, and all loads stay at home. -/
theorem Run.balanced (h : Run Unaided config history net) (code : StationCode) (cargo : Cargo) :
    (net.ledger code cargo).strays = 0 ∧ (net.ledger code cargo).Balanced :=
  h.ledger (fun _ _ => Unaided.keepsLoadsHome) Ledger.balanced_blank
    (fun _ _ _ _ _ _ hop hturn => hturn.balanced hop) code cargo

/-- Operations that spare a ledger keep its makers. -/
theorem Run.performAll_makers {ops : List Operation} (h : Run Unaided config history net)
    (hspare : ∀ op ∈ ops, op.Spares code cargo) (hops : net.performAll ops = .ok net') :
    (net'.ledger code cargo).makers = (net.ledger code cargo).makers := by
  induction ops generalizing history net with
  | nil =>
    cases hops
    rfl
  | cons op ops ih =>
    rw [Network.performAll, List.foldlM_cons] at hops
    obtain ⟨n, hop, hops⟩ := Faulty.bind_eq_ok_iff.1 hops
    obtain ⟨⟨outcome, n'⟩, hp, hn⟩ := Faulty.bind_eq_ok_iff.1 hop
    cases hn
    obtain ⟨hfirst, hrest⟩ := List.forall_mem_cons.1 hspare
    have hunaided := hfirst.unaided net
    have hturn := Network.perform_ledger h.reachable.safe (fun c y => (h.balanced c y).1)
      hunaided.keepsLoadsHome hp code cargo
    rw [ih (h.step hunaided hp) hrest hops, hturn.makers_eq hfirst]

/-- A generative processor that is alone with its cargo keeps exactly one load of it, and nothing
    waits for room. -/
theorem Run.single_load (h : Run Unaided config history net)
    (hmakers : (net.ledger code cargo).makers = [true]) :
    ∃ s, net.station? code = some s ∧ s.queue.countP (·.isLoadOf cargo) = 1 ∧
      s.overflowOf cargo = 0 := by
  cases hs : net.station? code with
  | none =>
    rw [Network.ledger, hs] at hmakers
    exact absurd hmakers.symm (List.cons_ne_nil _ _)
  | some s =>
    have hsingle := (h.balanced code cargo).2.single hmakers
    rw [Network.ledger_of_station? hs] at hsingle
    exact ⟨s, rfl, hsingle⟩

/-! ## The standard network -/

/-- The makers of a cargo at a station among processors that are to be added. -/
def makersAmong (ps : List (StationCode × Processor)) (code : StationCode) (cargo : Cargo) :
    List Bool :=
  (ps.filter fun e => e.1 = code && e.2.output = cargo).map (·.2.isGenerative)

/-- New stations leave all ledgers blank. -/
theorem Run.addStations (ranges : List (StationCode × Nat × Nat))
    (h : Run Unaided config history net) (hblank : ∀ c x, net.ledger c x = .blank) :
    let net' := ranges.foldl (fun net (code, lo, hi) => net.addStation code lo hi) net
    (∃ history, Run Unaided config history net') ∧ (∀ c x, net'.ledger c x = .blank) ∧
      ∀ c, (net.station? c).isSome ∨ c ∈ ranges.map Prod.fst → (net'.station? c).isSome := by
  induction ranges generalizing history net with
  | nil => exact ⟨⟨history, h⟩, hblank, fun c hc => hc.resolve_right List.not_mem_nil⟩
  | cons r ranges ih =>
    obtain ⟨code, lo, hi⟩ := r
    have hperform : net.perform (.addStation code lo hi) =
      .ok (.stationAdded, net.addStation code lo hi) := rfl
    have hadded : ∀ c x, (net.addStation code lo hi).ledger c x = .blank := by
      intro c x
      rw [Network.addStation, Network.ledger_putStation]
      split
      · rfl
      · exact hblank c x
    have hunaided : Unaided net (.addStation code lo hi) := rfl
    obtain ⟨hrun, hblank', hfound⟩ := ih (h.step hunaided hperform) hadded
    refine ⟨hrun, hblank', fun c hc => hfound c ?_⟩
    rw [List.map_cons, List.mem_cons] at hc
    rw [Network.addStation, Network.station?_putStation]
    by_cases hcode : (Station.new code lo hi).code = c
    · exact .inl (by rw [if_pos hcode]; rfl)
    · rw [if_neg hcode]
      exact hc.imp_right fun hc => hc.resolve_left fun h => hcode h.symm

/-- Processors that are added at stations of the network are makers there. -/
theorem Run.addProcessors {ps : List (StationCode × Processor)}
    (h : Run Unaided config history net) (hfound : ∀ c, (net.station? c).isSome)
    (hadd : net.addProcessors ps = .ok net') :
    (∃ history, Run Unaided config history net') ∧ ∀ c x,
      (net'.ledger c x).makers = (net.ledger c x).makers ++ makersAmong ps c x := by
  induction ps generalizing history net with
  | nil =>
    cases hadd
    exact ⟨⟨history, h⟩, fun c x => (List.append_nil _).symm⟩
  | cons e ps ih =>
    obtain ⟨code, p⟩ := e
    obtain ⟨⟨seeded, n⟩, hfirst, hrest⟩ := Faulty.bind_eq_ok_iff.1 hadd
    have hperform : net.perform (.addProcessor code p) = .ok (.processorAdded seeded, n) :=
      Faulty.bind_eq_ok_iff.2 ⟨_, hfirst, rfl⟩
    have hkeys := (Network.addProcessor_upkeptAt hfirst).upkept.keys_eq
    have hfound' : ∀ c, (n.station? c).isSome := by
      intro c
      rw [← Network.mem_keys_iff, hkeys, Network.mem_keys_iff]
      exact hfound c
    have hunaided : Unaided net (.addProcessor code p) := rfl
    obtain ⟨hrun, hmakers⟩ := ih (h.step hunaided hperform) hfound' hrest
    refine ⟨hrun, fun c x => ?_⟩
    rw [hmakers, Network.addProcessor_ledger h.reachable.safe.filed hfirst]
    by_cases hcx : code = c ∧ p.output = x
    · rw [if_pos ⟨hfound code, hcx⟩, Ledger.addMaker_makers, List.append_assoc]
      simp [makersAmong, hcx]
    · rw [if_neg fun h => hcx h.2]
      simp [makersAmong, hcx]

/-- The standard network comes of a run without created jobs, and its makers are those among its
    processors. -/
theorem exists_run_standard (h : Network.standard config = .ok net) :
    ∃ history, Run Unaided config history net ∧
      ∀ c x, (net.ledger c x).makers = makersAmong Network.standardProcessors c x := by
  obtain ⟨n, hn, h⟩ := Faulty.bind_eq_ok_iff.1 h
  cases h
  have hstart : Run Unaided config [] (.empty config) := .start
  obtain ⟨⟨history, hstations⟩, hblank, hfound⟩ :=
    hstart.addStations Network.carRanges (Network.ledger_empty config)
  have hall : ∀ c ∈ StationCode.all, c ∈ Network.carRanges.map Prod.fst := by decide
  obtain ⟨⟨history, hrun⟩, hmakers⟩ := hstations.addProcessors
    (fun c => hfound c (.inr (hall c c.mem_all))) hn
  have hunaided : Unaided n .revalidate := rfl
  refine ⟨_, hrun.step hunaided rfl, fun c x => ?_⟩
  rw [n.revalidate_later.alike.ledger_eq, hmakers, hblank]
  rfl

/-- What the standard network makes from nothing has one maker where it is made. -/
theorem makersAmong_of_mem_sources : ∀ source ∈ Network.sources,
    makersAmong Network.standardProcessors source.1 source.2.1 = [true] := by
  decide +kernel

end Runs

/-! ## The number of loads -/

/-- In every state of a run without created jobs: where a generative processor is the only one that
    makes a cargo, there is exactly one load of the cargo, claimed or not, and nothing waits for
    room on it; and where no processor that makes a cargo is generative, there is at most one load
    of it that nobody has claimed. So every cargo that the standard network makes from nothing has
    exactly one load where it is made, until its station is replaced or gets another processor for
    it. -/
theorem load_population (config : Config) :
    (∀ history net, Run Unaided config history net → ∀ code s cargo, net.station? code = some s →
      (∀ p, s.processors.filter (·.output = cargo) = [p] → p.isGenerative →
        s.queue.countP (·.isLoadOf cargo) = 1 ∧ s.overflowOf cargo = 0) ∧
      ((∃ p ∈ s.processors, p.output = cargo) →
        (∀ p ∈ s.processors, p.output = cargo → ¬ p.isGenerative) →
        s.queue.countP (·.isMergeableLoad cargo) ≤ 1)) ∧
    ∀ net ops net', Network.standard config = .ok net → net.performAll ops = .ok net' →
      ∀ source ∈ Network.sources, (∀ op ∈ ops, op.Spares source.1 source.2.1) →
        ∃ s, net'.station? source.1 = some s ∧ s.queue.countP (·.isLoadOf source.2.1) = 1 ∧
          s.overflowOf source.2.1 = 0 := by
  constructor
  · intro history net hrun code s cargo hs
    obtain ⟨-, hbalanced⟩ := hrun.balanced code cargo
    rw [Network.ledger_of_station? hs] at hbalanced
    refine ⟨fun p hp hg => hbalanced.single ?_, fun _ hnone => hbalanced.shared ?_⟩
    · rw [Station.ledger, hp, List.map_singleton, hg]
    · intro hmem
      obtain ⟨p, hp, hg⟩ := List.mem_map.1 hmem
      obtain ⟨hp, houtput⟩ := List.mem_filter.1 hp
      exact hnone p hp (of_decide_eq_true houtput) hg
  · intro net ops net' hnet hops source hsource hspare
    obtain ⟨history, hrun, hmakers⟩ := exists_run_standard hnet
    obtain ⟨later, -, hrun'⟩ :=
      hrun.performAll (fun op hop n => (hspare op hop).unaided n) hops
    refine hrun'.single_load ?_
    rw [hrun.performAll_makers hspare hops, hmakers]
    exact makersAmong_of_mem_sources source hsource

/-- What a user does to take a job through. -/
def Operation.carryOut (id : JobId) : List Operation :=
  [.request .reserve .bob id, .request .take .bob id, .request .finish .bob id]

/-- A mine that sends coal to a mill. -/
def mineBuild (mill : Processor) : List Operation :=
  [.addStation .cm 1 3, .addStation .sm 1 3, .addProcessor .cm (.generative .coal [.sm]),
    .addProcessor .sm mill]

/-- A load of coal is taken through, then the freight it goes on as, and then what is unloaded. -/
def millWork : List Operation :=
  .revalidate ::
    [JobId.of .cm .shuntingLoad 1, .of .cm .freight 2, .of .sm .shuntingUnload 1].flatMap
      Operation.carryOut

/-- A run in which a mill that needs nothing but coal gets it. -/
def millRun : List Operation :=
  mineBuild (.ofBlueprint (Table.empty.insert .coal 1) .steelSlabs []) ++ millWork

/-- The mill makes steel of the coal; the mine has its next load by then. In the standard network a
    load of scrap metal is taken through, and there is another one. -/
theorem millRun_load_population :
    (∃ history net s t, history.map Event.operation = millRun.reverse ∧
      Run Unaided {} history net ∧ net.station? .cm = some s ∧ net.station? .sm = some t ∧
      (s.queue.countP (·.isLoadOf .coal) = 1 ∧ s.overflowOf .coal = 0) ∧
      t.queue.countP (·.isMergeableLoad .steelSlabs) ≤ 1) ∧
    ∃ net net' s, Network.standard {} = .ok net ∧
      net.performAll (Operation.carryOut (.of .csw .shuntingLoad 1)) = .ok net' ∧
      net'.station? .csw = some s ∧ s.queue.countP (·.isLoadOf .scrapMetal) = 1 ∧
      s.overflowOf .scrapMetal = 0 := by
  obtain ⟨hruns, hstandard⟩ := load_population {}
  constructor
  · obtain ⟨net, hnet, -, htest⟩ := exists_reachable {} millRun
      (fun net => ∃ s ∈ net.station? .cm, ∃ t ∈ net.station? .sm,
        s.processors.filter (·.output = .coal) = [.generative .coal [.sm]] ∧
        (∃ p ∈ t.processors, p.output = .steelSlabs) ∧
        ∀ p ∈ t.processors, p.output = .steelSlabs → ¬ p.isGenerative) (by decide +kernel)
    obtain ⟨s, hs, t, ht, hmine, hmill, hdelivered⟩ := of_decide_eq_true htest
    have hunaided : ∀ op ∈ millRun, op.createsJob = false := by decide +kernel
    obtain ⟨history, hoperations, hrun⟩ :=
      Run.start.performAll (fun op hop _ => hunaided op hop) hnet
    rw [List.append_nil] at hrun
    exact ⟨history, net, s, t, hoperations, hrun, hs, ht,
      (hruns history net hrun .cm s .coal hs).1 _ hmine rfl,
      (hruns history net hrun .sm t .steelSlabs ht).2 hmill hdelivered⟩
  · have hworks : (Network.standard {}).toOption.any fun net =>
        (net.performAll (Operation.carryOut (.of .csw .shuntingLoad 1))).toOption.isSome := by
      decide +kernel
    cases hnet : Network.standard {} with
    | error fault => simp [hnet, Except.toOption] at hworks
    | ok net =>
      cases hops : net.performAll (Operation.carryOut (.of .csw .shuntingLoad 1)) with
      | error fault => simp [hnet, hops, Except.toOption] at hworks
      | ok net' =>
        have hspare : ∀ op ∈ Operation.carryOut (.of .csw .shuntingLoad 1),
            op.Spares .csw .scrapMetal := by
          intro op hop
          simp only [Operation.carryOut, List.mem_cons, List.not_mem_nil, or_false] at hop
          rcases hop with rfl | rfl | rfl <;> trivial
        obtain ⟨s, hs, hload⟩ := hstandard net _ net' hnet hops (.csw, .scrapMetal, [.sm])
          (by decide) hspare
        exact ⟨net, net', s, rfl, hops, hs, hload⟩

end RailFreight
