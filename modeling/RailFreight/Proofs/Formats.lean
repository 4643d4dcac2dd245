import RailFreight.Loading
import RailFreight.Proofs.Messages
import RailFreight.Proofs.RonLayout
import RailFreight.Proofs.TomlLayout

/-!
# One configuration in three formats

A configuration names what it changes (`Settings`): any of its fields, and any of the fields of the
notifier. It can be written in every format, in many ways: the fields stand in any order, blanks
between any tokens, and RON leaves it open whether records are named and whether a comma comes last
(`Settings.WrittenIn`). The formats have readers of their own, with numbers of different widths and
bounds on how deep values are nested, but one reader of configurations.

So the proof has two halves. What the reader of configurations finds hangs only on which values a
document has under which names (`Settings.HeldBy`), and not on the format. And each reader of a
format finds a document that has the values of the settings under their names, from whichever text.

Below `2 ^ 63` every format reads every number; from there on TOML has no room for it. What still
keeps a text from being read is the number of cars, which has 32 bits: the reader of configurations
refuses it, and so it does in every format.

* `Settings.HeldBy.read?`: the configuration of a document that holds settings;
* `Settings.Lists.heldBy`: a record of what is given holds the settings;
* `Settings.WrittenIn.config?_eq`: what the text of settings is read as;
* `Settings.formats_agree`: the formats agree.
-/

namespace RailFreight

open Text

/-! ## Members by name -/

section Members

variable {α ν : Type} {members members' : List (String × ν)} {choices : List (String × Option ν)}
  {name : String} {v : ν}

/-- The value of the first member with a name. -/
def valueOf (members : List (String × ν)) (name : String) : Option ν :=
  (members.find? (·.1 = name)).map (·.2)

/-- The members that are given, among all that may be. -/
def given (choices : List (String × Option ν)) : List (String × ν) :=
  choices.filterMap fun choice => choice.2.map (choice.1, ·)

theorem valueOf_eq_some_iff (h : (members.map Prod.fst).Nodup) :
    valueOf members name = some v ↔ (name, v) ∈ members := by
  have hname : ∀ {m}, members.find? (·.1 = name) = some m → m.1 = name := fun hfind => by
    simpa using List.find?_some hfind
  constructor
  · intro hv
    obtain ⟨m, hfind, rfl⟩ := Option.map_eq_some_iff.1 hv
    exact hname hfind ▸ List.mem_of_find?_eq_some hfind
  · intro hmem
    obtain ⟨m, hfind⟩ : ∃ m, members.find? (·.1 = name) = some m :=
      Option.isSome_iff_exists.1 (List.find?_isSome.2 ⟨_, hmem, decide_eq_true rfl⟩)
    have heq := List.inj_on_of_nodup_map h (List.mem_of_find?_eq_some hfind) hmem (hname hfind)
    rw [valueOf, hfind, heq, Option.map_some]

theorem valueOf_map (f : α → ν) (members : List (String × α)) :
    valueOf (members.map fun m => (m.1, f m.2)) name = (valueOf members name).map f := by
  rw [valueOf, valueOf, List.find?_map, Option.map_map, Option.map_map]
  rfl

theorem nodup_map (f : α → ν) {members : List (String × α)} (h : (members.map Prod.fst).Nodup) :
    ((members.map fun m => (m.1, f m.2)).map Prod.fst).Nodup := by
  rwa [List.map_map]

theorem given_append (choices choices' : List (String × Option ν)) :
    given (choices ++ choices') = given choices ++ given choices' := List.filterMap_append

theorem given_map (f : α → ν) (choices : List (String × Option α)) :
    given (choices.map fun choice => (choice.1, choice.2.map f)) =
      (given choices).map fun m => (m.1, f m.2) := by
  induction choices with
  | nil => rfl
  | cons choice choices ih =>
    obtain ⟨name, a⟩ := choice
    cases a with
    | none => exact ih
    | some a => exact congrArg ((name, f a) :: ·) ih

theorem mem_given : (name, v) ∈ given choices ↔ (name, some v) ∈ choices := by
  simp only [given, List.mem_filterMap, Option.map_eq_some_iff, Prod.mk.injEq]
  constructor
  · rintro ⟨⟨name', a⟩, hmem, v', rfl, rfl, rfl⟩
    exact hmem
  · exact fun hmem => ⟨_, hmem, v, rfl, rfl, rfl⟩

theorem nodup_given (h : (choices.map Prod.fst).Nodup) : ((given choices).map Prod.fst).Nodup := by
  refine h.sublist ?_
  induction choices with
  | nil => exact List.Sublist.slnil
  | cons choice choices ih =>
    obtain ⟨name, a⟩ := choice
    have hmore := ih (List.nodup_cons.1 h).2
    cases a with
    | none => exact hmore.cons _
    | some v => exact hmore.cons_cons _

/-- What is given is found by its name, in any order. -/
theorem valueOf_eq_of_perm (hperm : members.Perm (given choices)) (h : (choices.map Prod.fst).Nodup)
    {choice : String × Option ν} (hmem : choice ∈ choices) :
    valueOf members choice.1 = choice.2 := by
  ext v
  rw [valueOf_eq_some_iff ((hperm.map _).nodup_iff.2 (nodup_given h)), hperm.mem_iff, mem_given]
  constructor
  · intro hv
    exact congrArg Prod.snd (List.inj_on_of_nodup_map h hmem hv rfl)
  · rintro hv
    exact hv ▸ hmem

end Members

/-! ## Settings -/

/-- What may be set of the notifier. -/
structure NotifierSettings where
  inboxCapacity : Option Nat
  outboxCapacity : Option Nat
  publishTimeoutMs : Option Nat

/-- What may be set of a configuration. -/
structure Settings where
  seed : Option Nat
  maxCars : Option Nat
  notifier : Option NotifierSettings

namespace NotifierSettings

/-- The fields of the notifier with what is given for them. -/
def choices (s : NotifierSettings) : List (String × Option Nat) :=
  [("inbox_capacity", s.inboxCapacity), ("outbox_capacity", s.outboxCapacity),
   ("publish_timeout_ms", s.publishTimeoutMs)]

theorem nodup_choices (s : NotifierSettings) : (s.choices.map Prod.fst).Nodup := by
  simp [choices]

/-- What is given, and the standard elsewhere. -/
def config (s : NotifierSettings) : NotifierConfig :=
  let standard : NotifierConfig := {}
  { inboxCapacity := s.inboxCapacity.getD standard.inboxCapacity
    outboxCapacity := s.outboxCapacity.getD standard.outboxCapacity
    publishTimeoutMs := s.publishTimeoutMs.getD standard.publishTimeoutMs }

end NotifierSettings

namespace Settings

/-- The numbers of a configuration with what is given for them. -/
def choices (s : Settings) : List (String × Option Nat) :=
  [("seed", s.seed), ("max_cars_per_job", s.maxCars)]

/-- What is given, and the standard elsewhere. -/
def config (s : Settings) : Config :=
  let standard : Config := {}
  { seed := (s.seed.map UInt64.ofNat).getD standard.seed
    maxCars := s.maxCars.getD standard.maxCars
    notifier := (s.notifier.map NotifierSettings.config).getD standard.notifier }

/-- All numbers that are given are less than a limit. -/
def Below (limit : Nat) (s : Settings) : Prop :=
  (∀ choice ∈ s.choices, ∀ n ∈ choice.2, n < limit) ∧
    ∀ notifier ∈ s.notifier, ∀ choice ∈ notifier.choices, ∀ n ∈ choice.2, n < limit

theorem Below.mono {limit limit' : Nat} {s : Settings} (h : s.Below limit) (hle : limit ≤ limit') :
    s.Below limit' :=
  ⟨fun choice hmem n hn => Nat.lt_of_lt_of_le (h.1 choice hmem n hn) hle,
    fun t ht choice hmem n hn => Nat.lt_of_lt_of_le (h.2 t ht choice hmem n hn) hle⟩

end Settings

/-! ## Documents that hold settings -/

section Holding

variable {ν : Type} {d : Dialect ν} {v : ν}

/-- A place of a document holds a number if one is given, and is missing otherwise. -/
def HoldsNumber (d : Dialect ν) : Option Nat → Option ν → Prop :=
  Option.Rel fun n w => d.natural w = some n

/-- A document holds what is given of the notifier under the names of its fields. -/
def NotifierSettings.HeldBy (d : Dialect ν) (s : NotifierSettings) (v : ν) : Prop :=
  ∃ f, d.fields "NotifierConfig" (s.choices.map Prod.fst) v = some f ∧
    ∀ choice ∈ s.choices, HoldsNumber d choice.2 (f choice.1)

/-- A document holds what is given of a configuration under the names of its fields. -/
def Settings.HeldBy (d : Dialect ν) (s : Settings) (v : ν) : Prop :=
  ∃ f, d.fields "EngineConfig" (s.choices.map Prod.fst ++ ["notifier"]) v = some f ∧
    (∀ choice ∈ s.choices, HoldsNumber d choice.2 (f choice.1)) ∧
    Option.Rel (NotifierSettings.HeldBy d) s.notifier (f "notifier")

theorem holdsNumber_map {write : Nat → ν} (hwrite : ∀ n, d.natural (write n) = some n)
    (a : Option Nat) : HoldsNumber d a (a.map write) := by
  cases a with
  | none => exact .none
  | some n => exact .some (hwrite n)

theorem HoldsNumber.withDefault_below {f : Fields ν} {name : String} {a : Option Nat}
    (h : HoldsNumber d a (f name)) (limit default : Nat) :
    f.withDefault name default (d.below limit) =
      if a.all (· < limit) then some (a.getD default) else none := by
  rw [Fields.withDefault]
  generalize f name = w at h
  cases h with
  | none => rfl
  | some h => simp [Dialect.below, h, Option.filter]

theorem HoldsNumber.withDefault {f : Fields ν} {name : String} {a : Option Nat}
    (h : HoldsNumber d a (f name)) {limit : Nat} (hbelow : ∀ n ∈ a, n < limit) (default : Nat) :
    f.withDefault name default (d.below limit) = some (a.getD default) := by
  rw [h.withDefault_below, if_pos]
  cases a with
  | none => rfl
  | some n => exact decide_eq_true (hbelow n rfl)

theorem NotifierSettings.HeldBy.read? {s : NotifierSettings} (h : s.HeldBy d v)
    (hbelow : ∀ choice ∈ s.choices, ∀ n ∈ choice.2, n < limit64) :
    NotifierConfig.read? d v = some s.config := by
  obtain ⟨f, hf, hchoices⟩ := h
  simp only [NotifierSettings.choices, List.forall_mem_cons] at hchoices hbelow
  obtain ⟨hinbox, houtbox, htimeout, -⟩ := hchoices
  rw [NotifierConfig.read?]
  show Option.bind (d.fields "NotifierConfig" (s.choices.map Prod.fst) v) _ = _
  rw [hf, Option.bind_some]
  dsimp only
  rw [hinbox.withDefault hbelow.1, houtbox.withDefault hbelow.2.1,
    htimeout.withDefault hbelow.2.2.1]
  rfl

theorem Settings.HeldBy.read? {s : Settings} (h : s.HeldBy d v) (hbelow : s.Below limit64) :
    Config.read? d v = if s.maxCars.all (· < limit32) then some s.config else none := by
  obtain ⟨f, hf, hchoices, hnotifier⟩ := h
  simp only [Settings.choices, List.forall_mem_cons] at hchoices
  obtain ⟨hseed, hcars, -⟩ := hchoices
  have hread : f.withDefault "notifier" (Config.notifier {}) (NotifierConfig.read? d) =
      some s.config.notifier := by
    rw [Fields.withDefault]
    have hinner := hbelow.2
    rw [Settings.config]
    generalize f "notifier" = w at hnotifier
    generalize s.notifier = notifier at hnotifier hinner
    cases hnotifier with
    | none => rfl
    | some h => exact h.read? (hinner _ rfl)
  rw [Config.read?]
  show Option.bind (d.fields "EngineConfig" (s.choices.map Prod.fst ++ ["notifier"]) v) _ = _
  rw [hf, Option.bind_some]
  dsimp only
  rw [hseed.withDefault (hbelow.1 _ List.mem_cons_self), hcars.withDefault_below, hread]
  split
  · have hseed : UInt64.ofNat (s.seed.getD (Config.seed {}).toNat) = s.config.seed := by
      rw [Settings.config]
      cases s.seed <;> rfl
    show some _ = some s.config
    rw [hseed]
    rfl
  · rfl

end Holding

/-! ## Entries -/

/-- What a field of a configuration is written as: a number, or a group of numbers by name. -/
inductive Entry
  | number (n : Nat)
  | group (numbers : List (String × Nat))

namespace Entry

/-- An entry in JSON. -/
def json : Entry → Json
  | number n => .ofNat n
  | group numbers => .record (numbers.map fun m => (m.1, .ofNat m.2))

/-- An entry in TOML. -/
def toml : Entry → Toml
  | number n => .integer n
  | group numbers => .table .declared (Toml.integers numbers)

/-- An entry in RON, where a group may be preceded by its name. -/
def ron (name : Option String) : Entry → Ron
  | number n => .natural n
  | group numbers => Ron.recordOf name (numbers.map fun m => (m.1, .natural m.2))

end Entry

/-- The entries of numbers, and behind them those of groups of numbers. -/
def entriesOf (numbers : List (String × Nat)) (groups : List (String × List (String × Nat))) :
    List (String × Entry) :=
  numbers.map (fun m => (m.1, .number m.2)) ++ groups.map fun m => (m.1, .group m.2)

/-- Numbers that list what is given of the notifier, in any order. -/
def NotifierSettings.Lists (s : NotifierSettings) (numbers : List (String × Nat)) : Prop :=
  numbers.Perm (given s.choices)

namespace Settings

/-- The fields of a configuration with what is given for them, of which the notifier is given as a
    group of numbers. -/
def entryChoices (s : Settings) (notifier : Option (List (String × Nat))) :
    List (String × Option Entry) :=
  s.choices.map (fun choice => (choice.1, choice.2.map .number)) ++
    [("notifier", notifier.map .group)]

theorem nodup_entryChoices (s : Settings) (notifier : Option (List (String × Nat))) :
    ((s.entryChoices notifier).map Prod.fst).Nodup := by
  simp [entryChoices, choices]

/-- Entries that list what is given of a configuration, in any order. -/
def Lists (s : Settings) (entries : List (String × Entry)) : Prop :=
  ∃ notifier, Option.Rel NotifierSettings.Lists s.notifier notifier ∧
    entries.Perm (given (s.entryChoices notifier))

end Settings

section Entries

variable {ν : Type} {d : Dialect ν} {v : ν} {doc : Entry → ν} {s : Settings} {t : NotifierSettings}
  {numbers : List (String × Nat)} {entries : List (String × Entry)}

theorem NotifierSettings.Lists.mem_choices (h : t.Lists numbers) {m : String × Nat}
    (hm : m ∈ numbers) : (m.1, some m.2) ∈ t.choices := mem_given.1 (h.mem_iff.1 hm)

theorem NotifierSettings.Lists.nodup (h : t.Lists numbers) : (numbers.map Prod.fst).Nodup :=
  (h.map _).nodup_iff.2 (nodup_given t.nodup_choices)

/-- An entry is a number of the configuration or the group of the notifier. -/
theorem Settings.Lists.cases_of_mem (h : s.Lists entries) {m : String × Entry} (hm : m ∈ entries) :
    (∃ n, (m.1, some n) ∈ s.choices ∧ m.2 = .number n) ∨
      m.1 = "notifier" ∧ ∃ t ∈ s.notifier, ∃ numbers, t.Lists numbers ∧ m.2 = .group numbers := by
  obtain ⟨notifier, hnotifier, hperm⟩ := h
  have hchoice := mem_given.1 (hperm.mem_iff.1 hm)
  rw [Settings.entryChoices, List.mem_append, List.mem_map, List.mem_singleton] at hchoice
  rcases hchoice with ⟨⟨name, a⟩, hmem, heq⟩ | heq
  · obtain ⟨rfl, ha⟩ := Prod.mk.inj heq
    obtain ⟨n, rfl, hn⟩ := Option.map_eq_some_iff.1 ha
    exact .inl ⟨n, hmem, hn.symm⟩
  · obtain ⟨hname, ha⟩ := Prod.mk.inj heq
    obtain ⟨numbers, rfl, hnumbers⟩ := Option.map_eq_some_iff.1 ha.symm
    refine .inr ⟨hname, ?_⟩
    generalize s.notifier = settings at hnotifier
    cases hnotifier with
    | some ht => exact ⟨_, rfl, numbers, ht, hnumbers.symm⟩

theorem Settings.Lists.nodup (h : s.Lists entries) : (entries.map Prod.fst).Nodup := by
  obtain ⟨notifier, -, hperm⟩ := h
  exact (hperm.map _).nodup_iff.2 (nodup_given (s.nodup_entryChoices notifier))

/-- A record of entries holds the settings that they list, in any dialect that finds numbers and the
    members of records. -/
theorem Settings.Lists.heldBy (doc : Entry → ν) (h : s.Lists entries)
    (hnumber : ∀ n, d.natural (doc (.number n)) = some n)
    (hgroup : ∀ (t : NotifierSettings) (numbers : List (String × Nat)), t.Lists numbers →
      d.fields "NotifierConfig" (t.choices.map Prod.fst) (doc (.group numbers)) =
        some (valueOf (numbers.map fun m => (m.1, doc (.number m.2)))))
    (hfields : d.fields "EngineConfig" (s.choices.map Prod.fst ++ ["notifier"]) v =
      some (valueOf (entries.map fun m => (m.1, doc m.2)))) : s.HeldBy d v := by
  obtain ⟨notifier, hnotifier, hperm⟩ := h
  have hvalue : ∀ {choice}, choice ∈ s.entryChoices notifier →
      valueOf (entries.map fun m => (m.1, doc m.2)) choice.1 = choice.2.map doc := by
    intro choice hmem
    rw [valueOf_map, valueOf_eq_of_perm hperm (s.nodup_entryChoices notifier) hmem]
  refine ⟨_, hfields, fun choice hmem => ?_, ?_⟩
  · rw [hvalue (List.mem_append_left _ (List.mem_map_of_mem hmem)), Option.map_map]
    exact holdsNumber_map hnumber choice.2
  · rw [hvalue (List.mem_append_right _ List.mem_cons_self)]
    generalize s.notifier = settings at hnotifier
    cases hnotifier with
    | none => exact .none
    | @some t numbers ht =>
      refine .some ⟨_, hgroup t numbers ht, fun choice hmem => ?_⟩
      rw [valueOf_map (fun n => doc (.number n)), valueOf_eq_of_perm ht t.nodup_choices hmem]
      exact holdsNumber_map hnumber choice.2

theorem Settings.Lists.heldBy_json (h : s.Lists entries) :
    s.HeldBy Json.dialect (.record (entries.map fun m => (m.1, m.2.json))) :=
  h.heldBy Entry.json Json.natural?_ofNat
    (fun _ _ ht => Json.fields?_record (nodup_map Json.ofNat ht.nodup) _)
    (Json.fields?_record (nodup_map Entry.json h.nodup) _)

theorem Settings.Lists.heldBy_toml (h : s.Lists entries) :
    s.HeldBy Toml.dialect (.table .declared (entries.map fun m => (m.1, m.2.toml))) :=
  h.heldBy Entry.toml (fun _ => rfl)
    (fun _ _ ht =>
      Fields.ofMembers?_of_nodup (nodup_map (fun n : Nat => Toml.integer n) ht.nodup) _)
    (Fields.ofMembers?_of_nodup (nodup_map Entry.toml h.nodup) _)

theorem Settings.Lists.heldBy_ron (h : s.Lists entries) {name inner : Option String}
    (hname : name ∈ [none, some "EngineConfig"]) (hinner : inner ∈ [none, some "NotifierConfig"]) :
    s.HeldBy (Ron.dialect false)
      (Ron.recordOf name (entries.map fun m => (m.1, m.2.ron inner))) := by
  have hfits : ∀ {expected : String} {name : Option String}, name ∈ [none, some expected] →
      Ron.nameFits expected name := by
    intro expected name hname
    simp only [List.mem_cons, List.not_mem_nil, or_false] at hname
    rcases hname with rfl | rfl <;> simp [Ron.nameFits]
  refine h.heldBy (Entry.ron inner) (fun _ => rfl) (fun t numbers ht => ?_) ?_
  · refine (Ron.fields?_recordOf (hfits hinner) fun m hm => ?_).trans
      (Fields.ofMembers?_of_nodup (nodup_map Ron.natural ht.nodup) _)
    obtain ⟨e, he, rfl⟩ := List.mem_map.1 hm
    exact List.mem_map_of_mem (f := Prod.fst) (ht.mem_choices he)
  · refine (Ron.fields?_recordOf (hfits hname) fun m hm => ?_).trans
      (Fields.ofMembers?_of_nodup (nodup_map (Entry.ron inner) h.nodup) _)
    obtain ⟨e, he, rfl⟩ := List.mem_map.1 hm
    rcases h.cases_of_mem he with ⟨n, hmem, -⟩ | ⟨hname, -⟩
    · exact List.mem_append_left _ (List.mem_map_of_mem (f := Prod.fst) hmem)
    · exact List.mem_append_right _ (List.mem_singleton.2 hname)

end Entries

/-! ## Texts -/

/-- A text of a format says what is given, and nothing else: the fields in any order, with any
    blanks between the tokens. In TOML the numbers come first, and the notifier has a table of its
    own behind them; in RON the names of records and the last commas may be there or not. -/
def Settings.WrittenIn (s : Settings) (text : String) : DocumentFormat → Prop
  | .json => ∃ entries, s.Lists entries ∧
    Spaced Json.isSpace (Json.record (entries.map fun m => (m.1, m.2.json))).tokens text.toList
  | .toml => ∃ numbers groups tokens,
    s.Lists (entriesOf numbers groups) ∧ Toml.Rows (Toml.documentRows numbers groups) tokens ∧
      Spaced Toml.isSpace tokens text.toList
  | .ron => ∃ entries name inner tokens, s.Lists entries ∧
    name ∈ [none, some "EngineConfig"] ∧ inner ∈ [none, some "NotifierConfig"] ∧
      Ron.Spelled 2 (Ron.recordOf name (entries.map fun m => (m.1, m.2.ron inner))) tokens ∧
      Spaced Ron.isSpace tokens text.toList

section Texts

variable {s : Settings} {t : NotifierSettings} {text : String} {numbers : List (String × Nat)}
  {groups : List (String × List (String × Nat))} {entries : List (String × Entry)}

/-! ### Texts are read -/

theorem plain_record (entries : List (String × Entry)) :
    (Json.record (entries.map fun m => (m.1, m.2.json))).Plain := by
  refine .record fun f hf => ?_
  obtain ⟨⟨name, e⟩, -, rfl⟩ := List.mem_map.1 hf
  cases e with
  | number n => exact .ofNat n
  | group numbers =>
    refine .record fun f hf => ?_
    obtain ⟨m, -, rfl⟩ := List.mem_map.1 hf
    exact .ofNat m.2

/-- The names of all fields. -/
def fieldNames : List String :=
  ["seed", "max_cars_per_job", "notifier", "inbox_capacity", "outbox_capacity",
   "publish_timeout_ms"]

theorem Settings.mem_fieldNames {choice : String × Option Nat} (h : choice ∈ s.choices) :
    choice.1 ∈ fieldNames := by
  have hsub : s.choices.map Prod.fst ⊆ fieldNames := by
    simp [Settings.choices, fieldNames]
  exact hsub (List.mem_map_of_mem h)

theorem NotifierSettings.mem_fieldNames {choice : String × Option Nat} (h : choice ∈ t.choices) :
    choice.1 ∈ fieldNames := by
  have hsub : t.choices.map Prod.fst ⊆ fieldNames := by
    simp [NotifierSettings.choices, fieldNames]
  exact hsub (List.mem_map_of_mem h)

theorem notifier_mem_fieldNames : "notifier" ∈ fieldNames := by decide

theorem plainKey_of_mem : ∀ name ∈ fieldNames, Toml.PlainKey name := by decide

theorem plainName_of_mem : ∀ name ∈ fieldNames, Ron.PlainName name := by decide

theorem Settings.Lists.plain_rows (h : s.Lists (entriesOf numbers groups))
    (hbelow : s.Below (2 ^ 63)) : ∀ row ∈ Toml.documentRows numbers groups, row.Plain := by
  intro row hrow
  rw [Toml.documentRows, List.mem_append, List.mem_map, List.mem_flatMap] at hrow
  rcases hrow with ⟨m, hm, rfl⟩ | ⟨g, hg, hrow⟩
  · rcases h.cases_of_mem (List.mem_append_left _ (List.mem_map_of_mem hm)) with
      ⟨n, hmem, heq⟩ | ⟨-, t, -, numbers, -, heq⟩
    · cases heq
      exact ⟨plainKey_of_mem _ (s.mem_fieldNames hmem), hbelow.1 _ hmem _ rfl⟩
    · cases heq
  · rcases h.cases_of_mem (List.mem_append_right _ (List.mem_map_of_mem hg)) with
      ⟨n, -, heq⟩ | ⟨hname, t, ht, numbers, hlists, heq⟩
    · cases heq
    · cases heq
      rcases List.mem_cons.1 hrow with rfl | hrow
      · exact plainKey_of_mem _ (hname ▸ notifier_mem_fieldNames)
      · obtain ⟨m, hm, rfl⟩ := List.mem_map.1 hrow
        have hmem := hlists.mem_choices hm
        exact ⟨plainKey_of_mem _ (t.mem_fieldNames hmem), hbelow.2 t ht _ hmem _ rfl⟩

theorem Settings.Lists.nodup_group (h : s.Lists (entriesOf numbers groups)) :
    ∀ g ∈ groups, (g.2.map Prod.fst).Nodup := by
  intro g hg
  rcases h.cases_of_mem (List.mem_append_right _ (List.mem_map_of_mem hg)) with
    ⟨n, -, heq⟩ | ⟨-, t, -, numbers, hlists, heq⟩
  · cases heq
  · cases heq
    exact hlists.nodup

/-- A text is read as the configuration of its settings, unless a job could have too many cars. -/
theorem Settings.WrittenIn.config?_eq {f : DocumentFormat} (h : s.WrittenIn text f)
    (hbelow : s.Below (2 ^ 63)) :
    f.config? text = if s.maxCars.all (· < limit32) then some s.config else none := by
  have hlimit : s.Below limit64 := hbelow.mono (by decide)
  cases f with
  | json =>
    obtain ⟨entries, hlists, htext⟩ := h
    show (Json.ofText? text).bind _ = _
    rw [(plain_record entries).ofText?_spaced htext]
    exact hlists.heldBy_json.read? hlimit
  | toml =>
    obtain ⟨numbers, groups, tokens, hlists, hrows, htext⟩ := h
    have hnames : (numbers.map Prod.fst ++ groups.map Prod.fst).Nodup := by
      have hnodup := hlists.nodup
      rwa [entriesOf, List.map_append, List.map_map, List.map_map] at hnodup
    have hentries : (entriesOf numbers groups).map (fun m => (m.1, m.2.toml)) =
        Toml.integers numbers ++ groups.map Toml.tableEntry := by
      rw [entriesOf, List.map_append, List.map_map, List.map_map]
      rfl
    show (Toml.ofText? text).bind _ = _
    rw [Toml.ofText?_spaced hrows (hlists.plain_rows hbelow) hnames hlists.nodup_group htext,
      ← hentries]
    exact hlists.heldBy_toml.read? hlimit
  | ron =>
    obtain ⟨entries, name, inner, tokens, hlists, hname, hinner, hspelled, htext⟩ := h
    show (Ron.ofText? text).bind _ = _
    rw [(hspelled.readable (by decide)).ofText?_spaced htext]
    exact (hlists.heldBy_ron hname hinner).read? hlimit

/-! ### Texts are there -/

theorem exists_writtenIn_json (h : s.Lists entries) : ∃ text, s.WrittenIn text .json :=
  ⟨String.ofList (Json.record (entries.map fun m => (m.1, m.2.json))).tokens.flatten, entries, h,
    spaced_of_eq_flatten String.toList_ofList⟩

theorem exists_writtenIn_toml (h : s.Lists (entriesOf numbers groups)) :
    ∃ text, s.WrittenIn text .toml := by
  obtain ⟨tokens, hrows⟩ := Toml.exists_rows (Toml.documentRows numbers groups)
  exact ⟨String.ofList tokens.flatten, numbers, groups, tokens, h, hrows,
    spaced_of_eq_flatten String.toList_ofList⟩

theorem exists_writtenIn_ron (h : s.Lists entries) (hbelow : s.Below (2 ^ 64)) :
    ∃ text, s.WrittenIn text .ron := by
  obtain ⟨tokens, hspelled⟩ : ∃ tokens,
      Ron.Spelled 2 (Ron.recordOf none (entries.map fun m => (m.1, m.2.ron none))) tokens := by
    refine Ron.exists_spelled_recordOf nofun fun m hm => ?_
    obtain ⟨⟨name, e⟩, he, rfl⟩ := List.mem_map.1 hm
    rcases h.cases_of_mem he with ⟨n, hmem, rfl⟩ | ⟨rfl, t, ht, numbers, hlists, rfl⟩
    · exact ⟨plainName_of_mem _ (s.mem_fieldNames hmem), _,
        .inl ⟨n, hbelow.1 _ hmem n rfl, rfl, rfl⟩⟩
    · refine ⟨plainName_of_mem _ notifier_mem_fieldNames, ?_⟩
      refine Ron.exists_spelled_recordOf nofun fun m hm => ?_
      obtain ⟨⟨name, n⟩, hn, rfl⟩ := List.mem_map.1 hm
      have hmem := hlists.mem_choices hn
      exact ⟨plainName_of_mem _ (t.mem_fieldNames hmem), _, n, hbelow.2 t ht _ hmem n rfl, rfl, rfl⟩
  exact ⟨String.ofList tokens.flatten, entries, none, none, tokens, h, List.mem_cons_self,
    List.mem_cons_self, hspelled, spaced_of_eq_flatten String.toList_ofList⟩

theorem Settings.exists_writtenIn (hbelow : s.Below (2 ^ 63)) (f : DocumentFormat) :
    ∃ text, s.WrittenIn text f := by
  obtain ⟨notifier, hnotifier⟩ :
      ∃ notifier, Option.Rel NotifierSettings.Lists s.notifier notifier := by
    cases s.notifier with
    | none => exact ⟨none, .none⟩
    | some t => exact ⟨some (given t.choices), .some (List.Perm.refl _)⟩
  have hlists : s.Lists (given (s.entryChoices notifier)) := ⟨notifier, hnotifier, List.Perm.refl _⟩
  cases f with
  | json => exact exists_writtenIn_json hlists
  | toml =>
    rw [Settings.entryChoices, given_append, given_map] at hlists
    have hgroups : given [("notifier", notifier.map Entry.group)] =
        (given [("notifier", notifier)]).map fun m => (m.1, .group m.2) :=
      given_map Entry.group [("notifier", notifier)]
    rw [hgroups] at hlists
    exact exists_writtenIn_toml hlists
  | ron => exact exists_writtenIn_ron hlists (hbelow.mono (by decide))

end Texts

/-! ## The formats agree -/

theorem Config.load_eq {f : DocumentFormat} {files : Files} {path text : String} {c : Config}
    (hpath : DocumentFormat.ofPath path = .ok f) (hfile : files path = some (.text text))
    (hread : f.config? text = some c) : Config.load files path = Config.ensureUsable path c := by
  have hcontent : files.content path = .ok text := by rw [Files.content, hfile]
  have hload : files.load DocumentFormat.config? path = .ok c := by
    rw [Files.load, hpath, hcontent]
    simp only [bind, Except.bind, hread]
    rfl
  rw [Config.load, hload]
  rfl

/-- What is given of a configuration can be written in every format, and is read as the same
    configuration from all texts, or from none: the number of cars must have room in 32 bits. Such a
    configuration is loaded if every size is positive, and refused otherwise. -/
theorem Settings.formats_agree (s : Settings) (hbelow : s.Below (2 ^ 63)) :
    (∀ f, ∃ text, s.WrittenIn text f) ∧
    ∀ texts : DocumentFormat → String, (∀ f, s.WrittenIn (texts f) f) →
      ((∀ f : DocumentFormat, f.config? (texts f) = some s.config) ∨
        ∀ f : DocumentFormat, f.config? (texts f) = none) ∧
      ((∀ f : DocumentFormat, f.config? (texts f) = none) ↔ ∃ n ∈ s.maxCars, 2 ^ 32 ≤ n) ∧
      ∀ (f : DocumentFormat) (files : Files) (path : String), DocumentFormat.ofPath path = .ok f →
        files path = some (.text (texts f)) → f.config? (texts f) = some s.config →
          (Config.load files path = .ok s.config ↔
            1 ≤ s.config.maxCars ∧ 1 ≤ s.config.notifier.inboxCapacity ∧
              1 ≤ s.config.notifier.outboxCapacity) ∧
          (Config.load files path = .ok s.config ∨
            ∃ reason ∈ s.config.unusable?,
              Config.load files path = .error (.unusable path reason.message)) := by
  refine ⟨s.exists_writtenIn hbelow, fun texts htexts => ?_⟩
  have hread := fun f => (htexts f).config?_eq hbelow
  refine ⟨?_, ?_, fun f files path hpath hfile hconfig => ?_⟩
  · by_cases hcars : s.maxCars.all (· < limit32)
    · exact .inl fun f => (hread f).trans (if_pos hcars)
    · exact .inr fun f => (hread f).trans (if_neg hcars)
  · constructor
    · intro hnone
      by_contra hcars
      push Not at hcars
      have hall : s.maxCars.all (· < limit32) := by
        cases hmax : s.maxCars with
        | none => rfl
        | some n => exact decide_eq_true (hcars n hmax)
      exact absurd ((hread .json).trans (if_pos hall)) (by rw [hnone]; exact nofun)
    · rintro ⟨n, hmax, hn⟩ f
      have hall : ¬ s.maxCars.all (· < limit32) := by
        rw [hmax, Option.all_some, decide_eq_true_eq, Nat.not_lt]
        exact hn
      exact (hread f).trans (if_neg hall)
  · rw [Config.load_eq hpath hfile hconfig]
    refine ⟨?_, ?_⟩
    · rw [Config.ensureUsable_eq_ok_iff]
      exact and_iff_right rfl
    · rw [Config.ensureUsable]
      cases s.config.unusable? with
      | none => exact .inl rfl
      | some reason => exact .inr ⟨reason, rfl, rfl⟩

/-- Settings that leave no room in the inbox. -/
def closedInbox : Settings where
  seed := some (2 ^ 63 - 1)
  maxCars := none
  notifier := some ⟨some 0, none, some 75⟩

/-- The settings that leave no room in the inbox, in each format. -/
def closedInboxText : DocumentFormat → String
  | .json => "\x7b\"seed\":9223372036854775807,\"notifier\":" ++
    "\x7b\"inbox_capacity\":0,\"publish_timeout_ms\":75\x7d\x7d"
  | .toml => "seed=9223372036854775807\n\n[notifier]\ninbox_capacity=0\npublish_timeout_ms=75"
  | .ron => "EngineConfig(notifier:(inbox_capacity:0,publish_timeout_ms:75,)," ++
    "seed:9223372036854775807)"

theorem closedInbox_writtenIn (f : DocumentFormat) :
    closedInbox.WrittenIn (closedInboxText f) f := by
  have hnotifier : Option.Rel NotifierSettings.Lists closedInbox.notifier
      (some [("inbox_capacity", 0), ("publish_timeout_ms", 75)]) := .some (List.Perm.refl _)
  cases f with
  | json => exact ⟨_, ⟨_, hnotifier, List.Perm.refl _⟩, spaced_of_eq_flatten (by decide)⟩
  | toml =>
    have hnewline : ['\n'] ∈ Toml.newlines := List.mem_cons_self
    have hrows : Toml.Rows (Toml.documentRows [("seed", 2 ^ 63 - 1)]
        [("notifier", [("inbox_capacity", 0), ("publish_timeout_ms", 75)])]) _ :=
      .row _ hnewline (.blank hnewline (.row _ hnewline (.row _ hnewline (.last _))))
    exact ⟨_, _, _, ⟨_, hnotifier, List.Perm.refl _⟩, hrows, spaced_of_eq_flatten (by decide)⟩
  | ron =>
    have hnumber : ∀ n < 2 ^ 64, Ron.Spelled 0 (.natural n) [Nat.toDigits 10 n] :=
      fun n hn => ⟨n, hn, rfl, rfl⟩
    have hinner : Ron.MemberTokens (Ron.Spelled 0)
        [("inbox_capacity", .natural 0), ("publish_timeout_ms", .natural 75)] _ :=
      .cons (by decide) (hnumber 0 (by decide)) (.cons (by decide) (hnumber 75 (by decide)) .nil)
    have hmembers : Ron.MemberTokens (Ron.Spelled 1) [("notifier", Ron.recordOf none _),
        ("seed", .natural (2 ^ 63 - 1))] _ :=
      .cons (by decide) (.inr ⟨none, _, _, nofun, hinner, rfl, rfl⟩)
        (.last (by decide) (.inl (hnumber _ (by decide))))
    exact ⟨[_, _], some "EngineConfig", none, _, ⟨_, hnotifier, List.Perm.swap _ _ _⟩, by decide,
      by decide, .inr ⟨_, _, _, by decide, hmembers, rfl, rfl⟩, spaced_of_eq_flatten (by decide)⟩

/-- The settings are read from all formats, and no configuration is loaded from them. -/
theorem formats_agree_closedInbox :
    closedInbox.Below (2 ^ 63) ∧ (∀ f, closedInbox.WrittenIn (closedInboxText f) f) ∧
      (∀ f : DocumentFormat, f.config? (closedInboxText f) = some closedInbox.config) ∧
      Config.load (fun _ => some (.text (closedInboxText .toml))) "freightyard.toml" =
        .error (.unusable "freightyard.toml" "notifier.inbox_capacity must be at least 1") := by
  have hbelow : closedInbox.Below (2 ^ 63) := by
    simp [Settings.Below, closedInbox, Settings.choices, NotifierSettings.choices]
  obtain ⟨hread, hnone, hload⟩ :=
    (closedInbox.formats_agree hbelow).2 closedInboxText closedInbox_writtenIn
  have hconfig := hread.resolve_right fun h => by
    obtain ⟨n, hn, -⟩ := hnone.1 h
    cases hn
  obtain ⟨husable, hrefused⟩ := hload .toml (fun _ => some (.text (closedInboxText .toml)))
    "freightyard.toml" (by decide) rfl (hconfig .toml)
  obtain ⟨reason, ⟨⟩, hrefused⟩ :=
    hrefused.resolve_left fun h => absurd (husable.1 h).2.1 (by decide)
  exact ⟨hbelow, closedInbox_writtenIn, hconfig, hrefused⟩

end RailFreight
