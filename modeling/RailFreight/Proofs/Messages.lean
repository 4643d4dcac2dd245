import RailFreight.Proofs.Documents
import RailFreight.Wire.News
import RailFreight.Wire.Settings
import RailFreight.Wire.Yard
import Mathlib.Data.List.Nodup

/-!
# Values read back from the wire

A value is sent as the text of its document. Writing and reading of a type name the same fields, and
their readers read back what their writers wrote; what is left to see is that a record finds each of
its fields again, that a number is within the range that its reader allows, and that a user name has
no blanks to be trimmed of.

Types of which every value reads back are `Wire.Lawful`. Where a number may be too large for its
reader, the values that read back are those `InRange`.

* `Json.fields?_record`: the fields of a record are found by their names;
* `Wire.Faithful.receive?_send`: documents that read back make texts that do;
* `receive?_send`: values of all types read back from the wire.
-/

namespace RailFreight

open Wire

/-! ## Parts of documents -/

theorem mapM_map_eq_some {α β : Type} {write : α → β} {read : β → Option α} {as : List α}
    (h : ∀ a ∈ as, read (write a) = some a) : (as.map write).mapM read = some as := by
  induction as with
  | nil => rfl
  | cons a as ih =>
    obtain ⟨ha, has⟩ := List.forall_mem_cons.1 h
    rw [List.map_cons, List.mapM_cons, ha, ih has]
    rfl

/-- Members are found by their names, if no name occurs twice. -/
theorem Fields.ofMembers?_of_nodup {ν : Type} {members : List (String × ν)}
    (h : (members.map Prod.fst).Nodup) (names : List String) :
    Fields.ofMembers? names members = some fun name => (members.find? (·.1 = name)).map (·.2) := by
  have honce : names.all fun name => (members.filter (·.1 = name)).length ≤ 1 := by
    refine List.all_eq_true.2 fun name _ => decide_eq_true ?_
    have hcount := List.nodup_iff_count_le_one.1 h name
    rw [List.count, List.countP_map, List.countP_eq_length_filter] at hcount
    exact hcount
  rw [Fields.ofMembers?, if_pos honce]

namespace Json

@[simp] theorem string?_ofString (s : String) : (ofString s).string? = some s := by
  rw [ofString, string?, unescape?_escape, Option.map_some, String.ofList_toList]

@[simp] theorem char?_ofString (c : Char) : (ofString (String.singleton c)).char? = some c := by
  simp [char?]

@[simp] theorem oneOf?_ofString {α : Type} (ofName? : String → Option α) (s : String) :
    oneOf? ofName? (ofString s) = ofName? s := by
  show (ofString s).string?.bind ofName? = _
  rw [string?_ofString, Option.bind_some]

@[simp] theorem natural?_ofNat (n : Nat) : (ofNat n).natural? = some n := by
  rw [ofNat, natural?, if_pos (List.all_eq_true.2 (Text.isDigit_of_mem_toDigits n)),
    Nat.ofDigitChars_ten_toDigits]

theorem below?_ofNat {n limit : Nat} (h : n < limit) : (ofNat n).below? limit = some n := by
  rw [below?, natural?_ofNat, Option.filter_some, if_pos (decide_eq_true h)]

theorem below_dialect {n limit : Nat} (h : n < limit) : dialect.below limit (ofNat n) = some n :=
  below?_ofNat h

@[simp] theorem string_dialect : dialect.string = string? := rfl

@[simp] theorem optionalOf_dialect (s : Option String) :
    dialect.optionalOf string? (optional ofString s) = some s := by
  cases s with
  | none => rfl
  | some s =>
    show ((ofString s).string?).map some = _
    rw [string?_ofString, Option.map_some]

theorem plain_optional (s : Option String) : (optional ofString s).Plain := by
  cases s with
  | none => exact .null
  | some s => exact .ofString s

theorem members?_record (fields : List (String × Json)) :
    (record fields).members? = some fields := by
  rw [record, members?]
  refine mapM_map_eq_some fun f _ => ?_
  simp [unescape?_escape]

/-- The fields of a record are found by their names, if no name occurs twice. -/
theorem fields?_record {fields : List (String × Json)} (h : (fields.map Prod.fst).Nodup)
    (names : List String) : (record fields).fields? names =
      some fun name => (fields.find? (·.1 = name)).map (·.2) := by
  show (record fields).members?.bind (Fields.ofMembers? names) = _
  rw [members?_record, Option.bind_some, Fields.ofMembers?_of_nodup h]

/-- A reader of a record goes on with the fields that were written. -/
theorem bind_fields?_record {α : Type} {fields : List (String × Json)} {names : List String}
    {read : Fields Json → Option α} {a : α} (h : (fields.map Prod.fst).Nodup)
    (hread : read (fun name => (fields.find? (·.1 = name)).map (·.2)) = some a) :
    ((record fields).fields? names).bind read = some a := by
  rw [fields?_record h, Option.bind_some, hread]

theorem bind_fields_dialect {α : Type} {fields : List (String × Json)} {name : String}
    {names : List String} {read : Fields Json → Option α} {a : α}
    (h : (fields.map Prod.fst).Nodup)
    (hread : read (fun name => (fields.find? (·.1 = name)).map (·.2)) = some a) :
    (dialect.fields name names (record fields)).bind read = some a := bind_fields?_record h hread

end Json

/-! ## Values -/

namespace Wire

variable {α : Type} [Wire α]

/-- A value whose document is plain and reads back as the value. -/
structure Faithful (a : α) : Prop where
  plain : (encode a).Plain
  decode?_encode : decode? (encode a) = some a

/-- Types of which all values read back. -/
class Lawful (α : Type) [Wire α] : Prop where
  faithful : ∀ a : α, Faithful a

theorem Faithful.receive?_send {a : α} (h : Faithful a) : receive? (send a) = some a := by
  rw [receive?, send, h.plain.ofText?_compact, Option.bind_some, h.decode?_encode]

variable [Lawful α]

theorem plain_encode (a : α) : (encode a).Plain := (Lawful.faithful a).plain

@[simp] theorem decode?_encode (a : α) : decode? (encode a) = some a :=
  (Lawful.faithful a).decode?_encode

theorem plain_encodeList (as : List α) : (encodeList as).Plain := by
  refine .list fun j hj => ?_
  obtain ⟨a, -, rfl⟩ := List.mem_map.1 hj
  exact plain_encode a

@[simp] theorem decodeList?_encodeList (as : List α) : decodeList? (encodeList as) = some as :=
  mapM_map_eq_some fun a _ => decode?_encode a

end Wire

instance : Lawful StationCode := ⟨fun s =>
  ⟨.ofString s.name, (Json.oneOf?_ofString ..).trans s.ofName?_name⟩⟩

instance : Lawful Cargo := ⟨fun c =>
  ⟨.ofString c.name, (Json.oneOf?_ofString ..).trans c.ofName?_name⟩⟩

instance : Lawful Cargo.Tier := ⟨fun t =>
  ⟨.ofString t.name, (Json.oneOf?_ofString ..).trans t.ofName?_name⟩⟩

instance : Lawful JobKind := ⟨fun k =>
  ⟨.ofString k.name, (Json.oneOf?_ofString ..).trans k.ofName?_name⟩⟩

instance : Lawful TrackRole := ⟨fun r =>
  ⟨.ofString r.name, (Json.oneOf?_ofString ..).trans r.ofName?_name⟩⟩

instance : Lawful JobId := ⟨fun id =>
  ⟨.ofString id.text, congrArg (Option.map JobId.mk) (Json.string?_ofString id.text)⟩⟩

/-- The name of a user is trimmed again when it is read, which changes nothing. -/
instance : Lawful User := ⟨fun u =>
  ⟨.ofString u.name, (congrArg (·.bind User.ofText?) (Json.string?_ofString u.name)).trans
    u.ofText?_name⟩⟩

instance : Lawful Track where
  faithful t := by
    refine ⟨.record (List.forall_iff_forall_mem.1
      ⟨plain_encode _, plain_encode _, .ofString _, .ofNat _⟩), ?_⟩
    refine Json.bind_fields?_record (by simp) ?_
    simp [Fields.required, List.find?, Json.below?_ofNat (show t.number.toNat < limit8 from
      t.number.toNat_lt)]

theorem ScenarioStep.read?_encode (s : ScenarioStep) :
    ScenarioStep.read? Json.dialect (encode s) = some s := by
  rw [ScenarioStep.read?]
  refine Json.bind_fields_dialect (by simp) ?_
  simp [Fields.required, Fields.withDefault, List.find?]

instance : Lawful ScenarioStep := ⟨fun s =>
  ⟨.record (List.forall_iff_forall_mem.1 ⟨.ofString _, Json.plain_optional s.user⟩),
    s.read?_encode⟩⟩

theorem Scenario.read?_encode (s : Scenario) :
    Scenario.read? Json.dialect (encode s) = some s := by
  have hsteps : Json.dialect.listOf (ScenarioStep.read? Json.dialect) (encodeList s.steps) =
      some s.steps := decodeList?_encodeList s.steps
  rw [Scenario.read?]
  refine Json.bind_fields_dialect (by simp) ?_
  simp [Fields.required, Fields.withDefault, List.find?, hsteps]

instance : Lawful Scenario := ⟨fun s =>
  ⟨.record (List.forall_iff_forall_mem.1 ⟨Json.plain_optional s.user, plain_encodeList s.steps⟩),
    s.read?_encode⟩⟩

instance : Lawful StationChanged where
  faithful e := by
    refine ⟨.record (List.forall_iff_forall_mem.1 (plain_encode e.station)), ?_⟩
    refine Json.bind_fields?_record (by simp) ?_
    simp [Fields.required, List.find?]

/-! ### Numbers in range -/

/-- The values whose numbers fit their fields. -/
structure JobView.InRange (v : JobView) : Prop where
  cars : v.cars < limit32
  wage : v.wage < limit32

structure StationSummary.InRange (s : StationSummary) : Prop where
  queued : s.queued < limit64
  spawned : s.spawned < limit64
  active : s.active < limit64
  overflow : ∀ e ∈ s.overflow.entries, e.2 < limit32

def SubscriberInfo.InRange (s : SubscriberInfo) : Prop := s.id < limit64

structure NotifierStats.InRange (s : NotifierStats) : Prop where
  published : s.published < limit64
  delivered : s.delivered < limit64
  droppedFull : s.droppedFull < limit64
  droppedTimeout : s.droppedTimeout < limit64
  prunedSubscribers : s.prunedSubscribers < limit64

structure NotifierConfig.InRange (c : NotifierConfig) : Prop where
  inboxCapacity : c.inboxCapacity < limit64
  outboxCapacity : c.outboxCapacity < limit64
  publishTimeoutMs : c.publishTimeoutMs < limit64

structure Config.InRange (c : Config) : Prop where
  maxCars : c.maxCars < limit32
  notifier : c.notifier.InRange

theorem JobView.InRange.faithful {v : JobView} (h : v.InRange) : Faithful v where
  plain := .record (List.forall_iff_forall_mem.1 ⟨plain_encode _, plain_encode _, .ofString _,
    plain_encode _, .ofString _, .ofNat _, plain_encode _, .ofNat _⟩)
  decode?_encode := by
    refine Json.bind_fields?_record (by simp) ?_
    simp [Fields.required, List.find?, Json.below?_ofNat h.cars, Json.below?_ofNat h.wage]

theorem Stock.decode?_encode {s : Stock} (h : ∀ e ∈ s.entries, e.2 < limit32) :
    Stock.decode? s.encode = some s := by
  have hentries : ∀ e ∈ s.entries, (do
      return (← Cargo.ofName? e.1.name, ← (Json.ofNat e.2).below? limit32)) = some e := by
    intro e he
    simp [Cargo.ofName?_name, Json.below?_ofNat (h e he)]
  rw [decode?, encode, Json.members?_record]
  simp only [Option.bind_eq_bind, Option.bind_some]
  rw [mapM_map_eq_some hentries]
  exact congrArg some s.ofList_entries

theorem Stock.plain_encode (s : Stock) : s.encode.Plain := by
  refine .record fun f hf => ?_
  obtain ⟨e, -, rfl⟩ := List.mem_map.1 hf
  exact .ofNat e.2

theorem StationSummary.InRange.faithful {s : StationSummary} (h : s.InRange) : Faithful s where
  plain := .record (List.forall_iff_forall_mem.1 ⟨plain_encode _, plain_encodeList _,
    plain_encodeList _, .ofNat _, .ofNat _, .ofNat _, s.overflow.plain_encode⟩)
  decode?_encode := by
    refine Json.bind_fields?_record (by simp) ?_
    simp [Fields.required, List.find?, Json.below?_ofNat h.queued, Json.below?_ofNat h.spawned,
      Json.below?_ofNat h.active, Stock.decode?_encode h.overflow]

theorem SubscriberId.decode?_encode {id : SubscriberId} (h : id < limit64) :
    SubscriberId.decode? (SubscriberId.encode id) = some id := Json.below?_ofNat h

theorem SubscriberInfo.InRange.faithful {s : SubscriberInfo} (h : s.InRange) : Faithful s where
  plain := .record (List.forall_iff_forall_mem.1 ⟨.ofNat _, plain_encode _, plain_encodeList _⟩)
  decode?_encode := by
    refine Json.bind_fields?_record (by simp) ?_
    simp [Fields.required, List.find?, SubscriberId.decode?_encode h]

theorem NotifierStats.InRange.faithful {s : NotifierStats} (h : s.InRange) : Faithful s where
  plain := .record (List.forall_iff_forall_mem.1 ⟨.ofNat _, .ofNat _, .ofNat _, .ofNat _, .ofNat _⟩)
  decode?_encode := by
    refine Json.bind_fields?_record (by simp) ?_
    simp [Fields.required, List.find?, Json.below?_ofNat h.published, Json.below?_ofNat h.delivered,
      Json.below?_ofNat h.droppedFull, Json.below?_ofNat h.droppedTimeout,
      Json.below?_ofNat h.prunedSubscribers]

theorem NotifierConfig.InRange.read?_encode {c : NotifierConfig} (h : c.InRange) :
    NotifierConfig.read? Json.dialect (encode c) = some c := by
  rw [NotifierConfig.read?]
  refine Json.bind_fields_dialect (by simp) ?_
  simp [Fields.withDefault, List.find?, Json.below_dialect h.inboxCapacity,
    Json.below_dialect h.outboxCapacity, Json.below_dialect h.publishTimeoutMs]

theorem NotifierConfig.InRange.faithful {c : NotifierConfig} (h : c.InRange) : Faithful c where
  plain := .record (List.forall_iff_forall_mem.1 ⟨.ofNat _, .ofNat _, .ofNat _⟩)
  decode?_encode := h.read?_encode

theorem Config.InRange.read?_encode {c : Config} (h : c.InRange) :
    Config.read? Json.dialect (encode c) = some c := by
  have hseed : c.seed.toNat < limit64 := c.seed.toNat_lt
  rw [Config.read?]
  refine Json.bind_fields_dialect (by simp) ?_
  simp [Fields.withDefault, List.find?, Json.below_dialect hseed, Json.below_dialect h.maxCars,
    h.notifier.read?_encode]

theorem Config.InRange.faithful {c : Config} (h : c.InRange) : Faithful c where
  plain := .record (List.forall_iff_forall_mem.1 ⟨.ofNat _, .ofNat _, h.notifier.faithful.plain⟩)
  decode?_encode := h.read?_encode

/-! ## Messages -/

/-- Every value reads back from the text that it is sent as. That is so of all names, of job ids and
    scenarios with any texts, with or without users, and of tracks with any character as the letter
    of their yard. It is so of views, summaries, listings, counts and configurations whose numbers
    are within the range of their fields. Trimming again changes nothing, so a user name that was
    accepted once is accepted as it is. -/
theorem wire_roundTrip :
    ((∀ s : StationCode, receive? (send s) = some s) ∧
      (∀ c : Cargo, receive? (send c) = some c) ∧
      (∀ t : Cargo.Tier, receive? (send t) = some t) ∧
      (∀ k : JobKind, receive? (send k) = some k) ∧
      (∀ r : TrackRole, receive? (send r) = some r) ∧
      (∀ id : JobId, receive? (send id) = some id) ∧
      (∀ u : User, receive? (send u) = some u) ∧
      (∀ t : Track, receive? (send t) = some t) ∧
      (∀ e : StationChanged, receive? (send e) = some e) ∧
      (∀ s : ScenarioStep, receive? (send s) = some s) ∧
      ∀ s : Scenario, receive? (send s) = some s) ∧
    ((∀ v : JobView, v.InRange → receive? (send v) = some v) ∧
      (∀ s : StationSummary, s.InRange → receive? (send s) = some s) ∧
      (∀ id : SubscriberId, id < limit64 →
        (Json.ofText? (SubscriberId.encode id).compact).bind SubscriberId.decode? = some id) ∧
      (∀ s : SubscriberInfo, s.InRange → receive? (send s) = some s) ∧
      (∀ s : NotifierStats, s.InRange → receive? (send s) = some s) ∧
      (∀ c : NotifierConfig, c.InRange → receive? (send c) = some c) ∧
      ∀ c : Config, c.InRange → receive? (send c) = some c) ∧
    (∀ text, Text.trim (Text.trim text) = Text.trim text) ∧
    ∀ text u, User.ofText? text = some u →
      u.name = Text.trim text ∧ User.ofText? u.name = some u := by
  refine ⟨⟨?_, ?_, ?_, ?_, ?_, ?_, ?_, ?_, ?_, ?_, ?_⟩, ⟨?_, ?_, ?_, ?_, ?_, ?_, ?_⟩, ?_, ?_⟩
  iterate 11 exact fun a => (Lawful.faithful a).receive?_send
  · exact fun v h => h.faithful.receive?_send
  · exact fun s h => h.faithful.receive?_send
  · intro id h
    have hplain : (SubscriberId.encode id).Plain := .ofNat id
    rw [hplain.ofText?_compact]
    exact SubscriberId.decode?_encode h
  · exact fun s h => h.faithful.receive?_send
  · exact fun s h => h.faithful.receive?_send
  · exact fun c h => h.faithful.receive?_send
  · exact fun c h => h.faithful.receive?_send
  · exact Text.trim_trim
  · intro text u h
    refine ⟨?_, u.ofText?_name⟩
    rw [User.ofText?] at h
    split at h
    · cases h
    · cases h
      rfl

/-- The largest numbers, and texts with quotes, backslashes, line ends and control characters. -/
theorem extremes_wire_roundTrip :
    let view : JobView :=
      ⟨⟨"\"\\/\x01"⟩, .freight, "\n\t", .sm, "", limit32 - 1, .coal, limit32 - 1⟩
    let summary : StationSummary :=
      ⟨.cm, [.coal], [.boards, .coal], limit64 - 1, 0, 1, Table.ofList [(.coal, limit32 - 1)]⟩
    let info : SubscriberInfo := ⟨limit64 - 1, ⟨"\x08 é", by decide, by decide⟩, [.sm, .cm]⟩
    let stats : NotifierStats := ⟨limit64 - 1, limit64 - 1, 0, 10, 9⟩
    let config : Config := ⟨.ofNat (limit64 - 1), limit32 - 1, ⟨limit64 - 1, 0, 1⟩⟩
    (view.InRange ∧ receive? (send view) = some view) ∧
      (summary.InRange ∧ receive? (send summary) = some summary) ∧
      (limit64 - 1 < limit64 ∧ (Json.ofText? (SubscriberId.encode (limit64 - 1)).compact).bind
        SubscriberId.decode? = some (limit64 - 1)) ∧
      (info.InRange ∧ receive? (send info) = some info) ∧
      (stats.InRange ∧ receive? (send stats) = some stats) ∧
      (config.notifier.InRange ∧ receive? (send config.notifier) = some config.notifier) ∧
      (config.InRange ∧ receive? (send config) = some config) ∧
      (User.ofText? " \x08 é" = some info.user ∧ User.ofText? info.user.name = some info.user) := by
  intro view summary info stats config
  obtain ⟨-, ⟨hviews, hsummaries, hids, hinfos, hstats, hnotifiers, hconfigs⟩, -, husers⟩ :=
    wire_roundTrip
  have hview : view.InRange := ⟨by decide, by decide⟩
  have hsummary : summary.InRange := ⟨by decide, by decide, by decide, by decide⟩
  have hinfo : info.InRange := show limit64 - 1 < limit64 by decide
  have hstat : stats.InRange := ⟨by decide, by decide, by decide, by decide, by decide⟩
  have hconfig : config.InRange := ⟨by decide, ⟨by decide, by decide, by decide⟩⟩
  have huser : User.ofText? " \x08 é" = some info.user := by decide
  exact ⟨⟨hview, hviews view hview⟩, ⟨hsummary, hsummaries summary hsummary⟩,
    ⟨by decide, hids _ (by decide)⟩, ⟨hinfo, hinfos info hinfo⟩, ⟨hstat, hstats stats hstat⟩,
    ⟨hconfig.notifier, hnotifiers _ hconfig.notifier⟩, ⟨hconfig, hconfigs config hconfig⟩,
    huser, (husers _ _ huser).2⟩

end RailFreight
