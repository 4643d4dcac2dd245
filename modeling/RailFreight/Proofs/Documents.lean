import RailFreight.Proofs.Layout
import RailFreight.Wire.Basic
import Mathlib.Data.List.Basic

/-!
# Documents read back

Reader and writer of JSON are written apart from each other. The writer escapes a text character by
character, and puts no blanks between the tokens of a document; the reader is led by the next
character that is no blank, and so finds the document also where blanks were put in. A text reads
back since no escape is the start of another one, and none holds a bare quote; a number, since it
begins with a digit and ends where something follows that no number goes on with.

Not every document reads back: the parts of a document are kept as they are written, and need not be
well written. The documents that values are sent as are `Plain`: their numbers and texts come from
natural numbers and strings.

* `Json.unescape?_escape`, `Json.readText_escape`: texts read back;
* `Json.readNumber_toDigits`: natural numbers read back;
* `Json.tokens`, `Json.flatten_tokens`: the tokens of a document are what is written, one by one;
* `Json.Plain.readsBack`: plain documents read back, whatever follows them and whatever blanks stand
  between their tokens;
* `Json.Plain.ofText?_spaced`, `Json.Plain.ofText?_compact`: the text of a plain document is read as
  the document, with blanks and without.
-/

namespace RailFreight.Json

open Text

variable {c : Char} {rest : List Char} {n : Nat} {j : Json}

/-! ## Texts -/

theorem escaped?_escapeLetter {letter : Char} (h : escapeLetter? c = some letter) :
    escaped? letter = some c ∧ letter ≠ 'u' := by
  unfold escapeLetter? at h
  split at h <;> cases h <;> decide

theorem escapeLetter?_eq_none (h : escapeLetter? c = none) : c ≠ '"' ∧ c ≠ '\\' := by
  constructor <;> rintro rfl <;> cases h

/-- A character is written as a letter behind a backslash, by its number, or as it is. -/
theorem escapeChar_cases (c : Char) :
    (∃ letter, escapeChar c = ['\\', letter] ∧ escaped? letter = some c ∧ letter ≠ 'u') ∨
    (escapeChar c = '\\' :: 'u' :: fourDigits c.toNat ∧ c.toNat < 0x20) ∨
    (escapeChar c = [c] ∧ ¬ c.toNat < 0x20 ∧ c ≠ '"' ∧ c ≠ '\\') := by
  rw [escapeChar]
  cases hletter : escapeLetter? c with
  | some letter => exact .inl ⟨letter, rfl, escaped?_escapeLetter hletter⟩
  | none =>
    simp only
    split
    · rename_i hcontrol
      exact .inr (.inl ⟨rfl, hcontrol⟩)
    · rename_i hplain
      exact .inr (.inr ⟨rfl, hplain, escapeLetter?_eq_none hletter⟩)

theorem numeral_fourDigits : ∀ n < 0x20, (fourDigits n).all (Text.isDigitOf 16) ∧
    Text.numeral 16 (fourDigits n) = n := by decide

/-- What a character is written as is one part, which stands for the character. -/
theorem exists_part (c : Char) :
    ∃ u, (∀ rest, parts (escapeChar c ++ rest) = (parts rest).map (u :: ·)) ∧
      ∀ us, pair (u :: us) = (pair us).map (c :: ·) := by
  rcases escapeChar_cases c with ⟨letter, hc, hescaped, hu⟩ | ⟨hc, hcontrol⟩ | ⟨hc, -, -, hslash⟩
  · refine ⟨.char c, fun rest => ?_, fun us => by rw [pair]⟩
    rw [hc, List.cons_append, List.cons_append, List.nil_append, parts, hescaped]
    · rfl
    · exact fun _ _ _ _ _ h => absurd h hu
  · obtain ⟨hdigits, hnumeral⟩ := numeral_fourDigits c.toNat hcontrol
    have hopens : opensPair c.toNat = false := by
      simp only [opensPair, Bool.and_eq_false_iff, decide_eq_false_iff_not]
      omega
    have hcloses : closesPair c.toNat = false := by
      simp only [closesPair, Bool.and_eq_false_iff, decide_eq_false_iff_not]
      omega
    refine ⟨.unit c.toNat, fun rest => ?_, fun us => ?_⟩
    · rw [hc]
      simp only [fourDigits, List.map_cons, List.map_nil] at hdigits hnumeral ⊢
      simp only [List.cons_append, List.nil_append]
      rw [parts, if_pos hdigits, hnumeral]
    · cases us with
      | nil => simp [pair, hopens, hcloses]
      | cons u us => cases u <;> simp [pair, hopens, hcloses]
  · refine ⟨.char c, fun rest => ?_, fun us => by rw [pair]⟩
    rw [hc, List.cons_append, List.nil_append, parts]
    · exact fun _ _ _ _ _ h => absurd h hslash
    · exact fun _ _ h => absurd h hslash

/-- What is written of a string stands for the string. -/
theorem unescape?_escape (cs : List Char) : unescape? (escape cs) = some cs := by
  have hparts : ∃ us, parts (escape cs) = some us ∧ pair us = some cs := by
    induction cs with
    | nil => exact ⟨[], rfl, rfl⟩
    | cons c cs ih =>
      obtain ⟨us, hus, hcs⟩ := ih
      obtain ⟨u, hu, hc⟩ := exists_part c
      refine ⟨u :: us, ?_, ?_⟩
      · rw [escape, List.flatMap_cons, hu]
        exact congrArg _ hus
      · rw [hc, hcs, Option.map_some]
  obtain ⟨us, hus, hcs⟩ := hparts
  rw [unescape?, hus, Option.bind_some, hcs]

theorem readText_escapeChar (c : Char) (rest : List Char) :
    readText (escapeChar c ++ rest) =
      (readText rest).map fun (literal, rest) => (escapeChar c ++ literal, rest) := by
  rcases escapeChar_cases c with ⟨letter, hc, hescaped, hu⟩ | ⟨hc, hcontrol⟩ |
    ⟨hc, hplain, hquote, hslash⟩
  · rw [hc, List.cons_append, List.cons_append, List.nil_append, readText, hescaped,
      Option.isSome_some, if_pos rfl]
    · rfl
    · exact fun _ _ _ _ _ h => absurd h hu
  · obtain ⟨hdigits, -⟩ := numeral_fourDigits c.toNat hcontrol
    rw [hc]
    simp only [fourDigits, List.map_cons, List.map_nil] at hdigits ⊢
    simp only [List.cons_append, List.nil_append]
    rw [readText, if_pos hdigits]
  · rw [hc, List.cons_append, List.nil_append, readText, if_neg hplain]
    · rfl
    · exact hquote
    · exact fun _ _ _ _ _ h => absurd h hslash
    · exact fun _ _ h => absurd h hslash

/-- The reader goes up to the closing quote of a written text. -/
theorem readText_escape (cs rest : List Char) :
    readText (escape cs ++ '"' :: rest) = some (escape cs, rest) := by
  induction cs with
  | nil => rfl
  | cons c cs ih =>
    rw [escape, List.flatMap_cons, List.append_assoc, readText_escapeChar]
    rw [escape] at ih
    rw [ih, Option.map_some]

/-! ## Numbers -/

/-- What follows a number: nothing that a number goes on with. -/
def EndsNumber (rest : List Char) : Prop :=
  ∀ c ∈ rest.head?, c.isDigit = false ∧ c ≠ '.' ∧ c ≠ 'e' ∧ c ≠ 'E'

theorem EndsNumber.readFraction_eq (h : EndsNumber rest) : readFraction rest = some ([], rest) := by
  cases rest with
  | nil => rfl
  | cons c rest =>
    rw [readFraction]
    exact fun _ hdot => (h c rfl).2.1 (List.cons.inj hdot).1

theorem EndsNumber.readExponent_eq (h : EndsNumber rest) : readExponent rest = some ([], rest) := by
  cases rest with
  | nil => rfl
  | cons c rest =>
    obtain ⟨-, -, he, hE⟩ := h c rfl
    rw [readExponent, if_neg (by simp [he, hE])]

theorem readDigits_toDigits (n : Nat) (h : EndsNumber rest) :
    readDigits (Nat.toDigits 10 n ++ rest) = some (Nat.toDigits 10 n, rest) := by
  have hdigits := isDigit_of_mem_toDigits n
  have hstop : rest.takeWhile Char.isDigit = [] ∧ rest.dropWhile Char.isDigit = rest := by
    cases rest with
    | nil => exact ⟨rfl, rfl⟩
    | cons c rest => simp [(h c rfl).1]
  rw [readDigits, List.takeWhile_append_of_pos hdigits, List.dropWhile_append_of_pos hdigits,
    hstop.1, hstop.2, List.append_nil, if_neg]
  rw [List.isEmpty_iff]
  exact Nat.toDigits_ne_nil

theorem readUnsigned_toDigits (n : Nat) (h : EndsNumber rest) :
    readUnsigned (Nat.toDigits 10 n ++ rest) = some (Nat.toDigits 10 n, rest) := by
  refine Option.bind_eq_some_iff.2 ⟨_, readDigits_toDigits n h, ?_⟩
  refine Option.bind_eq_some_iff.2 ⟨(), if_pos (head?_toDigits n), ?_⟩
  refine Option.bind_eq_some_iff.2 ⟨_, h.readFraction_eq, ?_⟩
  refine Option.bind_eq_some_iff.2 ⟨_, h.readExponent_eq, ?_⟩
  show some (Nat.toDigits 10 n ++ [] ++ [], rest) = _
  rw [List.append_nil, List.append_nil]

/-- The reader goes up to the end of a natural number. -/
theorem readNumber_toDigits (n : Nat) (h : EndsNumber rest) :
    readNumber (Nat.toDigits 10 n ++ rest) = some (Nat.toDigits 10 n, rest) := by
  have hread := readUnsigned_toDigits n h
  obtain ⟨c, cs, hc, hdigit⟩ := exists_toDigits_eq_cons n
  rw [hc, List.cons_append] at hread ⊢
  rw [readNumber, hread]
  intro _ h
  obtain ⟨rfl, -⟩ := List.cons.inj h
  exact absurd hdigit (by decide)

theorem readScalar_toDigits (n : Nat) (h : EndsNumber rest) :
    readScalar (Nat.toDigits 10 n ++ rest) = some (ofNat n, rest) := by
  have hread := readNumber_toDigits n h
  obtain ⟨c, cs, hc, hdigit⟩ := exists_toDigits_eq_cons n
  have hword : ∀ w ws, w.isDigit = false →
      List.isPrefixOf? (w :: ws) (Nat.toDigits 10 n ++ rest) = none := by
    intro w ws hw
    have hne : w ≠ c := fun h => Bool.eq_false_iff.1 hw (h ▸ hdigit)
    rw [hc, List.cons_append, List.isPrefixOf?, if_neg]
    rwa [beq_iff_eq]
  have hnull : "null".toList.isPrefixOf? (Nat.toDigits 10 n ++ rest) = none := hword _ _ rfl
  have htrue : "true".toList.isPrefixOf? (Nat.toDigits 10 n ++ rest) = none := hword _ _ rfl
  have hfalse : "false".toList.isPrefixOf? (Nat.toDigits 10 n ++ rest) = none := hword _ _ rfl
  rw [readScalar, hnull, htrue, hfalse, hread]
  rfl

/-! ## Tokens -/

mutual

/-- The tokens of a document. -/
def tokens : Json → List (List Char)
  | .null => ["null".toList]
  | .bool b => [word b]
  | .number literal => [literal]
  | .text literal => [quoted literal]
  | .list items => ['['] :: (itemTokens items ++ [[']']])
  | .object members => ['{'] :: (memberTokens members ++ [['}']])

/-- The tokens of items, with commas between them. -/
def itemTokens : List Json → List (List Char)
  | [] => []
  | [item] => item.tokens
  | item :: items => item.tokens ++ [','] :: itemTokens items

/-- The tokens of members, with commas between them. -/
def memberTokens : List (List Char × Json) → List (List Char)
  | [] => []
  | [(name, value)] => quoted name :: [':'] :: value.tokens
  | (name, value) :: members =>
    quoted name :: [':'] :: (value.tokens ++ [','] :: memberTokens members)

end

section Tokens

variable {item : Json} {items : List Json} {name : List Char} {value : Json}
  {members : List (List Char × Json)}

theorem itemTokens_cons (item : Json) (hne : items ≠ []) :
    itemTokens (item :: items) = item.tokens ++ [','] :: itemTokens items := by
  rw [itemTokens]
  exact hne

theorem memberTokens_cons (name : List Char) (value : Json) (hne : members ≠ []) :
    memberTokens ((name, value) :: members) =
      quoted name :: [':'] :: (value.tokens ++ [','] :: memberTokens members) := by
  rw [memberTokens]
  exact hne

theorem writeItems_cons (item : Json) (hne : items ≠ []) :
    writeItems (item :: items) = item.write ++ ',' :: writeItems items := by
  rw [writeItems]
  exact hne

theorem writeMembers_cons (name : List Char) (value : Json) (hne : members ≠ []) :
    writeMembers ((name, value) :: members) =
      quoted name ++ ':' :: value.write ++ ',' :: writeMembers members := by
  rw [writeMembers]
  exact hne

end Tokens

mutual

/-- A document is written without blanks between its tokens. -/
theorem flatten_tokens : ∀ j : Json, j.tokens.flatten = j.write
  | .null => rfl
  | .bool b => List.append_nil _
  | .number literal => List.append_nil _
  | .text literal => List.append_nil _
  | .list items => by
    rw [tokens, write, List.flatten_cons, List.flatten_append, flatten_itemTokens items]
    rfl
  | .object members => by
    rw [tokens, write, List.flatten_cons, List.flatten_append, flatten_memberTokens members]
    rfl

theorem flatten_itemTokens : ∀ items : List Json, (itemTokens items).flatten = writeItems items
  | [] => rfl
  | [item] => by rw [itemTokens, writeItems, flatten_tokens item]
  | item :: item' :: items => by
    rw [itemTokens_cons _ (List.cons_ne_nil _ _), writeItems_cons _ (List.cons_ne_nil _ _),
      List.flatten_append, List.flatten_cons, flatten_tokens item, flatten_itemTokens (item' :: items)]
    rfl

theorem flatten_memberTokens : ∀ members : List (List Char × Json),
    (memberTokens members).flatten = writeMembers members
  | [] => rfl
  | [(name, value)] => by
    rw [memberTokens, writeMembers, List.flatten_cons, List.flatten_cons, flatten_tokens value]
    rfl
  | (name, value) :: member :: members => by
    rw [memberTokens_cons _ _ (List.cons_ne_nil _ _), writeMembers_cons _ _ (List.cons_ne_nil _ _),
      List.flatten_cons, List.flatten_cons, List.flatten_append, List.flatten_cons,
      flatten_tokens value, flatten_memberTokens (member :: members)]
    simp

end

/-! ## Documents -/

/-- Documents that values are sent as. -/
inductive Plain : Json → Prop
  | null : Plain .null
  | ofNat (n : Nat) : Plain (ofNat n)
  | ofString (s : String) : Plain (ofString s)
  | list {items : List Json} (h : ∀ j ∈ items, Plain j) : Plain (.list items)
  | record {fields : List (String × Json)} (h : ∀ f ∈ fields, Plain f.2) : Plain (record fields)

/-- What begins with a character that may follow a document, within another one or at its end. -/
def closes (c : Char) : Bool := c = ',' || c = ']' || c = '}'

/-- A document is found again where its tokens come next, with fuel for their number; what follows
    them is left. -/
def ReadsBack (j : Json) : Prop :=
  ∀ fuel follow cs, j.tokens.length ≤ fuel → Opens closes follow →
    Spaced isSpace (j.tokens ++ follow) cs →
    ∃ rest, readValue fuel cs = some (j, rest) ∧ Spaced isSpace follow rest

/-- Behind the blanks comes the next token. -/
theorem exists_skip {token : List Char} {follow : List (List Char)} {cs : List Char}
    (hc : isSpace c = false) (h : Spaced isSpace ((c :: token) :: follow) cs) :
    ∃ rest, skip cs = c :: (token ++ rest) ∧ Spaced isSpace follow rest :=
  h.tight (by rintro _ ⟨⟩; simp [hc])

theorem exists_skip_quoted {literal : List Char} {follow : List (List Char)} {cs : List Char}
    (h : Spaced isSpace (quoted literal :: follow) cs) :
    ∃ rest, skip cs = '"' :: (literal ++ '"' :: rest) ∧ Spaced isSpace follow rest := by
  rw [quoted, List.cons_append] at h
  obtain ⟨rest, hskip, hrest⟩ := exists_skip rfl h
  exact ⟨rest, by rw [hskip, List.append_assoc, List.singleton_append], hrest⟩

theorem endsNumber_of_spaced {follow : List (List Char)} (h : Spaced isSpace follow rest)
    (hfollow : Opens closes follow) : EndsNumber rest := by
  intro c hc
  rcases h.of_mem_head? hfollow hc with hspace | hcloses
  · simp only [isSpace, Bool.or_eq_true, decide_eq_true_eq] at hspace
    rcases hspace with ((rfl | rfl) | rfl) | rfl <;> decide
  · simp only [closes, Bool.or_eq_true, decide_eq_true_eq] at hcloses
    rcases hcloses with (rfl | rfl) | rfl <;> decide

theorem not_isSpace_of_isDigit (hc : c.isDigit) : isSpace c = false := by
  rw [Bool.eq_false_iff]
  intro hspace
  simp only [isSpace, Bool.or_eq_true, decide_eq_true_eq] at hspace
  rcases hspace with ((rfl | rfl) | rfl) | rfl <;> exact absurd hc (by decide)

/-- A plain document begins with a character that is no blank and closes no list. -/
theorem Plain.exists_cons (h : j.Plain) :
    ∃ c token more, j.tokens = (c :: token) :: more ∧ isSpace c = false ∧ c ≠ ']' := by
  cases h with
  | null => exact ⟨_, _, _, rfl, rfl, by decide⟩
  | ofNat n =>
    obtain ⟨c, cs, hc, hdigit⟩ := exists_toDigits_eq_cons n
    refine ⟨c, cs, [], congrArg (fun token => [token]) hc, not_isSpace_of_isDigit hdigit, ?_⟩
    rintro rfl
    exact absurd hdigit (by decide)
  | ofString s => exact ⟨_, _, _, rfl, rfl, by decide⟩
  | list _ => exact ⟨_, _, _, by rw [tokens], rfl, by decide⟩
  | record _ => exact ⟨_, _, _, by rw [Json.record, tokens], rfl, by decide⟩

theorem Plain.length_pos (h : j.Plain) : 1 ≤ j.tokens.length := by
  obtain ⟨c, token, more, hc, -⟩ := h.exists_cons
  rw [hc]
  exact Nat.succ_pos _

theorem readsBack_null : null.ReadsBack := by
  intro fuel follow cs hfuel _ h
  obtain ⟨fuel, rfl⟩ := Nat.exists_eq_add_of_le' (Nat.le_trans Plain.null.length_pos hfuel)
  obtain ⟨rest, hskip, hrest⟩ := exists_skip rfl h
  refine ⟨rest, ?_, hrest⟩
  rw [readValue, hskip]
  rfl

theorem readsBack_ofNat (n : Nat) : (ofNat n).ReadsBack := by
  intro fuel follow cs hfuel hfollow h
  obtain ⟨fuel, rfl⟩ := Nat.exists_eq_add_of_le' (Nat.le_trans (Plain.ofNat n).length_pos hfuel)
  obtain ⟨c, token, hc, hdigit⟩ := exists_toDigits_eq_cons n
  rw [ofNat, tokens, hc] at h
  obtain ⟨rest, hskip, hrest⟩ := exists_skip (not_isSpace_of_isDigit hdigit) h
  have hread := readScalar_toDigits n (endsNumber_of_spaced hrest hfollow)
  rw [hc, List.cons_append] at hread
  refine ⟨rest, ?_, hrest⟩
  rw [readValue, hskip]
  -- No digit opens a text, a list or an object.
  split
  · rename_i hquote
    cases hquote
    exact absurd hdigit (by decide)
  · rename_i hbracket
    cases hbracket
    exact absurd hdigit (by decide)
  · rename_i hbrace
    cases hbrace
    exact absurd hdigit (by decide)
  · exact hread

theorem readsBack_ofString (s : String) : (ofString s).ReadsBack := by
  intro fuel follow cs hfuel _ h
  obtain ⟨fuel, rfl⟩ := Nat.exists_eq_add_of_le' (Nat.le_trans (Plain.ofString s).length_pos hfuel)
  obtain ⟨rest, hskip, hrest⟩ := exists_skip_quoted h
  refine ⟨rest, ?_, hrest⟩
  rw [readValue, hskip]
  simp only [readText_escape]
  rfl

/-! ### Lists -/

section Lists

variable {item : Json} {items : List Json} {fuel : Nat} {cs : List Char}
  {follow : List (List Char)}

theorem readItems_of_close (h : readValue fuel cs = some (item, rest)) {rest' : List Char}
    (hskip : skip rest = ']' :: rest') : readItems (fuel + 1) cs = some ([item], rest') := by
  rw [readItems, h]
  simp only [hskip]

theorem readItems_of_comma (h : readValue fuel cs = some (item, rest)) {rest' : List Char}
    (hskip : skip rest = ',' :: rest') :
    readItems (fuel + 1) cs =
      (readItems fuel rest').map fun (items, rest) => (item :: items, rest) := by
  rw [readItems, h]
  simp only [hskip]

/-- Items read back up to the closing bracket. -/
theorem readItems_spaced (hne : items ≠ []) (h : ∀ j ∈ items, j.ReadsBack) (fuel : Nat)
    (hfuel : (itemTokens items).length < fuel)
    (hcs : Spaced isSpace (itemTokens items ++ [']'] :: follow) cs) :
    ∃ rest, readItems fuel cs = some (items, rest) ∧ Spaced isSpace follow rest := by
  induction items generalizing fuel cs with
  | nil => exact absurd rfl hne
  | cons item items ih =>
    obtain ⟨hitem, hitems⟩ := List.forall_mem_cons.1 h
    obtain ⟨fuel, rfl⟩ := Nat.exists_eq_add_of_le' (Nat.zero_lt_of_lt hfuel)
    rcases eq_or_ne items [] with rfl | hmore
    · rw [itemTokens] at hfuel hcs
      obtain ⟨rest, hread, hrest⟩ :=
        hitem _ _ _ (Nat.le_of_lt_succ hfuel) (opens_singleton rfl) hcs
      obtain ⟨rest', hskip, hrest'⟩ := exists_skip rfl hrest
      exact ⟨rest', readItems_of_close hread hskip, hrest'⟩
    · rw [itemTokens_cons item hmore] at hfuel hcs
      rw [List.length_append, List.length_cons] at hfuel
      rw [List.append_assoc, List.cons_append] at hcs
      obtain ⟨rest, hread, hrest⟩ := hitem fuel _ _ (by omega) (opens_singleton rfl) hcs
      obtain ⟨rest', hskip, hrest'⟩ := exists_skip rfl hrest
      obtain ⟨rest'', hreads, hrest''⟩ := ih hmore hitems fuel (by omega) hrest'
      refine ⟨rest'', ?_, hrest''⟩
      rw [readItems_of_comma hread hskip, List.nil_append, hreads, Option.map_some]

/-- The first character of items is no blank, and does not close the list before them. -/
theorem exists_itemTokens_eq_cons (hne : items ≠ []) (h : ∀ j ∈ items, j.Plain) :
    ∃ c token more, itemTokens items = (c :: token) :: more ∧ isSpace c = false ∧ c ≠ ']' := by
  obtain ⟨item, items, rfl⟩ := List.exists_cons_of_ne_nil hne
  obtain ⟨c, token, more, hc, hspace, hclose⟩ := (h item List.mem_cons_self).exists_cons
  rcases eq_or_ne items [] with rfl | hmore
  · exact ⟨c, token, more, hc, hspace, hclose⟩
  · exact ⟨c, token, _, by rw [itemTokens_cons item hmore, hc, List.cons_append], hspace, hclose⟩

theorem readsBack_list (hplain : ∀ j ∈ items, j.Plain) (h : ∀ j ∈ items, j.ReadsBack) :
    (list items).ReadsBack := by
  intro fuel follow cs hfuel _ hcs
  obtain ⟨fuel, rfl⟩ := Nat.exists_eq_add_of_le'
    (Nat.le_trans (Plain.list hplain).length_pos hfuel)
  rw [tokens, List.length_cons, List.length_append, List.length_singleton] at hfuel
  rw [tokens, List.cons_append, List.append_assoc, List.singleton_append] at hcs
  obtain ⟨rest, hskip, hrest⟩ := exists_skip rfl hcs
  rw [List.nil_append] at hskip
  rw [readValue, hskip]
  rcases eq_or_ne items [] with rfl | hne
  · obtain ⟨rest', hskip', hrest'⟩ := exists_skip rfl hrest
    exact ⟨rest', by simp only [hskip', List.nil_append], hrest'⟩
  · obtain ⟨c, token, more, hc, hspace, hclose⟩ := exists_itemTokens_eq_cons hne hplain
    have htight : Tight isSpace (itemTokens items ++ [']'] :: follow) (skip rest) :=
      hrest.tight (by rw [hc]; rintro _ ⟨⟩; simp [hspace])
    obtain ⟨rest', hread, hrest'⟩ :=
      readItems_spaced hne h fuel (by omega) htight.spaced
    refine ⟨rest', ?_, hrest'⟩
    simp only
    split
    · rename_i hempty
      refine absurd ?_ hclose
      rw [hc] at htight
      obtain ⟨_, htight, -⟩ := htight
      exact (List.cons.inj (htight.symm.trans hempty)).1
    · rw [hread, Option.map_some]

end Lists

/-! ### Objects -/

section Objects

variable {name : List Char} {value : Json} {members : List (List Char × Json)} {fuel : Nat}
  {cs : List Char} {follow : List (List Char)}

/-- A name and its value, up to what follows them. -/
theorem exists_member {more : List (List Char)} (hvalue : value.ReadsBack) (fuel : Nat)
    (hfuel : value.tokens.length ≤ fuel) (hmore : Opens closes more)
    (hcs : Spaced isSpace (quoted (escape name) :: [':'] :: (value.tokens ++ more)) cs) :
    ∃ text text' text'' rest, skip cs = '"' :: text ∧ readText text = some (escape name, text') ∧
      skip text' = ':' :: text'' ∧ readValue fuel text'' = some (value, rest) ∧
      Spaced isSpace more rest := by
  obtain ⟨text', hname, htext'⟩ := exists_skip_quoted hcs
  obtain ⟨text'', hcolon, htext''⟩ := exists_skip rfl htext'
  obtain ⟨rest, hread, hrest⟩ := hvalue fuel more text'' hfuel hmore htext''
  exact ⟨_, text', text'', rest, hname, readText_escape _ _, hcolon, hread, hrest⟩

/-- Members read back up to the closing brace, if their names are written as strings are. -/
theorem readMembers_spaced (hne : members ≠ [])
    (h : ∀ m ∈ members, (∃ cs, m.1 = escape cs) ∧ m.2.ReadsBack) (fuel : Nat)
    (hfuel : (memberTokens members).length < fuel)
    (hcs : Spaced isSpace (memberTokens members ++ ['}'] :: follow) cs) :
    ∃ rest, readMembers fuel cs = some (members, rest) ∧ Spaced isSpace follow rest := by
  induction members generalizing fuel cs with
  | nil => exact absurd rfl hne
  | cons m members ih =>
    obtain ⟨name, value⟩ := m
    obtain ⟨⟨⟨name, rfl : _ = escape name⟩, hvalue : value.ReadsBack⟩, hmembers⟩ :=
      List.forall_mem_cons.1 h
    obtain ⟨fuel, rfl⟩ := Nat.exists_eq_add_of_le' (Nat.zero_lt_of_lt hfuel)
    rcases eq_or_ne members [] with rfl | hmore
    · rw [memberTokens] at hfuel hcs
      simp only [List.length_cons] at hfuel
      obtain ⟨text, text', text'', rest, hname, htext, hcolon, hread, hrest⟩ :=
        exists_member hvalue fuel (by omega) (opens_singleton rfl) hcs
      obtain ⟨rest', hclose, hrest'⟩ := exists_skip rfl hrest
      refine ⟨rest', ?_, hrest'⟩
      rw [readMembers, hname]
      simp only [htext, hcolon, hread, hclose, List.nil_append]
    · rw [memberTokens_cons _ _ hmore] at hfuel hcs
      simp only [List.length_cons, List.length_append] at hfuel
      simp only [List.cons_append, List.append_assoc] at hcs
      obtain ⟨text, text', text'', rest, hname, htext, hcolon, hread, hrest⟩ :=
        exists_member hvalue fuel (by omega) (opens_singleton rfl) hcs
      obtain ⟨rest', hcomma, hrest'⟩ := exists_skip rfl hrest
      obtain ⟨rest'', hreads, hrest''⟩ := ih hmore hmembers fuel (by omega) hrest'
      refine ⟨rest'', ?_, hrest''⟩
      rw [readMembers, hname]
      simp only [htext, hcolon, hread, hcomma, List.nil_append, hreads, Option.map_some]

theorem exists_memberTokens_eq_cons (hne : members ≠ []) :
    ∃ token more, memberTokens members = ('"' :: token) :: more := by
  obtain ⟨⟨name, value⟩, members, rfl⟩ := List.exists_cons_of_ne_nil hne
  rcases eq_or_ne members [] with rfl | hmore
  · exact ⟨_, _, by rw [memberTokens, quoted]; rfl⟩
  · exact ⟨_, _, by rw [memberTokens_cons name value hmore, quoted]; rfl⟩

theorem readsBack_object (h : ∀ m ∈ members, (∃ cs, m.1 = escape cs) ∧ m.2.ReadsBack) :
    (object members).ReadsBack := by
  intro fuel follow cs hfuel _ hcs
  rw [tokens, List.length_cons, List.length_append, List.length_singleton] at hfuel
  obtain ⟨fuel, rfl⟩ := Nat.exists_eq_add_of_le' (Nat.le_trans (Nat.le_add_left 1 _) hfuel)
  rw [tokens, List.cons_append, List.append_assoc, List.singleton_append] at hcs
  obtain ⟨rest, hskip, hrest⟩ := exists_skip rfl hcs
  rw [List.nil_append] at hskip
  rw [readValue, hskip]
  rcases eq_or_ne members [] with rfl | hne
  · obtain ⟨rest', hskip', hrest'⟩ := exists_skip rfl hrest
    exact ⟨rest', by simp only [hskip', List.nil_append], hrest'⟩
  · obtain ⟨token, more, hc⟩ := exists_memberTokens_eq_cons hne
    have htight : Tight isSpace (memberTokens members ++ ['}'] :: follow) (skip rest) :=
      hrest.tight (by rw [hc]; rintro _ ⟨⟩; rfl)
    obtain ⟨rest', hread, hrest'⟩ :=
      readMembers_spaced hne h fuel (by omega) htight.spaced
    refine ⟨rest', ?_, hrest'⟩
    simp only
    split
    · rename_i hempty
      rw [hc] at htight
      obtain ⟨_, htight, -⟩ := htight
      exact absurd (List.cons.inj (htight.symm.trans hempty)).1 (by decide)
    · rw [hread, Option.map_some]

end Objects

/-- A plain document reads back, whatever follows it. -/
theorem Plain.readsBack (h : j.Plain) : j.ReadsBack := by
  induction h with
  | null => exact readsBack_null
  | ofNat n => exact readsBack_ofNat n
  | ofString s => exact readsBack_ofString s
  | list hplain ih => exact readsBack_list hplain ih
  | record _ ih =>
    refine readsBack_object fun m hm => ?_
    obtain ⟨f, hf, rfl⟩ := List.mem_map.1 hm
    exact ⟨⟨f.1.toList, rfl⟩, ih f hf⟩

/-! ### Texts of documents -/

theorem mem_itemTokens {items : List Json} {token : List Char} (h : token ∈ itemTokens items) :
    token = [','] ∨ ∃ item ∈ items, token ∈ item.tokens := by
  induction items with
  | nil => exact absurd h List.not_mem_nil
  | cons item items ih =>
    rcases eq_or_ne items [] with rfl | hmore
    · exact .inr ⟨item, List.mem_cons_self, h⟩
    · rw [itemTokens_cons item hmore, List.mem_append, List.mem_cons] at h
      rcases h with h | h | h
      · exact .inr ⟨item, List.mem_cons_self, h⟩
      · exact .inl h
      · exact (ih h).imp_right fun ⟨j, hj, ht⟩ => ⟨j, List.mem_cons_of_mem _ hj, ht⟩

theorem mem_memberTokens {members : List (List Char × Json)} {token : List Char}
    (h : token ∈ memberTokens members) :
    token ∈ [[','], [':']] ∨ ∃ m ∈ members, token = quoted m.1 ∨ token ∈ m.2.tokens := by
  induction members with
  | nil => exact absurd h List.not_mem_nil
  | cons m members ih =>
    obtain ⟨name, value⟩ := m
    rcases eq_or_ne members [] with rfl | hmore
    · rw [memberTokens, List.mem_cons, List.mem_cons] at h
      rcases h with h | h | h
      · exact .inr ⟨_, List.mem_cons_self, .inl h⟩
      · exact .inl (by simp [h])
      · exact .inr ⟨_, List.mem_cons_self, .inr h⟩
    · rw [memberTokens_cons _ _ hmore, List.mem_cons, List.mem_cons, List.mem_append,
        List.mem_cons] at h
      rcases h with h | h | h | h | h
      · exact .inr ⟨_, List.mem_cons_self, .inl h⟩
      · exact .inl (by simp [h])
      · exact .inr ⟨_, List.mem_cons_self, .inr h⟩
      · exact .inl (by simp [h])
      · exact (ih h).imp_right fun ⟨m, hm, ht⟩ => ⟨m, List.mem_cons_of_mem _ hm, ht⟩

theorem Plain.token_ne_nil (h : j.Plain) : ∀ token ∈ j.tokens, token ≠ [] := by
  induction h with
  | null =>
    intro token htoken
    rw [List.mem_singleton.1 htoken]
    decide
  | ofNat n =>
    intro token htoken
    rw [List.mem_singleton.1 htoken]
    exact Nat.toDigits_ne_nil
  | ofString s =>
    intro token htoken
    rw [List.mem_singleton.1 htoken]
    exact List.cons_ne_nil _ _
  | list _ ih =>
    intro token htoken
    rw [tokens, List.mem_cons, List.mem_append, List.mem_singleton] at htoken
    rcases htoken with rfl | htoken | rfl
    · exact List.cons_ne_nil _ _
    · rcases mem_itemTokens htoken with rfl | ⟨item, hitem, htoken⟩
      · exact List.cons_ne_nil _ _
      · exact ih item hitem token htoken
    · exact List.cons_ne_nil _ _
  | record _ ih =>
    intro token htoken
    rw [Json.record, tokens, List.mem_cons, List.mem_append, List.mem_singleton] at htoken
    rcases htoken with rfl | htoken | rfl
    · exact List.cons_ne_nil _ _
    · rcases mem_memberTokens htoken with htoken | ⟨m, hm, htoken⟩
      · rintro rfl
        exact absurd htoken (by decide)
      · obtain ⟨f, hf, rfl⟩ := List.mem_map.1 hm
        rcases htoken with rfl | htoken
        · exact List.cons_ne_nil _ _
        · exact ih f hf token htoken
    · exact List.cons_ne_nil _ _

/-- A text of the tokens of a plain document, with any blanks, is read as the document. -/
theorem Plain.ofText?_spaced (h : j.Plain) {text : String}
    (htext : Spaced isSpace j.tokens text.toList) : ofText? text = some j := by
  have hlen := htext.length_le h.token_ne_nil
  rw [String.length_toList] at hlen
  rw [← List.append_nil j.tokens] at htext
  obtain ⟨rest, hread, hrest⟩ :=
    h.readsBack (2 * text.length + 1) [] _ (by omega) nofun htext
  have hskip : skip rest = [] := List.dropWhile_eq_nil_iff.2 hrest
  rw [ofText?, hread]
  simp only [hskip]
  rfl

/-- The text of a plain document is read as the document. -/
theorem Plain.ofText?_compact (h : j.Plain) : ofText? j.compact = some j := by
  refine h.ofText?_spaced ?_
  rw [compact, String.toList_ofList, ← flatten_tokens]
  exact spaced_flatten _ _

end RailFreight.Json
