import RailFreight.Proofs.Layout
import RailFreight.Toml.Document
import Mathlib.Algebra.Group.Nat.Defs
import Mathlib.Data.Option.Basic

/-!
# Rows of TOML

A document of numbers, and of tables of numbers behind them, is laid out in *rows*: each holds a
number under its key or the header of a table, and stands on a line of its own. Blanks may stand
between the tokens of a row, and empty lines between rows (`Rows`). Line ends are tokens here, since
a reader must not skip them.

A row is read as one line, whatever stands on the lines around it. Several readers are tried where a
value is expected. What keeps digits from being read as a date is that neither `-` nor `:` comes
behind the first of them (`exactly_of_timeField`); what keeps them from being read as a number of
another base is that no letter does.

The lines then build the document: numbers go to the table that was opened last, which is the last
of its entries (`within_last`), so that nothing that was built before is changed.

* `Rows.lines_run`: the lines of rows are read;
* `build_numbers`, `build_document`: the lines build the document;
* `ofText?_spaced`: a text of rows is read as its document.
-/

namespace RailFreight.Toml

open Text

variable {cs rest : List Char} {follow : List (List Char)} {name : String} {n : Nat}

/-! ## Keys -/

/-- A key that is written plain, without dots. -/
def PlainKey (name : String) : Prop := name.toList ≠ [] ∧ name.toList.all isPlainKey

instance : Decidable (PlainKey name) := inferInstanceAs (Decidable (_ ∧ _))

/-- The blanks within a line. -/
def blanks : List Char := [' ', '\t']

theorem mem_blanks {c : Char} (h : isSpace c) : c ∈ blanks := by
  rw [isSpace, Bool.or_eq_true, decide_eq_true_eq, decide_eq_true_eq] at h
  rcases h with rfl | rfl <;> decide

theorem not_isSpace_of_mem {marks : List Char} (hmarks : marks.any isSpace = false) {c : Char}
    (h : decide (c ∈ marks)) : !isSpace c :=
  Bool.not_eq_true' _ ▸ Bool.eq_false_iff.2 (List.any_eq_false.1 hmarks c (of_decide_eq_true h))

/-- What may come behind a key. -/
def keyMarks : List Char := ['=', ']']

theorem spaces_run (h : Spaced isSpace follow cs) (hopens : Opens (fun c => !isSpace c) follow) :
    ∃ rest, spaces cs = some ((), rest) ∧ Tight isSpace follow rest :=
  ⟨_, rfl, h.tight hopens⟩

theorem PlainKey.isPlainKey_of_mem (h : PlainKey name) : ∀ c ∈ name.toList, isPlainKey c :=
  List.all_eq_true.1 h.2

theorem PlainKey.opens (h : PlainKey name) : Opens isPlainKey (name.toList :: follow) := by
  obtain ⟨c, token, hname⟩ := List.exists_cons_of_ne_nil h.1
  rintro _ ⟨⟩
  rw [hname]
  exact h.isPlainKey_of_mem c (hname ▸ List.mem_cons_self)

theorem not_isSpace_of_isPlainKey {c : Char} (h : isPlainKey c) : !isSpace c := by
  have hblank : blanks.any isPlainKey = false := by decide
  rw [Bool.not_eq_true', Bool.eq_false_iff]
  exact fun hspace => List.any_eq_false.1 hblank c (mem_blanks hspace) h

theorem isPlainKey_of_isDigit {c : Char} (h : c.isDigit) : isPlainKey c := by
  simp [isPlainKey, Char.isAlphanum, h]

theorem keyPart_run (hname : PlainKey name) (hfollow : Opens (· ∈ keyMarks) follow)
    (h : Tight isSpace (name.toList :: follow) cs) :
    ∃ rest, keyPart cs = some (name, rest) ∧ Spaced isSpace follow rest := by
  obtain ⟨rest, rfl, hrest⟩ := h
  refine ⟨rest, ?_, hrest⟩
  have hstop : ∀ c ∈ rest.head?, isPlainKey c = false :=
    (hrest.stops (fun _ => mem_blanks) hfollow).forall_eq_false (by decide)
  obtain ⟨c, token, hcons⟩ := List.exists_cons_of_ne_nil hname.1
  have hc : isPlainKey c := hname.isPlainKey_of_mem c (hcons ▸ List.mem_cons_self)
  rw [keyPart]
  refine Scan.bind_run rfl ?_
  rw [show (name.toList ++ rest).head? = some c by rw [hcons]; rfl]
  generalize hpeek : some c = peeked
  split
  · cases hpeek
    exact absurd hc (by decide)
  · cases hpeek
    exact absurd hc (by decide)
  · refine Scan.bind_run (Scan.many1_append hname.1 hname.isPlainKey_of_mem hstop) ?_
    rw [String.ofList_toList]
    rfl

theorem keyParts_run {fuel : Nat} (h : '.' ∉ cs.head?) : keyParts (fuel + 1) cs = some ([], cs) :=
  Scan.bind_run (Scan.found_of_none (Scan.exactly_eq_none_of_head? "." rfl h)) rfl

/-- A plain key is read with the blanks on both sides. -/
theorem key_run (hname : PlainKey name) (hfollow : Opens (· ∈ keyMarks) follow)
    (h : Spaced isSpace (name.toList :: follow) cs) :
    ∃ rest, key cs = some (([], name), rest) ∧ Tight isSpace follow rest := by
  obtain ⟨text, hspaces, htext⟩ :=
    spaces_run h (hname.opens.imp fun _ => not_isSpace_of_isPlainKey)
  obtain ⟨text', hpart, htext'⟩ := keyPart_run hname hfollow htext
  obtain ⟨rest, hspaces', hrest⟩ := spaces_run htext'
    (hfollow.imp fun _ => not_isSpace_of_mem (by decide))
  have hdot : '.' ∉ rest.head? := fun hc => absurd (hrest.of_mem_head? hfollow hc) (by decide)
  refine ⟨rest, ?_, hrest⟩
  rw [key]
  refine Scan.bind_run hspaces (Scan.bind_run hpart (Scan.bind_run hspaces' ?_))
  refine Scan.bind_run rfl (Scan.bind_run (keyParts_run hdot) ?_)
  exact Scan.bind_run (Scan.guard_run (show 1 < nestingLimit by decide)) rfl

/-! ## Numbers -/

/-- What a line end begins with. -/
def lineMarks : List Char := ['\n', '\r']

theorem wellSpaced_of_digits {digits : List Char} (hne : digits ≠ [])
    (h : ∀ c ∈ digits, c.isDigit) : wellSpaced digits := by
  induction digits with
  | nil => exact absurd rfl hne
  | cons c digits ih =>
    obtain ⟨hc, hdigits⟩ := List.forall_mem_cons.1 h
    -- The equations of `wellSpaced` apply to a digit because it is no mark.
    have hmark := ne_underscore_of_isDigit hc
    cases digits with
    | nil => simp [wellSpaced]
    | cons d digits =>
      have hd := ne_underscore_of_isDigit (hdigits d List.mem_cons_self)
      simp [wellSpaced, hd, ih (List.cons_ne_nil _ _) hdigits]

theorem digits_run (n : Nat) (h : Stops (blanks ++ lineMarks) rest) :
    digits 10 (Nat.toDigits 10 n ++ rest) = some (Nat.toDigits 10 n, rest) := by
  have hdigits := isDigit_of_mem_toDigits n
  have hrun : Scan.many (fun c => isDigitOf 10 c || c = '_') (Nat.toDigits 10 n ++ rest) =
      some (Nat.toDigits 10 n, rest) := by
    refine Scan.many_append (fun c hc => ?_) (h.forall_eq_false (by decide))
    rw [isDigitOf_of_isDigit (hdigits c hc) (Nat.le_refl 10), Bool.true_or]
  refine Scan.bind_run hrun ?_
  refine Scan.bind_run (Scan.guard_run (wellSpaced_of_digits Nat.toDigits_ne_nil hdigits)) ?_
  show some (_, rest) = _
  rw [filter_toDigits]

theorem word64_run {cs : List Char} (hn : n < 2 ^ 63) :
    word64 (n : Int) cs = some (.integer n, cs) := by
  refine Scan.bind_run (Scan.guard_run ?_) rfl
  have hmin : Int64.minValue.toInt = -2 ^ 63 := rfl
  have hmax : Int64.maxValue.toInt = 2 ^ 63 - 1 := rfl
  omega

theorem decimal_run (hn : n < 2 ^ 63) (h : Stops (blanks ++ lineMarks) rest) :
    decimal false (Nat.toDigits 10 n ++ rest) = some (.integer n, rest) := by
  have hfraction : fraction rest = some (none, rest) := by
    have hdot := Scan.exactly_eq_none_of_head? "." rfl (h.notMem (by decide))
    exact Scan.bind_run (Scan.found_of_none hdot) rfl
  have hexponent : exponent rest = some (none, rest) := by
    refine Scan.bind_run (Scan.attempt_of_none ?_) rfl
    exact Scan.one_eq_none (h.forall_eq_false (by decide))
  refine Scan.bind_run (digits_run n h) (Scan.bind_run (Scan.guard_run (head?_toDigits n)) ?_)
  refine Scan.bind_run hfraction (Scan.bind_run hexponent ?_)
  rw [numeral_toDigits]
  exact word64_run hn

theorem number_run (hn : n < 2 ^ 63) (h : Stops (blanks ++ lineMarks) rest) :
    number (Nat.toDigits 10 n ++ rest) = some (.integer n, rest) := by
  have hx := Scan.exactly_toDigits_eq_none' "0x" n rfl rfl (h.notMem (by decide))
  have ho := Scan.exactly_toDigits_eq_none' "0o" n rfl rfl (h.notMem (by decide))
  have hb := Scan.exactly_toDigits_eq_none' "0b" n rfl rfl (h.notMem (by decide))
  have hminus := Scan.exactly_toDigits_eq_none "-" n rest rfl rfl
  have hplus := Scan.exactly_toDigits_eq_none "+" n rest rfl rfl
  have hinf := Scan.exactly_toDigits_eq_none "inf" n rest rfl rfl
  have hnan := Scan.exactly_toDigits_eq_none "nan" n rest rfl rfl
  refine Scan.bind_run (Scan.found_of_none hx) (Scan.bind_run (Scan.found_of_none ho) ?_)
  refine Scan.bind_run (Scan.found_of_none hb) (Scan.bind_run (Scan.found_of_none hminus) ?_)
  refine Scan.bind_run (Scan.discard_run (Scan.found_of_none hplus)) ?_
  exact (Scan.orElse_of_none (Scan.seqRight_eq_none hinf)).trans
    ((Scan.orElse_of_none (Scan.seqRight_eq_none hnan)).trans (decimal_run hn h))

/-- Behind the first digits of a number comes no mark of a date or a time. -/
theorem exactly_of_timeField {count least most m : Nat} {left : List Char} (text : String)
    {c : Char} (htext : text.toList[0]? = some c) (hc : c.isDigit = false)
    (hstops : c ∉ blanks ++ lineMarks) (h : Stops (blanks ++ lineMarks) rest)
    (hfield : timeField count least most (Nat.toDigits 10 n ++ rest) = some (m, left)) :
    Scan.exactly text left = none := by
  obtain ⟨found, left', htimes, hfield⟩ := Scan.exists_of_bind hfield
  obtain ⟨_, left'', hguard, hfield⟩ := Scan.exists_of_bind hfield
  cases hfield
  rw [Scan.eq_of_guard hguard, Scan.times_append (h.forall_eq_false (by decide)) htimes]
  refine Scan.exactly_eq_none_of_head? text htext ?_
  rw [List.head?_append]
  cases hhead : ((Nat.toDigits 10 n).drop count).head? with
  | none => exact h.notMem hstops
  | some d =>
    rintro ⟨⟩
    have hd := isDigit_of_mem_toDigits n c (List.mem_of_mem_drop (List.mem_of_mem_head? hhead))
    exact absurd hd (Bool.eq_false_iff.1 hc)

/-- A number is no date and no time. -/
theorem dateOrTime_eq_none (n : Nat) (h : Stops (blanks ++ lineMarks) rest) :
    dateOrTime (Nat.toDigits 10 n ++ rest) = none := by
  have hdate : date (Nat.toDigits 10 n ++ rest) = none := Scan.bind_eq_none' fun year left hyear =>
    Scan.bind_eq_none (exactly_of_timeField "-" rfl rfl (by decide) h hyear)
  have htime : time (Nat.toDigits 10 n ++ rest) = none := Scan.bind_eq_none' fun _ left hhour => by
    obtain ⟨hour, hhour⟩ := Scan.exists_of_discard hhour
    exact Scan.bind_eq_none (exactly_of_timeField ":" rfl rfl (by decide) h hhour)
  exact Scan.bind_eq_none ((Scan.orElse_of_none (Scan.bind_eq_none hdate)).trans htime)

theorem value_run {fuel depth : Nat} (hn : n < 2 ^ 63) (h : Stops (blanks ++ lineMarks) rest) :
    value (fuel + 1) depth (Nat.toDigits 10 n ++ rest) = some (.integer n, rest) := by
  obtain ⟨c, cs, hcs, hc⟩ := exists_toDigits_eq_cons n
  have hnumber := (Scan.orElse_of_none (dateOrTime_eq_none n h)).trans (number_run hn h)
  rw [value]
  refine Scan.bind_run rfl ?_
  rw [show (Nat.toDigits 10 n ++ rest).head? = some c by rw [hcs]; rfl]
  generalize hpeek : some c = peeked
  split
  case h_9 => exact hnumber
  all_goals
    cases hpeek
    exact absurd hc (by decide)

/-! ## Rows -/

/-- A line with a number under a plain key, or with the plain header of a table. -/
inductive Row
  | number (name : String) (n : Nat)
  | header (name : String)

namespace Row

/-- What is read of a row. -/
def line : Row → Line
  | number name n => .entry [] name (.integer n)
  | header name => .header [] name

/-- The tokens of a row. -/
def tokens : Row → List (List Char)
  | number name n => [name.toList, ['='], Nat.toDigits 10 n]
  | header name => [['['], name.toList, [']']]

/-- The key can be written plain, and the number has room in 64 bits. -/
def Plain : Row → Prop
  | number name n => PlainKey name ∧ n < 2 ^ 63
  | header name => PlainKey name

end Row

/-- The ends of lines. -/
def newlines : List (List Char) := [['\n'], ['\r', '\n']]

/-- Tokens of rows, each on a line of its own, with empty lines between them. The last line need not
    be ended. -/
inductive Rows : List Row → List (List Char) → Prop
  | nil : Rows [] []
  | blank {newline : List Char} {rows : List Row} {tokens : List (List Char)}
    (hnewline : newline ∈ newlines) (h : Rows rows tokens) : Rows rows (newline :: tokens)
  | row (row : Row) {newline : List Char} {rows : List Row} {tokens : List (List Char)}
    (hnewline : newline ∈ newlines) (h : Rows rows tokens) :
    Rows (row :: rows) (row.tokens ++ newline :: tokens)
  | last (row : Row) : Rows [row] row.tokens

/-- All rows can be laid out. -/
theorem exists_rows (rows : List Row) : ∃ tokens, Rows rows tokens := by
  induction rows with
  | nil => exact ⟨[], .nil⟩
  | cons row rows ih =>
    obtain ⟨tokens, htokens⟩ := ih
    exact ⟨_, .row row List.mem_cons_self htokens⟩

variable {row : Row} {rows : List Row} {newline : List Char}

theorem exists_newline_eq_cons (h : newline ∈ newlines) :
    ∃ c token, newline = c :: token ∧ (c = '\n' ∨ c = '\r') := by
  simp only [newlines, List.mem_cons, List.not_mem_nil, or_false] at h
  rcases h with rfl | rfl
  · exact ⟨_, _, rfl, .inl rfl⟩
  · exact ⟨_, _, rfl, .inr rfl⟩

theorem opens_newline (h : newline ∈ newlines) : Opens (· ∈ lineMarks) (newline :: follow) := by
  obtain ⟨c, token, rfl, hc⟩ := exists_newline_eq_cons h
  rintro _ ⟨⟩
  rcases hc with rfl | rfl <;> rfl

theorem newline_run (h : newline ∈ newlines) (rest : List Char) :
    Toml.newline (newline ++ rest) = some ((), rest) := by
  simp only [newlines, List.mem_cons, List.not_mem_nil, or_false] at h
  rcases h with rfl | rfl
  · exact Scan.orElse_of_some (Scan.exactly_append "\n" rest)
  · refine (Scan.orElse_of_none ?_).trans (Scan.exactly_append "\r\n" rest)
    exact Scan.exactly_eq_none "\n" 0 rfl (show some '\r' ≠ some '\n' by decide)

theorem lineEnd_nil (h : Spaced isSpace [] cs) : lineEnd cs = some ((), []) := by
  obtain ⟨rest, hspaces, rfl⟩ := spaces_run h nofun
  exact Scan.bind_run hspaces rfl

theorem lineEnd_run (hnewline : newline ∈ newlines) (h : Spaced isSpace (newline :: follow) cs) :
    ∃ rest, lineEnd cs = some ((), rest) ∧ Spaced isSpace follow rest := by
  obtain ⟨text, hspaces, rest, rfl, hrest⟩ :=
    spaces_run h ((opens_newline hnewline).imp fun _ => not_isSpace_of_mem (by decide))
  refine ⟨rest, ?_, hrest⟩
  have hcomment : (newline ++ rest).head? ≠ some '#' := by
    obtain ⟨c, token, rfl, hc⟩ := exists_newline_eq_cons hnewline
    rcases hc with rfl | rfl <;> exact nofun
  refine Scan.bind_run hspaces (Scan.bind_run rfl ?_)
  rw [if_neg hcomment]
  exact Scan.orElse_of_some (newline_run hnewline rest)

theorem entry_run {name : String} (hname : PlainKey name) (hn : n < 2 ^ 63)
    (hfollow : Opens (· ∈ lineMarks) follow)
    (h : Spaced isSpace (name.toList :: ['='] :: Nat.toDigits 10 n :: follow) cs) :
    ∃ rest, entry cs = some (.entry [] name (.integer n), rest) ∧ Spaced isSpace follow rest := by
  obtain ⟨text, hkey, rest, rfl, hrest⟩ := key_run hname (by rintro _ ⟨⟩; rfl) h
  obtain ⟨text', hspaces, rest', rfl, hrest'⟩ := spaces_run hrest
    ((opens_toDigits n).imp fun _ hc => not_isSpace_of_isPlainKey (isPlainKey_of_isDigit hc))
  refine ⟨rest', ?_, hrest'⟩
  refine Scan.bind_run hkey (Scan.bind_run (Scan.exactly_append "=" rest) ?_)
  refine Scan.bind_run hspaces (Scan.bind_run rfl ?_)
  exact Scan.bind_run (value_run hn (hrest'.stops (fun _ => mem_blanks) hfollow)) rfl

theorem header_run {name : String} (hname : PlainKey name)
    (h : Tight isSpace (['['] :: name.toList :: [']'] :: follow) cs) :
    ∃ rest, header cs = some (.header [] name, rest) ∧ Spaced isSpace follow rest := by
  obtain ⟨text, rfl, htext⟩ := h
  obtain ⟨text', hkey, rest, rfl, hrest⟩ := key_run hname (by rintro _ ⟨⟩; rfl) htext
  refine ⟨rest, ?_, hrest⟩
  have hsingle : Scan.exactly "[[" (['['] ++ text) = none := by
    refine Scan.exactly_eq_none "[[" 1 rfl ?_
    rw [List.singleton_append, List.getElem?_cons_succ, ← List.head?_eq_getElem?]
    intro hhead
    rcases htext.of_mem_head? hname.opens hhead with hspace | hkey <;> contradiction
  refine Scan.bind_run (Scan.found_of_none hsingle) ?_
  refine Scan.bind_run (Scan.exactly_append "[" text) (Scan.bind_run hkey ?_)
  exact Scan.bind_run (Scan.exactly_append "]" rest) rfl

theorem Row.Plain.opens (h : row.Plain) :
    Opens (fun c => isPlainKey c || c = '[') (row.tokens ++ follow) := by
  cases row with
  | number name n => exact h.1.opens.imp fun c hc => by rw [hc, Bool.true_or]
  | header name =>
    rintro _ ⟨⟩
    rfl

theorem lines_nil {fuel : Nat} (h : Spaced isSpace [] cs) :
    lines (fuel + 1) cs = some ([], []) := by
  obtain ⟨rest, hspaces, rfl⟩ := spaces_run h nofun
  exact Scan.bind_run hspaces rfl

theorem lines_blank {fuel : Nat} (hnewline : newline ∈ newlines)
    (h : Spaced isSpace (newline :: follow) cs) :
    ∃ rest, lines (fuel + 1) cs = lines fuel rest ∧ Spaced isSpace follow rest := by
  obtain ⟨text, hspaces, rest, rfl, hrest⟩ :=
    spaces_run h ((opens_newline hnewline).imp fun _ => not_isSpace_of_mem (by decide))
  refine ⟨rest, ?_, hrest⟩
  have hrun := newline_run hnewline rest
  obtain ⟨c, token, rfl, hc⟩ := exists_newline_eq_cons hnewline
  refine Scan.bind_run hspaces (Scan.bind_run rfl ?_)
  rcases hc with rfl | rfl <;> exact Scan.bind_run hrun rfl

/-- A row is read up to what follows it, and the lines behind it come after it. -/
theorem lines_row (fuel : Nat) (hrow : row.Plain) (hfollow : Opens (· ∈ lineMarks) follow)
    (h : Spaced isSpace (row.tokens ++ follow) cs) :
    ∃ rest, Spaced isSpace follow rest ∧ ∀ left found, lineEnd rest = some ((), left) →
      lines fuel left = some (found, []) → lines (fuel + 1) cs = some (row.line :: found, []) := by
  obtain ⟨text, hspaces, htext⟩ := spaces_run h (hrow.opens.imp fun c hc => by
    rw [Bool.or_eq_true, decide_eq_true_eq] at hc
    rcases hc with hc | rfl
    · exact not_isSpace_of_isPlainKey hc
    · rfl)
  cases row with
  | number name n =>
    obtain ⟨rest, hentry, hrest⟩ := entry_run hrow.1 hrow.2 hfollow htext.spaced
    refine ⟨rest, hrest, fun left found hend hlines => ?_⟩
    obtain ⟨c, more, rfl, hc⟩ := htext.exists_cons hrow.1.opens
    refine Scan.bind_run hspaces (Scan.bind_run rfl ?_)
    generalize hpeek : (c :: more).head? = peeked
    split
    case h_6 => exact Scan.bind_run hentry (Scan.bind_run hend (Scan.bind_run hlines rfl))
    all_goals cases hpeek
    all_goals exact absurd hc (by decide)
  | header name =>
    obtain ⟨rest, hheader, hrest⟩ := header_run hrow htext
    refine ⟨rest, hrest, fun left found hend hlines => ?_⟩
    obtain ⟨more, rfl, -⟩ := htext
    refine Scan.bind_run hspaces (Scan.bind_run rfl ?_)
    exact Scan.bind_run hheader (Scan.bind_run hend (Scan.bind_run hlines rfl))

/-- The lines of rows are read, whatever empty lines are between them. -/
theorem Rows.lines_run {tokens : List (List Char)} (hrows : Rows rows tokens)
    (hplain : ∀ row ∈ rows, row.Plain) {fuel : Nat} (hfuel : tokens.length < fuel)
    (h : Spaced isSpace tokens cs) : lines fuel cs = some (rows.map Row.line, []) := by
  induction hrows generalizing cs fuel with
  | nil =>
    obtain ⟨fuel, rfl⟩ := Nat.exists_eq_add_one.2 (Nat.zero_lt_of_lt hfuel)
    exact lines_nil h
  | blank hnewline _ ih =>
    obtain ⟨fuel, rfl⟩ := Nat.exists_eq_add_one.2 (Nat.zero_lt_of_lt hfuel)
    obtain ⟨rest, hlines, hrest⟩ := lines_blank hnewline h
    rw [List.length_cons] at hfuel
    rw [hlines]
    exact ih hplain (by omega) hrest
  | row row hnewline _ ih =>
    -- What follows the row opens with the line end, at which its last token stops.
    obtain ⟨fuel, rfl⟩ := Nat.exists_eq_add_one.2 (Nat.zero_lt_of_lt hfuel)
    obtain ⟨hrow, hrows⟩ := List.forall_mem_cons.1 hplain
    obtain ⟨rest, hrest, hread⟩ := lines_row fuel hrow (opens_newline hnewline) h
    obtain ⟨left, hend, hleft⟩ := lineEnd_run hnewline hrest
    rw [List.length_append, List.length_cons] at hfuel
    exact hread left _ hend (ih hrows (by omega) hleft)
  | last row =>
    -- The reader looks for one more line, so fuel for a single line would not do.
    obtain ⟨fuel, rfl⟩ := Nat.exists_eq_add_one.2 (Nat.zero_lt_of_lt hfuel)
    rw [← List.append_nil row.tokens] at h
    have hopens : Opens (· ∈ lineMarks) [] := nofun
    have hpos : 0 < row.tokens.length := by cases row <;> exact Nat.zero_lt_succ _
    obtain ⟨fuel, rfl⟩ := Nat.exists_eq_add_one.2 (show 0 < fuel by omega)
    obtain ⟨rest, hrest, hread⟩ := lines_row (fuel + 1) (hplain row List.mem_cons_self) hopens h
    have hnone : Spaced isSpace [] [] := List.forall_mem_nil _
    exact hread [] [] (lineEnd_nil hrest) (lines_nil hnone)

theorem Row.Plain.token_ne_nil (h : row.Plain) : ∀ token ∈ row.tokens, token ≠ [] := by
  cases row with
  | number name n =>
    exact List.forall_iff_forall_mem.1 ⟨h.1.1, List.cons_ne_nil _ _, Nat.toDigits_ne_nil⟩
  | header name =>
    exact List.forall_iff_forall_mem.1 ⟨List.cons_ne_nil _ _, h.1, List.cons_ne_nil _ _⟩

theorem newline_ne_nil (h : newline ∈ newlines) : newline ≠ [] := by
  obtain ⟨c, token, rfl, -⟩ := exists_newline_eq_cons h
  exact List.cons_ne_nil c token

theorem Rows.token_ne_nil {tokens : List (List Char)} (hrows : Rows rows tokens)
    (hplain : ∀ row ∈ rows, row.Plain) : ∀ token ∈ tokens, token ≠ [] := by
  induction hrows with
  | nil => exact nofun
  | blank hnewline _ ih => exact List.forall_mem_cons.2 ⟨newline_ne_nil hnewline, ih hplain⟩
  | row row hnewline _ ih =>
    obtain ⟨hrow, hrows⟩ := List.forall_mem_cons.1 hplain
    rw [List.forall_mem_append, List.forall_mem_cons]
    exact ⟨hrow.token_ne_nil, newline_ne_nil hnewline, ih hrows⟩
  | last row => exact (hplain row List.mem_cons_self).token_ne_nil

/-- No line begins with the mark that may stand at the start of a document. -/
theorem Rows.opens {tokens : List (List Char)} (hrows : Rows rows tokens)
    (hplain : ∀ row ∈ rows, row.Plain) : Opens (· ≠ byteOrderMark) tokens := by
  have hrow : ∀ {row : Row} {follow : List (List Char)}, row.Plain →
      Opens (· ≠ byteOrderMark) (row.tokens ++ follow) := by
    intro row follow hrow
    refine hrow.opens.imp fun c hc => decide_eq_true ?_
    rintro rfl
    exact absurd hc (by decide)
  cases hrows with
  | nil => exact nofun
  | blank hnewline _ =>
    refine (opens_newline hnewline).imp fun c hc => decide_eq_true ?_
    rintro rfl
    exact absurd hc (by decide)
  | row row _ _ => exact hrow (hplain row List.mem_cons_self)
  | last row => exact List.append_nil row.tokens ▸ hrow (hplain row List.mem_cons_self)

theorem Rows.linesOf?_spaced {tokens : List (List Char)} (hrows : Rows rows tokens)
    (hplain : ∀ row ∈ rows, row.Plain) {text : String} (h : Spaced isSpace tokens text.toList) :
    linesOf? text = some (rows.map Row.line) := by
  have hlen := h.length_le (hrows.token_ne_nil hplain)
  rw [String.length_toList] at hlen
  have hmark : Scan.one (fun c => c = byteOrderMark) text.toList = none := by
    refine Scan.one_eq_none fun c hc => decide_eq_false ?_
    rintro rfl
    rcases h.of_mem_head? (hrows.opens hplain) hc with hspace | hne
    · exact absurd hspace (by decide)
    · exact of_decide_eq_true hne rfl
  have hfuel : tokens.length < text.length + 2 := by omega
  have hrun := hrows.lines_run hplain hfuel h
  rw [linesOf?, Scan.whole?]
  rw [show StateT.run _ text.toList = _ from
    Scan.bind_run (Scan.discard_run (Scan.attempt_of_none hmark)) hrun]

/-! ## Documents -/

/-- The rows of numbers, and behind them those of tables of numbers. -/
def documentRows (numbers : List (String × Nat)) (groups : List (String × List (String × Nat))) :
    List Row :=
  numbers.map (fun entry => .number entry.1 entry.2) ++ groups.flatMap fun entry =>
    .header entry.1 :: entry.2.map fun entry => .number entry.1 entry.2

/-- The entries of numbers. -/
def integers (numbers : List (String × Nat)) : Entries :=
  numbers.map fun entry => (entry.1, .integer entry.2)

/-- The entry of a table of numbers. -/
def tableEntry (entry : String × List (String × Nat)) : String × Toml :=
  (entry.1, .table .declared (integers entry.2))

section Build

variable {root inner inner' : Entries} {path : List String} {k : String} {v : Toml}
  {f : Entries → Option Entries} {lines : List Line}

theorem lookup_eq_none (h : k ∉ root.map Prod.fst) : root.lookup k = none := by
  refine List.lookup_eq_none_iff.2 fun e he => ?_
  rw [bne_iff_ne]
  rintro rfl
  exact h (List.mem_map_of_mem he)

theorem lookup_last (v : Toml) (h : k ∉ root.map Prod.fst) :
    (root ++ [(k, v)]).lookup k = some v := by
  rw [List.lookup_append, lookup_eq_none h, Option.none_or, List.lookup_cons_self]

theorem replace_last (v w : Toml) (h : k ∉ root.map Prod.fst) :
    replace (root ++ [(k, v)]) k w = root ++ [(k, w)] := by
  have hroot : root.map (fun e => if e.1 = k then (k, w) else e) = root := by
    refine (List.map_congr_left fun e he => if_neg ?_).trans (List.map_id root)
    rintro rfl
    exact h (List.mem_map_of_mem he)
  rw [replace, List.map_append, hroot, List.map_singleton, if_pos rfl]

theorem put_new (v : Toml) (h : k ∉ root.map Prod.fst) :
    put k v [] root = some (root ++ [(k, v)]) := by
  rw [put, if_neg]
  rw [List.any_eq_true]
  rintro ⟨e, he, hk⟩
  exact h (of_decide_eq_true hk ▸ List.mem_map_of_mem he)

/-- Of names without duplicates, the first one that is missing can be added. -/
theorem nodup_add {names : List String} (v : Toml) (h : (root.map Prod.fst ++ k :: names).Nodup) :
    k ∉ root.map Prod.fst ∧ ((root ++ [(k, v)]).map Prod.fst ++ names).Nodup := by
  constructor
  · exact fun hmem => (List.nodup_append.1 h).2.2 k hmem k List.mem_cons_self rfl
  · rwa [List.map_append, List.append_assoc]

theorem declare_new (h : k ∉ root.map Prod.fst) :
    declare k root = some (root ++ [(k, .table .declared [])]) := by
  rw [declare, lookup_eq_none h]

/-- The last table is changed in its place. -/
theorem within_last (h : k ∉ root.map Prod.fst) (hf : f inner = some inner') :
    within f [k] (root ++ [(k, .table .declared inner)]) =
      some (root ++ [(k, .table .declared inner')]) := by
  simp only [within, lookup_last _ h, hf]
  rw [if_neg (by decide)]
  exact congrArg some (replace_last _ _ h)

/-- Numbers are added to the table that is open, whatever stands around it. -/
theorem build_numbers (around : Entries → Entries) (inner : Entries) (numbers : List (String × Nat))
    (haround : ∀ {f inner inner'}, f inner = some inner' →
      within f path (around inner) = some (around inner'))
    (hnew : (inner.map Prod.fst ++ numbers.map Prod.fst).Nodup) :
    build (around inner) path (numbers.map (fun e => Line.entry [] e.1 (.integer e.2)) ++ lines) =
      build (around (inner ++ integers numbers)) path lines := by
  induction numbers generalizing inner with
  | nil => rw [integers, List.map_nil, List.map_nil, List.append_nil, List.nil_append]
  | cons e numbers ih =>
    obtain ⟨hkey, hnext⟩ := nodup_add (.integer e.2) hnew
    rw [List.map_cons, List.cons_append, build, haround (put_new (.integer e.2) hkey)]
    refine (ih _ hnext).trans ?_
    rw [List.append_assoc]
    rfl

/-- Tables of numbers are declared one after the other, whatever table is open before. -/
theorem build_groups (groups : List (String × List (String × Nat)))
    (hnew : (root.map Prod.fst ++ groups.map Prod.fst).Nodup)
    (hinner : ∀ e ∈ groups, (e.2.map Prod.fst).Nodup) :
    build root path ((documentRows [] groups).map Row.line) =
      some (root ++ groups.map tableEntry) := by
  induction groups generalizing root path with
  | nil => rw [List.map_nil, List.append_nil]; rfl
  | cons e groups ih =>
    obtain ⟨he, hgroups⟩ := List.forall_mem_cons.1 hinner
    obtain ⟨hkey, hnext⟩ := nodup_add (.table .declared (integers e.2)) hnew
    have hlines : (documentRows [] (e :: groups)).map Row.line =
        .header [] e.1 :: (e.2.map (fun e => Line.entry [] e.1 (.integer e.2)) ++
          (documentRows [] groups).map Row.line) := by
      simp [documentRows, Row.line, Function.comp_def]
    rw [hlines, build]
    simp only [within, declare_new hkey]
    refine (build_numbers (fun inner => root ++ [(e.1, .table .declared inner)]) [] e.2
      (within_last hkey) he).trans ((ih hnext hgroups).trans ?_)
    rw [List.append_assoc]
    rfl

/-- A document of numbers, and behind them tables of numbers. -/
theorem build_document (numbers : List (String × Nat))
    (groups : List (String × List (String × Nat)))
    (hnames : (numbers.map Prod.fst ++ groups.map Prod.fst).Nodup)
    (hinner : ∀ e ∈ groups, (e.2.map Prod.fst).Nodup) :
    build [] [] ((documentRows numbers groups).map Row.line) =
      some (integers numbers ++ groups.map tableEntry) := by
  have hlines : (documentRows numbers groups).map Row.line =
      numbers.map (fun e => Line.entry [] e.1 (.integer e.2)) ++
        (documentRows [] groups).map Row.line := by
    simp [documentRows, Row.line, Function.comp_def]
  have hintegers : (integers numbers).map Prod.fst = numbers.map Prod.fst := by
    simp [integers, Function.comp_def]
  rw [hlines]
  refine (build_numbers id [] numbers ?_ (List.nodup_append.1 hnames).1).trans ?_
  · exact id
  · exact build_groups groups (by rwa [id, List.nil_append, hintegers]) hinner

end Build

/-- The document of numbers and tables of numbers is read, with any blanks and empty lines. -/
theorem ofText?_spaced {numbers : List (String × Nat)}
    {groups : List (String × List (String × Nat))} {tokens : List (List Char)} {text : String}
    (hrows : Rows (documentRows numbers groups) tokens)
    (hplain : ∀ row ∈ documentRows numbers groups, row.Plain)
    (hnames : (numbers.map Prod.fst ++ groups.map Prod.fst).Nodup)
    (hinner : ∀ e ∈ groups, (e.2.map Prod.fst).Nodup) (h : Spaced isSpace tokens text.toList) :
    ofText? text = some (.table .declared (integers numbers ++ groups.map tableEntry)) := by
  rw [ofText?, hrows.linesOf?_spaced hplain h]
  show (build [] [] _).bind _ = _
  rw [build_document numbers groups hnames hinner]
  rfl

end RailFreight.Toml
