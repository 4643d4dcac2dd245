import RailFreight.Proofs.Layout
import RailFreight.Ron.Reader
import Mathlib.Algebra.Group.Nat.Defs
import Mathlib.Data.Option.Basic

/-!
# Records of RON

A record of RON may be written with its name or without, and with a comma behind its last member or
without, so that a value has several texts (`Spelled`). All of them are read as the value, with any
blanks between their tokens.

Names and numbers are read in the same place, and what comes next tells them apart: a member starts
with a name and a colon, a record with a name and a parenthesis, and a value without a name with a
digit or a parenthesis. A number must not look like a floating point number, which is tried first.

The reader bounds how deep values are nested, and spends two levels on every record. Its fuel is
spent on tokens: a value needs more of it than it has tokens.

* `gaps_run`, `comma_run`, `comma_close`: what is read between tokens;
* `name_run`, `number_run`: names and numbers are read;
* `MemberTokens.members_run`: members are read up to the closing parenthesis;
* `Spelled.readable`: what is spelled is read, unless it is nested too deep;
* `Readable.ofText?_spaced`: a text of a value is read as the document of the value.
-/

namespace RailFreight.Ron

open Text

variable {cs rest : List Char} {tokens follow : List (List Char)} {n : Nat}

/-! ## Blanks and commas -/

/-- The blanks between tokens. -/
def blanks : List Char := [' ', '\t', '\n', '\r']

theorem mem_blanks {c : Char} (h : isSpace c) : c ∈ blanks := by
  simp only [isSpace, Bool.or_eq_true, decide_eq_true_eq] at h
  rcases h with ((rfl | rfl) | rfl) | rfl <;> decide

/-- A character that is neither a blank nor the start of a comment or an attribute. -/
def startsToken (c : Char) : Bool := !isSpace c && c != '/' && c != '#'

theorem startsToken_iff {c : Char} : startsToken c ↔ isSpace c = false ∧ c ≠ '/' ∧ c ≠ '#' := by
  simp [startsToken, and_assoc]

theorem gaps_run (h : Spaced isSpace follow cs) (hopens : Opens startsToken follow) :
    ∃ rest, gaps cs = some ((), rest) ∧ Tight isSpace follow rest := by
  have htight := h.tight (hopens.imp fun c hc => by rw [(startsToken_iff.1 hc).1]; rfl)
  refine ⟨_, ?_, htight⟩
  -- A comment would begin with a slash, and a slash that begins none is refused.
  have hslash : '/' ∉ (cs.dropWhile isSpace).head? := fun hc =>
    (startsToken_iff.1 (htight.of_mem_head? hopens hc)).2.1 rfl
  have hcomment : ∀ text : String, text.toList[0]? = some '/' →
      Scan.exactly text (cs.dropWhile isSpace) = none := fun text htext =>
    Scan.exactly_eq_none_of_head? text htext hslash
  refine Scan.bind_run rfl (Scan.bind_run rfl ?_)
  refine Scan.bind_run (Scan.found_of_none (hcomment "//" rfl)) ?_
  refine Scan.bind_run (Scan.found_of_none (hcomment "/*" rfl)) ?_
  exact Scan.bind_run rfl (Scan.guard_run hslash)

theorem comma_run (h : Spaced isSpace ([','] :: follow) cs) (hopens : Opens startsToken follow) :
    ∃ rest, comma cs = some (true, rest) ∧ Tight isSpace follow rest := by
  obtain ⟨text, hgaps, rest, rfl, hrest⟩ := gaps_run h (opens_singleton rfl)
  obtain ⟨left, hgaps', hleft⟩ := gaps_run hrest hopens
  refine ⟨left, ?_, hleft⟩
  exact Scan.bind_run hgaps (Scan.bind_run (Scan.found_append "," rest) (Scan.bind_run hgaps' rfl))

theorem comma_close (h : Spaced isSpace ([')'] :: follow) cs) :
    ∃ rest, comma cs = some (false, ')' :: rest) ∧ Spaced isSpace follow rest := by
  obtain ⟨text, hgaps, rest, rfl, hrest⟩ := gaps_run h (opens_singleton rfl)
  refine ⟨rest, ?_, hrest⟩
  have hcomma : Scan.exactly "," ([')'] ++ rest) = none :=
    Scan.exactly_eq_none "," 0 rfl (show some ')' ≠ some ',' by decide)
  exact Scan.bind_run hgaps (Scan.bind_run (Scan.found_of_none hcomma) rfl)

/-! ## Names -/

/-- A name that can be written plain, and is not the word for a value. -/
structure PlainName (name : String) : Prop where
  starts : name.toList.head?.any startsName
  all : name.toList.all inName
  ne_r : name ≠ "r"
  notMem : name ∉ ["true", "false", "inf", "NaN", "None", "Some"]

instance (name : String) : Decidable (PlainName name) :=
  decidable_of_iff (name.toList.head?.any startsName ∧ name.toList.all inName ∧ name ≠ "r" ∧
    name ∉ ["true", "false", "inf", "NaN", "None", "Some"])
    ⟨fun ⟨hstarts, hall, hne, hmem⟩ => ⟨hstarts, hall, hne, hmem⟩,
      fun ⟨hstarts, hall, hne, hmem⟩ => ⟨hstarts, hall, hne, hmem⟩⟩

/-- What may come behind a name. -/
def nameMarks : List Char := [':', '(']

variable {name : String}

theorem PlainName.exists_cons (h : PlainName name) :
    ∃ c token, name.toList = c :: token ∧ startsName c := by
  have hstarts := h.starts
  cases hname : name.toList with
  | nil =>
    rw [hname] at hstarts
    exact absurd hstarts (by decide)
  | cons c token =>
    rw [hname] at hstarts
    exact ⟨c, token, rfl, hstarts⟩

theorem PlainName.ne_nil (h : PlainName name) : name.toList ≠ [] := by
  obtain ⟨c, token, hcons, -⟩ := h.exists_cons
  rw [hcons]
  exact List.cons_ne_nil _ _

theorem plainName_run (hname : PlainName name) (hrest : ∀ c ∈ rest.head?, inName c = false) :
    plainName (name.toList ++ rest) = some (name, rest) := by
  have hstarts : (name.toList ++ rest).head?.any startsName := by
    obtain ⟨c, token, hcons, hc⟩ := hname.exists_cons
    rw [hcons]
    exact hc
  have hne : name.toList ≠ ['r'] := fun h =>
    hname.ne_r (by rw [← String.ofList_toList (s := name), h])
  refine Scan.bind_run rfl (Scan.bind_run (Scan.guard_run hstarts) ?_)
  refine Scan.bind_run (Scan.many_append (List.all_eq_true.1 hname.all) hrest) (Scan.bind_run rfl ?_)
  refine Scan.bind_run (Scan.guard_run (.inl hne)) ?_
  rw [String.ofList_toList]
  rfl

theorem exactly_raw (hname : PlainName name) (hrest : '#' ∉ rest.head?) :
    Scan.exactly "r#" (name.toList ++ rest) = none := by
  obtain ⟨c, token, hcons, hc⟩ := hname.exists_cons
  rw [hcons]
  by_cases hr : c = 'r'
  · subst hr
    refine Scan.exactly_eq_none "r#" 1 (show _ = some '#' from rfl) ?_
    rw [List.cons_append, List.getElem?_cons_succ, ← List.head?_eq_getElem?]
    cases token with
    | nil => exact hrest
    | cons d token =>
      rintro ⟨⟩
      exact absurd (List.all_eq_true.1 hname.all '#' (hcons ▸ by simp)) (by decide)
  · refine Scan.exactly_eq_none "r#" 0 rfl ?_
    rintro ⟨⟩
    exact hr rfl

theorem name_run (hname : PlainName name) (hfollow : Opens (· ∈ nameMarks) follow)
    (h : Tight isSpace (name.toList :: follow) cs) :
    ∃ rest, Ron.name cs = some (name, rest) ∧ Spaced isSpace follow rest := by
  obtain ⟨rest, rfl, hrest⟩ := h
  refine ⟨rest, ?_, hrest⟩
  have hstops := hrest.stops (fun _ => mem_blanks) hfollow
  have hraw : rawName (name.toList ++ rest) = none :=
    Scan.bind_eq_none (exactly_raw hname (hstops.notMem (by decide)))
  exact (Scan.orElse_of_none hraw).trans (plainName_run hname (hstops.forall_eq_false (by decide)))

/-! ## Numbers -/

/-- What may come behind a value. -/
def valueMarks : List Char := [',', ')']

theorem inInteger_of_isDigit {c : Char} (hc : c.isDigit) : inInteger c := by
  rw [inInteger, isDigitOf_of_isDigit hc (by decide), Bool.true_or]

theorem inFloat_of_isDigit {c : Char} (hc : c.isDigit) : inFloat c := by
  simp [inFloat, hc]

theorem integer_run (n : Nat) (h : Stops (blanks ++ valueMarks) rest) :
    integer (Nat.toDigits 10 n ++ rest) = some (n, rest) := by
  have hdigits := isDigit_of_mem_toDigits n
  have hx := Scan.exactly_toDigits_eq_none' "0x" n rfl rfl (h.notMem (by decide))
  have hb := Scan.exactly_toDigits_eq_none' "0b" n rfl rfl (h.notMem (by decide))
  have ho := Scan.exactly_toDigits_eq_none' "0o" n rfl rfl (h.notMem (by decide))
  have hbase : ((Scan.exactly "0x" *> pure 16) <|> (Scan.exactly "0b" *> pure 2) <|>
      (Scan.exactly "0o" *> pure 8) <|> pure 10 : Scan Nat) (Nat.toDigits 10 n ++ rest) =
      some (10, Nat.toDigits 10 n ++ rest) :=
    (Scan.orElse_of_none (Scan.seqRight_eq_none hx)).trans
      ((Scan.orElse_of_none (Scan.seqRight_eq_none hb)).trans
        (Scan.orElse_of_none (Scan.seqRight_eq_none ho)))
  have hrun := Scan.many1_append Nat.toDigits_ne_nil
    (fun c hc => inInteger_of_isDigit (hdigits c hc))
    (h.forall_eq_false (p := inInteger) (by decide))
  have hmark : (Nat.toDigits 10 n).head? ≠ some '_' := fun hc =>
    absurd (hdigits _ (List.mem_of_mem_head? hc)) (by decide)
  have hall : (Nat.toDigits 10 n).all (isDigitOf 10) :=
    List.all_eq_true.2 fun c hc => isDigitOf_of_isDigit (hdigits c hc) (Nat.le_refl 10)
  refine Scan.bind_run hbase (Scan.bind_run hrun (Scan.bind_run (Scan.guard_run hmark) ?_))
  rw [filter_toDigits]
  refine Scan.bind_run (Scan.guard_run hall) ?_
  rw [numeral_toDigits]
  rfl

/-- Digits with no letter behind them are no longer as a floating point number. -/
theorem looksFloat_toDigits (n : Nat) (h : Stops (blanks ++ valueMarks) rest) :
    looksFloat (Nat.toDigits 10 n ++ rest) = false := by
  have hdigits := isDigit_of_mem_toDigits n
  have hinteger := Scan.many_append (fun c hc => inInteger_of_isDigit (hdigits c hc))
    (h.forall_eq_false (p := inInteger) (by decide))
  have hfloat := Scan.many_append (fun c hc => inFloat_of_isDigit (hdigits c hc))
    (h.forall_eq_false (p := inFloat) (by decide))
  obtain ⟨c, cs, hcs, hc⟩ := exists_toDigits_eq_cons n
  have hsign : ¬ (c = '+' || c = '-') := by
    rw [Bool.or_eq_true, decide_eq_true_eq, decide_eq_true_eq]
    rintro (rfl | rfl) <;> exact absurd hc (by decide)
  rw [hcs, List.cons_append] at hinteger hfloat ⊢
  simp only [looksFloat, if_neg hsign]
  rw [(Prod.mk.inj (Option.some.inj hinteger)).1, (Prod.mk.inj (Option.some.inj hfloat)).1]
  exact decide_eq_false (Nat.lt_irrefl _)

theorem number_run (hn : n < 2 ^ 64) (h : Stops (blanks ++ valueMarks) rest) :
    number (Nat.toDigits 10 n ++ rest) = some (.natural n, rest) := by
  have hminus := Scan.found_of_none (Scan.exactly_toDigits_eq_none "-" n rest rfl rfl)
  have hplus := Scan.found_of_none (Scan.exactly_toDigits_eq_none "+" n rest rfl rfl)
  have hsign : sign (Nat.toDigits 10 n ++ rest) = some (none, Nat.toDigits 10 n ++ rest) :=
    Scan.bind_run hminus (Scan.bind_run hplus rfl)
  refine Scan.bind_run rfl ?_
  rw [looksFloat_toDigits n h]
  refine Scan.orElse_of_some (Scan.bind_run hsign (Scan.bind_run (integer_run n h) ?_))
  exact Scan.bind_run (Scan.guard_run hn) rfl

/-! ## Records -/

/-- The token of a name that may be left out. -/
def nameTokens (name : Option String) : List (List Char) := (name.map String.toList).toList

/-- The tokens of members, up to the closing parenthesis. The last member may have a comma behind it
    as well. -/
inductive MemberTokens (Value : Ron → List (List Char) → Prop) :
    List (String × Ron) → List (List Char) → Prop
  | nil : MemberTokens Value [] [[')']]
  | last {name : String} {v : Ron} {tokens : List (List Char)} (hname : PlainName name)
    (h : Value v tokens) :
    MemberTokens Value [(name, v)] (name.toList :: [':'] :: (tokens ++ [[')']]))
  | cons {name : String} {v : Ron} {tokens : List (List Char)} {members : List (String × Ron)}
    {more : List (List Char)} (hname : PlainName name) (h : Value v tokens)
    (hmore : MemberTokens Value members more) :
    MemberTokens Value ((name, v) :: members) (name.toList :: [':'] :: (tokens ++ [','] :: more))

/-- What a record with members is read as; one without any cannot be told from a tuple. -/
def recordOf (name : Option String) : List (String × Ron) → Ron
  | [] => .tuple name []
  | member :: members => .record name (member :: members)

/-- A value is found again where its tokens come next, with fuel for their number and room for its
    depth; what follows them is left. -/
structure Readable (depth : Nat) (v : Ron) (tokens : List (List Char)) : Prop where
  opens : ∀ follow, Opens startsToken (tokens ++ follow)
  token_ne_nil : ∀ token ∈ tokens, token ≠ []
  readsBack : ∀ fuel follow cs, tokens.length < fuel → Opens (· ∈ valueMarks) follow →
    Tight isSpace (tokens ++ follow) cs →
    ∃ rest, value false fuel depth cs = some (v, rest) ∧ Spaced isSpace follow rest

section Records

variable {Value : Ron → List (List Char) → Prop} {v : Ron} {members : List (String × Ron)}
  {after : List (List Char)} {depth : Nat}

theorem startsToken_of {p : Char → Bool} (hp : ('/' :: '#' :: blanks).any p = false) {c : Char}
    (h : p c) : startsToken c := by
  have hne : c ∉ '/' :: '#' :: blanks := fun hc => List.any_eq_false.1 hp c hc h
  rw [startsToken_iff]
  refine ⟨?_, ?_, ?_⟩
  · exact Bool.eq_false_iff.2 fun hspace =>
      hne (List.mem_cons_of_mem _ (List.mem_cons_of_mem _ (mem_blanks hspace)))
  · rintro rfl
    exact hne (by decide)
  · rintro rfl
    exact hne (by decide)

theorem le_val_of_isAlpha {c : Char} (h : c.isAlpha) : 'A'.val ≤ c.val := by
  have hcase : c.isUpper || c.isLower := h
  rcases Bool.or_eq_true_iff.1 hcase with hupper | hlower
  · exact (of_decide_eq_true hupper).1
  · have hbounds : 'a'.val ≤ c.val && c.val ≤ 'z'.val := hlower
    exact UInt32.le_trans (by decide) (of_decide_eq_true (Bool.and_eq_true_iff.1 hbounds).1)

theorem startsName_of_isDigit {c : Char} (h : c.isDigit) : startsName c = false := by
  have hbounds : '0'.val ≤ c.val && c.val ≤ '9'.val := h
  have hle : c.val ≤ '9'.val := of_decide_eq_true (Bool.and_eq_true_iff.1 hbounds).2
  have halpha : c.isAlpha = false := Bool.eq_false_iff.2 fun halpha =>
    absurd (UInt32.le_trans (le_val_of_isAlpha halpha) hle) (by decide)
  rw [startsName, halpha, Bool.false_or, decide_eq_false (ne_underscore_of_isDigit h)]

theorem plainName_eq_none (h : ∀ c ∈ cs.head?, startsName c = false) : plainName cs = none := by
  refine Scan.bind_run rfl (Scan.bind_eq_none (Scan.guard_eq_none ?_))
  cases cs with
  | nil => exact Bool.false_ne_true
  | cons c cs => exact Bool.eq_false_iff.1 (h c rfl)

theorem rawName_eq_none (h : 'r' ∉ cs.head?) : rawName cs = none :=
  Scan.bind_eq_none (Scan.exactly_eq_none_of_head? "r#" rfl h)

theorem readable_natural (hn : n < 2 ^ 64) : Readable depth (.natural n) [Nat.toDigits 10 n] where
  opens _ := (opens_toDigits n).imp fun _ => startsToken_of (by decide)
  token_ne_nil := List.forall_mem_singleton.2 Nat.toDigits_ne_nil
  readsBack fuel follow cs hfuel hfollow hcs := by
    obtain ⟨fuel, rfl⟩ := Nat.exists_eq_add_one.2 (Nat.zero_lt_of_lt hfuel)
    obtain ⟨rest, rfl, hrest⟩ := hcs
    refine ⟨rest, ?_, hrest⟩
    have hnumber := number_run hn (hrest.stops (fun _ => mem_blanks) hfollow)
    obtain ⟨c, cs, hc, hdigit⟩ := exists_toDigits_eq_cons n
    rw [hc, List.cons_append] at hnumber ⊢
    have hplain : plainName (c :: (cs ++ rest)) = none := plainName_eq_none (by
      rintro _ ⟨⟩
      exact startsName_of_isDigit hdigit)
    have hraw : rawName (c :: (cs ++ rest)) = none := rawName_eq_none (by
      rintro ⟨⟩
      exact absurd hdigit (by decide))
    rw [value]
    refine Scan.bind_run (Scan.attempt_of_none hplain) ?_
    refine Scan.bind_run (Scan.attempt_of_none hraw) (Scan.bind_run rfl ?_)
    generalize hpeek : (c :: (cs ++ rest)).head? = peeked
    split
    case h_8 => exact hnumber
    all_goals
      cases hpeek
      exact absurd hdigit (by decide)

theorem PlainName.opens {p : Char → Bool} (h : PlainName name) (hp : ∀ c, startsName c → p c) :
    Opens p (name.toList :: follow) := by
  obtain ⟨c, token, hcons, hc⟩ := h.exists_cons
  rintro _ ⟨⟩
  rw [hcons]
  exact hp c hc

theorem startsToken_of_startsName {c : Char} (h : startsName c) : startsToken c :=
  startsToken_of (by decide) h

/-- A member is read up to what follows its value, which is no closing parenthesis by itself. -/
theorem member_run (fuel : Nat) (hname : PlainName name) (hv : Readable depth v tokens)
    (hfuel : tokens.length < fuel) (hafter : Opens (· ∈ valueMarks) after)
    (hcs : Spaced isSpace (name.toList :: [':'] :: (tokens ++ after)) cs) :
    ∃ rest, Spaced isSpace after rest ∧
      Ron.members false (fuel + 1) (depth + 1) cs = (do
        if ← comma then return (name, v) :: (← Ron.members false fuel (depth + 1))
        Scan.exactly ")"
        return [(name, v)] : Scan (List (String × Ron))) rest := by
  obtain ⟨text, hgaps, htext⟩ := gaps_run hcs (hname.opens fun _ => startsToken_of_startsName)
  obtain ⟨text', hnamed, htext'⟩ := name_run hname (opens_singleton rfl) htext
  obtain ⟨text'', hgaps', left, rfl, hleft⟩ := gaps_run htext' (opens_singleton rfl)
  obtain ⟨left', hgaps'', hleft'⟩ := gaps_run hleft (hv.opens after)
  obtain ⟨rest, hread, hrest⟩ := hv.readsBack fuel after left' hfuel hafter hleft'
  have hclose : Scan.exactly ")" text = none := by
    refine Scan.exactly_eq_none_of_head? ")" rfl fun hhead => ?_
    have hstarts := htext.of_mem_head? (hname.opens fun _ => id) hhead
    exact absurd hstarts (by decide)
  have hjoined : joinedText false left' = none := rfl
  refine ⟨rest, hrest, ?_⟩
  rw [Ron.members]
  refine Scan.bind_run hgaps (Scan.bind_run (Scan.found_of_none hclose) ?_)
  refine Scan.bind_run (Scan.guard_run (Nat.zero_lt_succ depth)) (Scan.bind_run hnamed ?_)
  refine Scan.bind_run hgaps' (Scan.bind_run (Scan.exactly_append ":" left) ?_)
  refine Scan.bind_run hgaps'' (Scan.bind_run ((Scan.orElse_of_none hjoined).trans hread) rfl)

/-- Members begin with a closing parenthesis if there are none, and with a name and a colon
    otherwise. -/
theorem MemberTokens.head_cases (h : MemberTokens Value members tokens) :
    members = [] ∧ tokens = [[')']] ∨ members ≠ [] ∧ ∃ name more, PlainName name ∧
      tokens = name.toList :: [':'] :: more := by
  cases h with
  | nil => exact .inl ⟨rfl, rfl⟩
  | last hname _ => exact .inr ⟨List.cons_ne_nil _ _, _, _, hname, rfl⟩
  | cons hname _ _ => exact .inr ⟨List.cons_ne_nil _ _, _, _, hname, rfl⟩

theorem MemberTokens.opens (h : MemberTokens Value members tokens) :
    Opens startsToken (tokens ++ follow) := by
  rcases h.head_cases with ⟨-, rfl⟩ | ⟨-, name, more, hname, rfl⟩
  · exact opens_singleton rfl
  · exact hname.opens fun _ => startsToken_of_startsName

theorem MemberTokens.members_run (h : MemberTokens Value members tokens)
    (hvalue : ∀ v tokens, Value v tokens → Readable depth v tokens) (fuel : Nat)
    (hfuel : tokens.length ≤ fuel) (hcs : Spaced isSpace (tokens ++ follow) cs) :
    ∃ rest, Ron.members false fuel (depth + 1) cs = some (members, rest) ∧
      Spaced isSpace follow rest := by
  induction h generalizing fuel cs with
  | nil =>
    obtain ⟨fuel, rfl⟩ := Nat.exists_eq_add_one.2 hfuel
    obtain ⟨text, hgaps, rest, rfl, hrest⟩ := gaps_run hcs (opens_singleton rfl)
    refine ⟨rest, ?_, hrest⟩
    rw [Ron.members]
    exact Scan.bind_run hgaps (Scan.bind_run (Scan.found_append ")" rest) rfl)
  | last hname hv =>
    simp only [List.length_cons, List.length_append] at hfuel
    obtain ⟨fuel, rfl⟩ := Nat.exists_eq_add_one.2 (Nat.lt_of_lt_of_le (Nat.zero_lt_succ _) hfuel)
    simp only [List.cons_append, List.append_assoc] at hcs
    obtain ⟨text, htext, hread⟩ := member_run fuel hname (hvalue _ _ hv) (by omega)
      (opens_singleton rfl) hcs
    obtain ⟨rest, hcomma, hrest⟩ := comma_close htext
    refine ⟨rest, ?_, hrest⟩
    rw [hread]
    exact Scan.bind_run hcomma (Scan.bind_run (Scan.exactly_append ")" rest) rfl)
  | cons hname hv hmore ih =>
    simp only [List.length_cons, List.length_append] at hfuel
    obtain ⟨fuel, rfl⟩ := Nat.exists_eq_add_one.2 (Nat.lt_of_lt_of_le (Nat.zero_lt_succ _) hfuel)
    simp only [List.cons_append, List.append_assoc] at hcs
    obtain ⟨text, htext, hread⟩ := member_run fuel hname (hvalue _ _ hv) (by omega)
      (opens_singleton rfl) hcs
    obtain ⟨left, hcomma, hleft⟩ := comma_run htext hmore.opens
    obtain ⟨rest, hmembers, hrest⟩ := ih fuel (by omega) hleft.spaced
    refine ⟨rest, ?_, hrest⟩
    rw [hread]
    exact Scan.bind_run hcomma (Scan.bind_run hmembers rfl)

theorem startsMember_of_members (h : MemberTokens Value members tokens) (hne : members ≠ [])
    (hcs : Tight isSpace (tokens ++ follow) cs) : startsMember cs := by
  rcases h.head_cases with ⟨rfl, -⟩ | ⟨-, name, more, hname, rfl⟩
  · exact absurd rfl hne
  · obtain ⟨text, hnamed, htext⟩ := name_run hname (opens_singleton rfl) hcs
    obtain ⟨left, hgaps, rest, rfl, hrest⟩ := gaps_run htext (opens_singleton rfl)
    have hrun : (do discard Ron.name; gaps; Scan.exactly ":" : Scan Unit).run cs =
        some ((), rest) :=
      Scan.bind_run (Scan.discard_run hnamed) (Scan.bind_run hgaps (Scan.exactly_append ":" rest))
    rw [startsMember, hrun]
    rfl

theorem startsMember_close (rest : List Char) : ¬ startsMember ([')'] ++ rest) := by
  have hname : Ron.name ([')'] ++ rest) = none := by
    refine (Scan.orElse_of_none (rawName_eq_none ?_)).trans (plainName_eq_none ?_)
    · rintro ⟨⟩
    · rintro _ ⟨⟩
      rfl
  have hrun : (do discard Ron.name; gaps; Scan.exactly ":" : Scan Unit).run ([')'] ++ rest) =
      none :=
    Scan.bind_eq_none (Scan.discard_eq_none hname)
  rw [startsMember, hrun]
  exact Bool.false_ne_true

theorem parenthesised_run (h : MemberTokens Value members tokens)
    (hvalue : ∀ v tokens, Value v tokens → Readable depth v tokens) (name : Option String)
    (fuel : Nat) (hfuel : tokens.length ≤ fuel)
    (hcs : Tight isSpace (['('] :: (tokens ++ follow)) cs) :
    ∃ rest, parenthesised false (fuel + 1) (depth + 2) name cs =
      some (recordOf name members, rest) ∧ Spaced isSpace follow rest := by
  obtain ⟨text, rfl, htext⟩ := hcs
  obtain ⟨text', hgaps, htext'⟩ := gaps_run htext h.opens
  have hdepth : 0 < depth + 2 := Nat.zero_lt_succ _
  cases members with
  | nil =>
    cases h
    obtain ⟨fuel, rfl⟩ := Nat.exists_eq_add_one.2 hfuel
    obtain ⟨left, hgaps', rest, rfl, hrest⟩ := gaps_run htext'.spaced (opens_singleton rfl)
    obtain ⟨more, rfl, -⟩ := htext'
    refine ⟨rest, ?_, hrest⟩
    rw [parenthesised]
    refine Scan.bind_run (Scan.exactly_append "(" text) (Scan.bind_run (Scan.guard_run hdepth) ?_)
    refine Scan.bind_run hgaps (Scan.bind_run rfl ?_)
    rw [if_neg (startsMember_close more), items]
    refine Scan.bind_run (Scan.bind_run hgaps' ?_) rfl
    exact Scan.bind_run (Scan.found_append ")" rest) rfl
  | cons member members =>
    obtain ⟨rest, hmembers, hrest⟩ := h.members_run hvalue fuel hfuel htext'.spaced
    refine ⟨rest, ?_, hrest⟩
    rw [parenthesised]
    refine Scan.bind_run (Scan.exactly_append "(" text) (Scan.bind_run (Scan.guard_run hdepth) ?_)
    refine Scan.bind_run hgaps (Scan.bind_run rfl ?_)
    rw [if_pos (startsMember_of_members h (List.cons_ne_nil _ _) htext')]
    exact Scan.bind_run hmembers rfl

/-- Two parentheses with nothing between them hold no members. -/
theorem MemberTokens.eq_nil (h : MemberTokens Value members tokens)
    (hcs : Spaced isSpace (tokens ++ follow) (')' :: rest)) :
    members = [] ∧ Spaced isSpace follow rest := by
  rcases h.head_cases with ⟨rfl, rfl⟩ | ⟨-, name, more, hname, rfl⟩
  · obtain ⟨left, heq, hleft⟩ := hcs.tight (opens_singleton rfl)
    cases heq
    exact ⟨rfl, hleft⟩
  · rcases hcs.of_mem_head? (hname.opens fun _ => id) rfl with hspace | hstarts
    · exact absurd hspace (by decide)
    · exact absurd hstarts (by decide)

/-- A record without its name is read from its opening parenthesis on. -/
theorem value_open (h : MemberTokens Value members tokens)
    (hvalue : ∀ v tokens, Value v tokens → Readable depth v tokens) (fuel : Nat)
    (hfuel : tokens.length ≤ fuel) (hcs : Tight isSpace (['('] :: (tokens ++ follow)) cs) :
    ∃ rest, value false (fuel + 2) (depth + 2) cs = some (recordOf none members, rest) ∧
      Spaced isSpace follow rest := by
  obtain ⟨rest, hread, hrest⟩ := parenthesised_run h hvalue none fuel hfuel hcs
  obtain ⟨text, rfl, htext⟩ := hcs
  have hplain : plainName (['('] ++ text) = none := plainName_eq_none (by rintro _ ⟨⟩; rfl)
  have hraw : rawName (['('] ++ text) = none := rawName_eq_none (by rintro ⟨⟩)
  have hstart : ∀ {x}, (do
        if ← Scan.found "()" then return Ron.tuple none []
        parenthesised false (fuel + 1) (depth + 2) none : Scan Ron) (['('] ++ text) = x →
      value false (fuel + 2) (depth + 2) (['('] ++ text) = x := by
    intro x hx
    rw [value]
    exact Scan.bind_run (Scan.attempt_of_none hplain)
      (Scan.bind_run (Scan.attempt_of_none hraw) (Scan.bind_run rfl hx))
  by_cases hclose : ')' ∈ text.head?
  · cases text with
    | nil => cases hclose
    | cons c text =>
      cases hclose
      obtain ⟨rfl, hfollow⟩ := h.eq_nil htext
      exact ⟨text, hstart (Scan.bind_run (Scan.found_append "()" text) rfl), hfollow⟩
  · have hpair : Scan.exactly "()" (['('] ++ text) = none :=
      Scan.exactly_eq_none "()" 1 rfl (List.head?_eq_getElem? ▸ hclose)
    exact ⟨rest, hstart (Scan.bind_run (Scan.found_of_none hpair) hread), hrest⟩

/-- A record is read from its name on. -/
theorem value_name (hname : PlainName name) (h : MemberTokens Value members tokens)
    (hvalue : ∀ v tokens, Value v tokens → Readable depth v tokens) (fuel : Nat)
    (hfuel : tokens.length ≤ fuel)
    (hcs : Tight isSpace (name.toList :: ['('] :: (tokens ++ follow)) cs) :
    ∃ rest, value false (fuel + 3) (depth + 2) cs = some (recordOf (some name) members, rest) ∧
      Spaced isSpace follow rest := by
  obtain ⟨text, rfl, htext⟩ := hcs
  have hopens : Opens (· ∈ nameMarks) (['('] :: (tokens ++ follow)) := opens_singleton rfl
  have hplain := plainName_run hname
    ((htext.stops (fun _ => mem_blanks) hopens).forall_eq_false (by decide))
  obtain ⟨left, hgaps, hleft⟩ := gaps_run htext (opens_singleton rfl)
  obtain ⟨rest, hread, hrest⟩ := parenthesised_run h hvalue (some name) fuel hfuel hleft
  obtain ⟨more, rfl, -⟩ := hleft
  refine ⟨rest, ?_, hrest⟩
  have hnamed : named false (fuel + 2) (depth + 2) name text =
      some (recordOf (some name) members, rest) := by
    rw [named]
    exact Scan.bind_run hgaps (Scan.bind_run rfl hread)
  rw [value]
  refine Scan.bind_run (Scan.attempt_of_some hplain) ?_
  generalize hword : some name = word
  split
  case h_7 =>
    cases hword
    exact hnamed
  all_goals cases hword
  all_goals exact absurd hname.notMem (by decide)

theorem MemberTokens.token_ne_nil (h : MemberTokens Value members tokens)
    (hvalue : ∀ v tokens, Value v tokens → Readable depth v tokens) :
    ∀ token ∈ tokens, token ≠ [] := by
  induction h with
  | nil => exact List.forall_mem_singleton.2 (List.cons_ne_nil _ _)
  | last hname hv =>
    rw [List.forall_mem_cons, List.forall_mem_cons, List.forall_mem_append,
      List.forall_mem_singleton]
    exact ⟨hname.ne_nil, List.cons_ne_nil _ _,
      (hvalue _ _ hv).token_ne_nil, List.cons_ne_nil _ _⟩
  | cons hname hv _ ih =>
    rw [List.forall_mem_cons, List.forall_mem_cons, List.forall_mem_append, List.forall_mem_cons]
    exact ⟨hname.ne_nil, List.cons_ne_nil _ _, (hvalue _ _ hv).token_ne_nil, List.cons_ne_nil _ _,
      ih⟩

/-- A record is read back, with its name or without. -/
theorem readable_record {name : Option String} (hname : ∀ n ∈ name, PlainName n)
    (h : MemberTokens Value members tokens)
    (hvalue : ∀ v tokens, Value v tokens → Readable depth v tokens) :
    Readable (depth + 2) (recordOf name members) (nameTokens name ++ ['('] :: tokens) where
  opens follow := by
    cases name with
    | none => exact opens_singleton rfl
    | some n => exact (hname n rfl).opens fun _ => startsToken_of_startsName
  token_ne_nil := by
    rw [List.forall_mem_append, List.forall_mem_cons]
    refine ⟨?_, List.cons_ne_nil _ _, h.token_ne_nil hvalue⟩
    cases name with
    | none => exact nofun
    | some n => exact List.forall_mem_singleton.2 (hname n rfl).ne_nil
  readsBack fuel follow cs hfuel hfollow hcs := by
    rw [List.length_append, List.length_cons] at hfuel
    cases name with
    | none =>
      obtain ⟨fuel, rfl⟩ := Nat.exists_eq_add_of_le' (show 2 ≤ fuel by omega)
      exact value_open h hvalue fuel (by omega) hcs
    | some n =>
      have hlen : (nameTokens (some n)).length = 1 := rfl
      obtain ⟨fuel, rfl⟩ := Nat.exists_eq_add_of_le' (show 3 ≤ fuel by omega)
      exact value_name (hname n rfl) h hvalue fuel (by omega) hcs

end Records

/-- The tokens of numbers and of records that are nested on a number of levels. -/
def Spelled : Nat → Ron → List (List Char) → Prop
  | 0, v, tokens => ∃ n < 2 ^ 64, v = .natural n ∧ tokens = [Nat.toDigits 10 n]
  | levels + 1, v, tokens => Spelled levels v tokens ∨ ∃ name members more,
    (∀ n ∈ name, PlainName n) ∧ MemberTokens (Spelled levels) members more ∧
      v = recordOf name members ∧ tokens = nameTokens name ++ ['('] :: more

theorem exists_memberTokens {Value : Ron → List (List Char) → Prop} {members : List (String × Ron)}
    (h : ∀ m ∈ members, PlainName m.1 ∧ ∃ tokens, Value m.2 tokens) :
    ∃ tokens, MemberTokens Value members tokens := by
  induction members with
  | nil => exact ⟨_, .nil⟩
  | cons m members ih =>
    obtain ⟨⟨hname, tokens, htokens⟩, hmembers⟩ := List.forall_mem_cons.1 h
    obtain ⟨more, hmore⟩ := ih hmembers
    exact ⟨_, .cons hname htokens hmore⟩

/-- A record can be spelled if its members can. -/
theorem exists_spelled_recordOf {levels : Nat} {name : Option String}
    {members : List (String × Ron)} (hname : ∀ n ∈ name, PlainName n)
    (h : ∀ m ∈ members, PlainName m.1 ∧ ∃ tokens, Spelled levels m.2 tokens) :
    ∃ tokens, Spelled (levels + 1) (recordOf name members) tokens := by
  obtain ⟨more, hmore⟩ := exists_memberTokens h
  exact ⟨_, .inr ⟨name, members, more, hname, hmore, rfl, rfl⟩⟩

/-- What is spelled is read back, unless it is nested too deep. -/
theorem Spelled.readable {levels depth : Nat} {v : Ron} (h : Spelled levels v tokens)
    (hdepth : 2 * levels ≤ depth) : Readable depth v tokens := by
  induction levels generalizing depth v tokens with
  | zero =>
    obtain ⟨n, hn, rfl, rfl⟩ := h
    exact readable_natural hn
  | succ levels ih =>
    rcases h with h | ⟨name, members, more, hname, hmembers, rfl, rfl⟩
    · exact ih h (by omega)
    · obtain ⟨depth, rfl⟩ := Nat.exists_eq_add_of_le' (show 2 ≤ depth by omega)
      exact readable_record hname hmembers fun v tokens hv => ih hv (by omega)

/-- A document is read from the tokens of its value, with any blanks. -/
theorem Readable.ofText?_spaced {v : Ron} (h : Readable nestingLimit v tokens) {text : String}
    (htext : Spaced isSpace tokens text.toList) : ofText? text = some ⟨false, v⟩ := by
  have hlen := htext.length_le h.token_ne_nil
  rw [← List.append_nil tokens] at htext
  obtain ⟨left, hgaps, hleft⟩ := gaps_run htext (h.opens [])
  obtain ⟨left', hread, hleft'⟩ :=
    h.readsBack (3 * text.toList.length + 3) [] left (by omega) nofun hleft
  obtain ⟨rest, hgaps', rfl⟩ := gaps_run hleft' nofun
  have hmark : Scan.exactly "#" left = none := by
    refine Scan.exactly_eq_none_of_head? "#" rfl fun hhead => ?_
    exact (startsToken_iff.1 (hleft.of_mem_head? (h.opens []) hhead)).2.2 rfl
  have hattributes : attributes (text.toList.length + 1) text.toList = some ([], left) :=
    Scan.bind_run hgaps (Scan.bind_run (Scan.found_of_none hmark) rfl)
  have hrun : document.run text.toList = some (⟨false, v⟩, []) :=
    Scan.bind_run rfl (Scan.bind_run hattributes (Scan.bind_run hread (Scan.bind_run hgaps' rfl)))
  rw [ofText?, Scan.whole?, hrun]

/-- The members of a record are its fields, if its name fits and all of them are asked for. -/
theorem fields?_recordOf {expected : String} {names : List String} {name : Option String}
    {members : List (String × Ron)} (hname : nameFits expected name)
    (hasked : ∀ m ∈ members, m.1 ∈ names) :
    fields? expected names (recordOf name members) = Fields.ofMembers? names members := by
  cases members with
  | nil => exact if_pos hname
  | cons member members =>
    have hunasked : (member :: members).filter (fun m => !names.contains m.1) = [] := by
      refine List.filter_eq_nil_iff.2 fun m hm => ?_
      rw [Bool.not_eq_true', Bool.not_eq_false, List.contains_iff_mem]
      exact hasked m hm
    rw [recordOf, fields?, hunasked, List.all_nil, Bool.and_true, if_pos hname]

end RailFreight.Ron
