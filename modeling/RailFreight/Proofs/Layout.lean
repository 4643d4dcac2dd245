import RailFreight.Text.Scan
import Mathlib.Data.List.Basic
import Mathlib.Data.List.TakeWhile

/-!
# Layout of texts

A text of *tokens* may have blanks between them, and before and behind them all (`Spaced`). Readers
of documents skip blanks at some places and expect none at others, so it is told apart whether the
next token comes at once (`Tight`). A reader that finds what it looks for leaves the tokens that
follow, which is all that the next reader needs to know.

A token ends where its reader stops, so what may come next matters: blanks, or the start of another
token (`Opens`). The digits of a number go on until a character follows that no number has.

* `Spaced.tight`: behind its blanks, a text starts with its next token;
* `Scan.bind_run`: scans joined by `do` are run one after the other;
* `Scan.many_append`, `Scan.exactly_append`: what a scan for characters reads;
* `numeral_toDigits`: decimal digits stand for their number.
-/

namespace RailFreight.Text

variable {blank p : Char → Bool} {token cs : List Char} {tokens : List (List Char)}

/-! ## Tokens -/

/-- A text of tokens, with any blanks before, between and behind them. -/
def Spaced (blank : Char → Bool) : List (List Char) → List Char → Prop
  | [], cs => ∀ c ∈ cs, blank c
  | token :: tokens, cs => ∃ blanks rest,
    (∀ c ∈ blanks, blank c) ∧ cs = blanks ++ (token ++ rest) ∧ Spaced blank tokens rest

/-- A text of tokens of which the first one, or else the end, comes at once. -/
def Tight (blank : Char → Bool) : List (List Char) → List Char → Prop
  | [], cs => cs = []
  | token :: tokens, cs => ∃ rest, cs = token ++ rest ∧ Spaced blank tokens rest

/-- The first token, if there is any, begins with a character that satisfies `p`. -/
def Opens (p : Char → Bool) (tokens : List (List Char)) : Prop :=
  ∀ token ∈ tokens.head?, token.head?.any p

theorem Opens.exists_cons (h : Opens p (token :: tokens)) : ∃ c cs, token = c :: cs ∧ p c := by
  have htoken := h token rfl
  cases token with
  | nil => exact absurd htoken Bool.false_ne_true
  | cons c cs => exact ⟨c, cs, rfl, htoken⟩

theorem opens_singleton {c : Char} (hc : p c) : Opens p ([c] :: tokens) := by
  rintro _ ⟨⟩
  exact hc

theorem Opens.imp {q : Char → Bool} (hpq : ∀ c, p c → q c) (h : Opens p tokens) :
    Opens q tokens := by
  cases tokens with
  | nil => exact nofun
  | cons token tokens =>
    obtain ⟨c, cs, rfl, hc⟩ := h.exists_cons
    rintro _ ⟨⟩
    exact hpq c hc

/-- Tokens may stand next to each other. -/
theorem spaced_flatten (blank : Char → Bool) (tokens : List (List Char)) :
    Spaced blank tokens tokens.flatten := by
  induction tokens with
  | nil => exact nofun
  | cons token tokens ih => exact ⟨[], _, nofun, rfl, ih⟩

theorem spaced_of_eq_flatten (h : cs = tokens.flatten) : Spaced blank tokens cs :=
  h ▸ spaced_flatten blank tokens

theorem Tight.spaced (h : Tight blank tokens cs) : Spaced blank tokens cs := by
  cases tokens with
  | nil =>
    subst h
    exact nofun
  | cons token tokens =>
    obtain ⟨rest, rfl, hrest⟩ := h
    exact ⟨[], rest, nofun, rfl, hrest⟩

/-- Behind the blanks comes the next token, if it does not begin with a blank. -/
theorem Spaced.tight (h : Spaced blank tokens cs) (hopens : Opens (fun c => !blank c) tokens) :
    Tight blank tokens (cs.dropWhile blank) := by
  cases tokens with
  | nil => exact List.dropWhile_eq_nil_iff.2 h
  | cons token tokens =>
    obtain ⟨blanks, rest, hblanks, rfl, hrest⟩ := h
    obtain ⟨c, cs, rfl, hc⟩ := hopens.exists_cons
    rw [List.dropWhile_append_of_pos hblanks, List.cons_append,
      List.dropWhile_cons_of_neg (by simpa using hc)]
    exact ⟨rest, rfl, hrest⟩

/-- A text begins with a blank, or as its first token does. -/
theorem Spaced.of_mem_head? (h : Spaced blank tokens cs) (hopens : Opens p tokens) {c : Char}
    (hc : c ∈ cs.head?) : blank c ∨ p c := by
  cases tokens with
  | nil => exact .inl (h c (List.mem_of_mem_head? hc))
  | cons token tokens =>
    obtain ⟨blanks, rest, hblanks, rfl, -⟩ := h
    obtain ⟨d, ds, rfl, hd⟩ := hopens.exists_cons
    cases blanks with
    | nil =>
      cases hc
      exact .inr hd
    | cons b blanks =>
      cases hc
      exact .inl (hblanks c List.mem_cons_self)

/-- A text that starts at once begins as its first token does. -/
theorem Tight.of_mem_head? (h : Tight blank tokens cs) (hopens : Opens p tokens) {c : Char}
    (hc : c ∈ cs.head?) : p c := by
  cases tokens with
  | nil =>
    subst h
    cases hc
  | cons token tokens =>
    obtain ⟨rest, rfl, -⟩ := h
    obtain ⟨d, ds, rfl, hd⟩ := hopens.exists_cons
    cases hc
    exact hd

theorem Tight.exists_cons (h : Tight blank (token :: tokens) cs)
    (hopens : Opens p (token :: tokens)) : ∃ c rest, cs = c :: rest ∧ p c := by
  obtain ⟨rest, rfl, -⟩ := h
  obtain ⟨c, cs, rfl, hc⟩ := hopens.exists_cons
  exact ⟨c, cs ++ rest, rfl, hc⟩

/-- A text begins with one of a few characters, if with any. -/
def Stops (marks rest : List Char) : Prop := ∀ c ∈ rest.head?, c ∈ marks

section Stops

variable {marks blanks rest : List Char}

theorem Stops.notMem (h : Stops marks rest) {c : Char} (hc : c ∉ marks) : c ∉ rest.head? :=
  fun hmem => hc (h c hmem)

theorem Stops.forall_eq_false (h : Stops marks rest) (hp : marks.any p = false) :
    ∀ c ∈ rest.head?, p c = false := fun c hc =>
  Bool.eq_false_iff.2 (List.any_eq_false.1 hp c (h c hc))

theorem Spaced.stops (h : Spaced blank tokens cs) (hblank : ∀ c, blank c → c ∈ blanks)
    (hopens : Opens (· ∈ marks) tokens) : Stops (blanks ++ marks) cs := fun c hc =>
  List.mem_append.2 <| (h.of_mem_head? hopens hc).imp (hblank c) of_decide_eq_true

end Stops

/-- A text is at least as long as its tokens are many. -/
theorem Spaced.length_le (h : Spaced blank tokens cs) (hne : ∀ token ∈ tokens, token ≠ []) :
    tokens.length ≤ cs.length := by
  induction tokens generalizing cs with
  | nil => exact Nat.zero_le _
  | cons token tokens ih =>
    obtain ⟨blanks, rest, -, rfl, hrest⟩ := h
    obtain ⟨htoken, htokens⟩ := List.forall_mem_cons.1 hne
    have hlen := ih hrest htokens
    have hpos := List.length_pos_of_ne_nil htoken
    simp only [List.length_cons, List.length_append]
    omega

/-! ## Decimal digits -/

theorem isDigit_of_mem_toDigits (n : Nat) : ∀ c ∈ Nat.toDigits 10 n, c.isDigit := fun _ =>
  Nat.isDigit_of_mem_toDigits (by decide) (by decide)

/-- A number begins with a digit. -/
theorem exists_toDigits_eq_cons (n : Nat) :
    ∃ c cs, Nat.toDigits 10 n = c :: cs ∧ c.isDigit := by
  cases h : Nat.toDigits 10 n with
  | nil => exact absurd h Nat.toDigits_ne_nil
  | cons c cs => exact ⟨c, cs, rfl, isDigit_of_mem_toDigits n c (h ▸ List.mem_cons_self)⟩

/-- No number but zero begins with a zero. -/
theorem head?_toDigits_ne {n : Nat} (hn : 0 < n) : (Nat.toDigits 10 n).head? ≠ some '0' := by
  induction n using Nat.strongRecOn with
  | ind n ih =>
    by_cases hsmall : n < 10
    · rw [Nat.toDigits_of_lt_base hsmall, List.head?_cons]
      simp only [ne_eq, Option.some.injEq, Nat.digitChar_eq_zero]
      omega
    · rw [Nat.toDigits_of_base_le (by decide) (Nat.le_of_not_lt hsmall),
        List.head?_append_of_ne_nil _ Nat.toDigits_ne_nil]
      exact ih (n / 10) (by omega) (by omega)

/-- A number begins with a zero only if it is the zero. -/
theorem head?_toDigits (n : Nat) :
    (Nat.toDigits 10 n).head? ≠ some '0' ∨ (Nat.toDigits 10 n).length = 1 := by
  rcases Nat.eq_zero_or_pos n with rfl | hn
  · exact .inr rfl
  · exact .inl (head?_toDigits_ne hn)

theorem ne_underscore_of_isDigit {c : Char} (hc : c.isDigit) : c ≠ '_' := by
  rintro rfl
  exact absurd hc (by decide)

/-- No mark stands between the digits of a number. -/
theorem filter_toDigits (n : Nat) : (Nat.toDigits 10 n).filter (· ≠ '_') = Nat.toDigits 10 n :=
  List.filter_eq_self.2 fun c hc =>
    decide_eq_true (ne_underscore_of_isDigit (isDigit_of_mem_toDigits n c hc))

theorem opens_toDigits (n : Nat) : Opens Char.isDigit (Nat.toDigits 10 n :: tokens) := by
  obtain ⟨c, cs, hc, hdigit⟩ := exists_toDigits_eq_cons n
  rw [hc]
  rintro _ ⟨⟩
  exact hdigit

theorem digitValue?_of_isDigit {c : Char} (hc : c.isDigit) :
    digitValue? c = some (c.toNat - '0'.toNat) := by
  rw [Char.isDigit, Bool.and_eq_true, decide_eq_true_eq, decide_eq_true_eq] at hc
  have hrange : '0' ≤ c ∧ c ≤ '9' := hc
  rw [digitValue?, if_pos hrange]

theorem isDigitOf_of_isDigit {c : Char} (hc : c.isDigit) {base : Nat} (hbase : 10 ≤ base) :
    isDigitOf base c := by
  rw [isDigitOf, digitValue?_of_isDigit hc, Option.any_some, decide_eq_true_eq]
  rw [Char.isDigit, Bool.and_eq_true, decide_eq_true_eq, decide_eq_true_eq] at hc
  have : c.toNat ≤ '9'.toNat := hc.2
  have : '9'.toNat = 57 := rfl
  have : '0'.toNat = 48 := rfl
  omega

/-- The digits of a number stand for the number. -/
theorem numeral_toDigits (n : Nat) : numeral 10 (Nat.toDigits 10 n) = n := by
  have heq : ∀ (digits : List Char) (m : Nat), (∀ c ∈ digits, c.isDigit) →
      digits.foldl (fun n c => 10 * n + (digitValue? c).getD 0) m = Nat.ofDigitChars 10 digits m := by
    intro digits
    induction digits with
    | nil => exact fun _ _ => Nat.ofDigitChars_nil.symm
    | cons c digits ih =>
      intro m hdigits
      obtain ⟨hc, hdigits⟩ := List.forall_mem_cons.1 hdigits
      rw [List.foldl_cons, ih _ hdigits, digitValue?_of_isDigit hc, Option.getD_some,
        Nat.ofDigitChars_cons]
  rw [numeral, heq _ 0 (isDigit_of_mem_toDigits n), Nat.ofDigitChars_ten_toDigits]

/-! ## Scans -/

namespace Scan

variable {α β : Type} {s : Scan α} {f : α → Scan β} {a : α} {rest : List Char}

/-- After a scan comes the next one, with what it found and where it stopped. -/
theorem bind_run {r : Option (β × List Char)} (h : s cs = some (a, rest)) (hf : f a rest = r) :
    (s >>= f) cs = r := by
  show (s cs).bind _ = r
  rw [h]
  exact hf

theorem bind_eq_none (h : s cs = none) : (s >>= f) cs = none := by
  show (s cs).bind _ = none
  rw [h, Option.bind_none]

theorem exists_of_bind {x : β × List Char} (h : (s >>= f) cs = some x) :
    ∃ a rest, s cs = some (a, rest) ∧ f a rest = some x := by
  obtain ⟨⟨a, rest⟩, hs, hf⟩ := Option.bind_eq_some_iff.1 h
  exact ⟨a, rest, hs, hf⟩

/-- Nothing is found if what comes after a scan never finds anything. -/
theorem bind_eq_none' (h : ∀ a rest, s cs = some (a, rest) → f a rest = none) :
    (s >>= f) cs = none := by
  show (s cs).bind _ = none
  cases hs : s cs with
  | none => rfl
  | some found => exact h found.1 found.2 hs

theorem seqRight_eq_none {t : Scan β} (h : s cs = none) : (s *> t) cs = none := bind_eq_none h

theorem guard_run {q : Prop} [Decidable q] (hq : q) : (guard q : Scan Unit) cs = some ((), cs) := by
  rw [guard, if_pos hq]
  rfl

theorem guard_eq_none {q : Prop} [Decidable q] (hq : ¬ q) : (guard q : Scan Unit) cs = none := by
  rw [guard, if_neg hq]
  rfl

theorem eq_of_guard {q : Prop} [Decidable q] {u : Unit}
    (h : (guard q : Scan Unit) cs = some (u, rest)) : rest = cs := by
  by_cases hq : q
  · rw [guard_run hq] at h
    exact (Prod.mk.inj (Option.some.inj h)).2.symm
  · rw [guard_eq_none hq] at h
    cases h

theorem exists_of_discard {u : Unit} (h : (discard s) cs = some (u, rest)) :
    ∃ a, s cs = some (a, rest) := by
  obtain ⟨⟨a, rest'⟩, hs, heq⟩ := Option.bind_eq_some_iff.1 h
  obtain ⟨-, rfl⟩ := Prod.mk.inj (Option.some.inj heq)
  exact ⟨a, hs⟩

theorem discard_run (h : s cs = some (a, rest)) : (discard s) cs = some ((), rest) := by
  show (s cs).bind _ = _
  rw [h]
  rfl

theorem discard_eq_none (h : s cs = none) : (discard s) cs = none := by
  show (s cs).bind _ = none
  rw [h, Option.bind_none]

theorem orElse_of_some {t : Scan α} {x : α × List Char} (h : s cs = some x) :
    (s <|> t) cs = some x := by
  show (s cs <|> t cs) = some x
  rw [h]
  rfl

theorem orElse_of_none {t : Scan α} (h : s cs = none) : (s <|> t) cs = t cs := by
  show (s cs <|> t cs) = t cs
  rw [h]
  cases t cs <;> rfl

theorem attempt_of_some (h : s cs = some (a, rest)) : attempt s cs = some (some a, rest) := by
  refine orElse_of_some ?_
  show (s cs).bind _ = _
  rw [h]
  rfl

theorem attempt_of_none (h : s cs = none) : attempt s cs = some (none, cs) := by
  refine orElse_of_none ?_
  show (s cs).bind _ = none
  rw [h, Option.bind_none]

/-- A run of characters ends where another kind of character follows. -/
theorem many_append {xs : List Char} (hxs : ∀ c ∈ xs, p c) (hrest : ∀ c ∈ rest.head?, p c = false) :
    many p (xs ++ rest) = some (xs, rest) := by
  have hstop : rest.takeWhile p = [] ∧ rest.dropWhile p = rest := by
    cases rest with
    | nil => exact ⟨rfl, rfl⟩
    | cons c rest => simp [hrest c rfl]
  rw [many, List.takeWhile_append_of_pos hxs, List.dropWhile_append_of_pos hxs, hstop.1, hstop.2,
    List.append_nil]

theorem many1_append {xs : List Char} (hne : xs ≠ []) (hxs : ∀ c ∈ xs, p c)
    (hrest : ∀ c ∈ rest.head?, p c = false) : many1 p (xs ++ rest) = some (xs, rest) := by
  refine bind_run (many_append hxs hrest) (bind_run (guard_run ?_) rfl)
  rw [Bool.not_eq_true', List.isEmpty_eq_false_iff]
  exact hne

theorem one_eq_none (h : ∀ c ∈ cs.head?, p c = false) : one p cs = none := by
  cases cs with
  | nil => rfl
  | cons c cs => rw [one, if_neg (Bool.eq_false_iff.1 (h c rfl))]

/-- A certain number of characters of a run leaves the others, if nothing of their kind follows. -/
theorem times_append {count : Nat} {xs found left : List Char}
    (hrest : ∀ c ∈ rest.head?, p c = false) (h : times count p (xs ++ rest) = some (found, left)) :
    left = xs.drop count ++ rest := by
  rw [times] at h
  split at h
  · rename_i htimes
    obtain ⟨-, rfl⟩ := Prod.mk.inj (Option.some.inj h)
    obtain ⟨hlen, hall⟩ := htimes
    have hcount : count ≤ xs.length := by
      by_contra hlong
      rw [Nat.not_le] at hlong
      cases rest with
      | nil =>
        rw [List.append_nil, List.length_take] at hlen
        omega
      | cons c rest =>
        have hmem : c ∈ (xs ++ c :: rest).take count := by
          rw [List.take_append, List.mem_append, ← Nat.sub_add_cancel (Nat.sub_pos_of_lt hlong),
            List.take_succ_cons]
          exact .inr List.mem_cons_self
        exact Bool.eq_false_iff.1 (hrest c rfl) (List.all_eq_true.1 hall c hmem)
    exact List.drop_append_of_le_length hcount
  · cases h

theorem exactly_append (text : String) (rest : List Char) :
    exactly text (text.toList ++ rest) = some ((), rest) := by
  rw [exactly, List.isPrefixOf?_eq_some_iff_append_eq.2 rfl, Option.map_some]

theorem found_append (text : String) (rest : List Char) :
    found text (text.toList ++ rest) = some (true, rest) :=
  bind_run (attempt_of_some (exactly_append text rest)) rfl

/-- A text is not found where another character stands in one of its places. -/
theorem exactly_eq_none (text : String) (i : Nat) {c : Char} (htext : text.toList[i]? = some c)
    (h : cs[i]? ≠ some c) : exactly text cs = none := by
  rw [exactly, Option.map_eq_none_iff, Option.eq_none_iff_forall_ne_some]
  intro rest hrest
  rw [← List.isPrefixOf?_eq_some_iff_append_eq.1 hrest,
    List.getElem?_append_left (List.getElem?_eq_some_iff.1 htext).1] at h
  exact h htext

theorem exactly_eq_none_of_head? (text : String) {c : Char} (htext : text.toList[0]? = some c)
    (h : c ∉ cs.head?) : exactly text cs = none :=
  exactly_eq_none text 0 htext (List.head?_eq_getElem? ▸ h)

theorem found_of_none {text : String} (h : exactly text cs = none) :
    found text cs = some (false, cs) :=
  bind_run (attempt_of_none h) rfl

/-- A text that begins with no digit is not found where a number is. -/
theorem exactly_toDigits_eq_none (text : String) {c : Char} (n : Nat) (rest : List Char)
    (htext : text.toList[0]? = some c) (hc : c.isDigit = false) :
    exactly text (Nat.toDigits 10 n ++ rest) = none := by
  refine exactly_eq_none text 0 htext ?_
  obtain ⟨d, ds, hd, hdigit⟩ := exists_toDigits_eq_cons n
  rw [hd, List.cons_append, List.getElem?_cons_zero]
  rintro ⟨⟩
  exact absurd hdigit (Bool.eq_false_iff.1 hc)

/-- A text with a letter in the second place is not found where a number is, if the letter does not
    come behind the number. -/
theorem exactly_toDigits_eq_none' (text : String) {c : Char} (n : Nat) {rest : List Char}
    (htext : text.toList[1]? = some c) (hc : c.isDigit = false) (hrest : c ∉ rest.head?) :
    exactly text (Nat.toDigits 10 n ++ rest) = none := by
  refine exactly_eq_none text 1 htext ?_
  have hdigits := isDigit_of_mem_toDigits n
  obtain ⟨d, ds, hd, -⟩ := exists_toDigits_eq_cons n
  rw [hd] at hdigits ⊢
  rw [List.cons_append, List.getElem?_cons_succ]
  cases ds with
  | nil => rwa [List.nil_append, ← List.head?_eq_getElem?]
  | cons e ds =>
    rintro ⟨⟩
    exact absurd (hdigits c (by simp)) (Bool.eq_false_iff.1 hc)

end Scan

end RailFreight.Text
