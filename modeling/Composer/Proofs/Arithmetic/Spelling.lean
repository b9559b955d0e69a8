import Composer.Proofs.Arithmetic.Operands
import Composer.Proofs.Arithmetic.Signs
/-!
# Composer.Proofs.Arithmetic.Spelling

**How operators are written.** An operator has one sign or two, and multiplication can be a lone
letter *x* as well; blanks may stand around it. Every operator among the tokens of a text is written
somewhere in it (`exists_spelling`), and wherever it may stand in an expression it can be written in any
of its ways: the tokens stay the same (`Typed.tokens?_eq`). Only a letter *x* is read as the
beginning of a name when letters or digits touch it.
-/

namespace Composer.Arithmetic

open Text

/-! ### Spellings -/

/-- The signs of an operator. -/
def Operator.signs : Operator → List (List Char)
  | plus => [['+']]
  | minus => [['-'], ['−']]
  | times => [['*'], ['×']]
  | .over => [['/'], ['÷']]
  | modulo => [['%']]
  | power => [['^'], ['*', '*']]

/-- The letters that can stand for a multiplication. -/
def letters : List (List Char) :=
  [['x'], ['X']]

/-- All spellings of an operator. -/
def Operator.spellings (o : Operator) : List (List Char) :=
  o.signs ++ if o = .times then letters else []

/-- A sign is a character with a token of its own, or two stars. -/
theorem Operator.sign_cases {o : Operator} {w : List Char} (h : w ∈ o.signs) :
    (∃ c, w = [c] ∧ Token.ofChar? c = some (.operator o)) ∨ w = ['*', '*'] ∧ o = .power := by
  cases o <;> simp only [signs, List.mem_cons, List.not_mem_nil, or_false] at h
  case power =>
    rcases h with rfl | rfl
    · exact Or.inl ⟨_, rfl, rfl⟩
    · exact Or.inr ⟨rfl, rfl⟩
  case plus | modulo =>
    subst h
    exact Or.inl ⟨_, rfl, rfl⟩
  all_goals
    rcases h with rfl | rfl
    · exact Or.inl ⟨_, rfl, rfl⟩
    · exact Or.inl ⟨_, rfl, rfl⟩

theorem Operator.sign_of_ofChar? {c : Char} {o : Operator}
    (h : Token.ofChar? c = some (.operator o)) : [c] ∈ o.signs := by
  unfold Token.ofChar? at h
  split at h
  all_goals first | cases h; done | (cases h; decide)

/-- A letter is one character, and a name or a part of one. -/
theorem letter_cases {w : List Char} (h : w ∈ letters) :
    ∃ c, w = [c] ∧ c.isAlpha = true ∧ c.toLower = 'x' ∧ inNumeral c = false ∧ c ≠ '*' := by
  simp only [letters, List.mem_cons, List.not_mem_nil, or_false] at h
  rcases h with rfl | rfl
  · exact ⟨'x', rfl, by decide⟩
  · exact ⟨'X', rfl, by decide⟩

theorem Operator.mem_spellings {o : Operator} {w : List Char} :
    w ∈ o.spellings ↔ w ∈ o.signs ∨ o = .times ∧ w ∈ letters := by
  rw [spellings, List.mem_append]
  refine or_congr_right ?_
  split
  · next ho => simp [ho]
  · next ho => simp [ho]

/-- An operator as it is typed. -/
structure Typed (o : Operator) where
  /-- Blanks before it. -/
  before : List Char
  /-- Its spelling. -/
  word : List Char
  /-- Blanks behind it. -/
  behind : List Char
  /-- It is one of the operator. -/
  spells : word ∈ o.spellings
  /-- Nothing but blanks stands before it. -/
  before_blank : ∀ c ∈ before, isBlank c = true
  /-- Nothing but blanks stands behind it. -/
  behind_blank : ∀ c ∈ behind, isBlank c = true

namespace Typed

variable {o : Operator}

/-- Its characters. -/
def text (p : Typed o) : List Char :=
  p.before ++ p.word ++ p.behind

/-- The multiplication is a letter. -/
def IsLetter (p : Typed o) : Prop :=
  p.word ∈ letters

/-- A letter or digit touches the letter from behind. -/
def Touched (p : Typed o) (b : List Char) : Prop :=
  p.IsLetter ∧ ∃ c ∈ (p.behind ++ b).head?, c.isAlphanum = true

end Typed

/-! ### Where operators can stand -/

theorem awaiting_concat_operator {ts : List Token} {o : Operator} {awaited b : Bool}
    (h : awaiting awaited (ts ++ [.operator o]) = some b) : b = true := by
  rw [awaiting_append, Option.bind_eq_some_iff] at h
  obtain ⟨_ | _, -, hb⟩ := h
  · exact (Option.some.inj hb).symm
  · rw [awaiting_cons, Option.bind_eq_some_iff] at hb
    obtain ⟨b', hb', hnil⟩ := hb
    rw [Token.awaits] at hb'
    split at hb'
    · exact (Option.some.inj hnil) ▸ (Option.some.inj hb').symm
    · cases hb'

/-- Of two operators in a row the second one is a sign. -/
theorem isAdditive_of_awaiting {ts us : List Token} {o o' : Operator} {awaited b : Bool}
    (h : awaiting awaited (ts ++ [.operator o] ++ .operator o' :: us) = some b) :
    o'.isAdditive = true := by
  rw [awaiting_append, Option.bind_eq_some_iff] at h
  obtain ⟨b', hts, h⟩ := h
  rw [awaiting_concat_operator hts, awaiting_cons, Option.bind_eq_some_iff] at h
  obtain ⟨_, h, -⟩ := h
  rw [Token.awaits] at h
  split at h
  · next hadditive => exact hadditive
  · cases h

/-- A star is no sign. -/
theorem not_isAdditive_of_star {o : Operator} {w : List Char} (h : '*' :: w ∈ o.signs) :
    o.isAdditive = false := by
  rcases Operator.sign_cases h with ⟨c, hc, ho⟩ | ⟨-, rfl⟩
  · obtain ⟨rfl, rfl⟩ := List.cons.inj hc
    cases ho
    rfl
  · rfl

/-- What a star begins with. -/
theorem exists_operator_of_star_cons {s : List Char} {ts : List Token}
    (h : tokens? ('*' :: s) = some ts) :
    ∃ o us, ts = .operator o :: us ∧ o.isAdditive = false := by
  by_cases hstars : s.head? = some '*'
  · obtain ⟨s, rfl⟩ := List.head?_eq_some_iff.mp hstars
    rw [tokens?, tokensAfter_stars, Option.map_eq_some_iff] at h
    obtain ⟨us, -, rfl⟩ := h
    exact ⟨_, us, rfl, rfl⟩
  · rw [tokens?, tokensAfter_cons_of_ofChar? rfl rfl rfl (by simp [hstars])] at h
    obtain ⟨us, -, rfl⟩ := Option.map_eq_some_iff.mp h
    exact ⟨_, us, rfl, rfl⟩

/-! ### Tokens of typed operators -/

section

variable {s : List Char} {ts us : List Token} {o : Operator} {state : Bool}
  (hstate : awaiting true (ts ++ .operator o :: us) = some state)
include hstate

/-- What stands before an operator with a star does not end in one: two operators would stand in a
row, and the second one is no sign. -/
theorem not_star_suffix (hs : tokens? s = some ts) {w : List Char} (hw : '*' :: w ∈ o.signs) :
    ¬ ['*'] <:+ s := by
  intro hsuffix
  obtain ⟨ts', o', rfl⟩ := exists_operator_of_star hs hsuffix
  have hadditive := isAdditive_of_awaiting hstate
  rw [not_isAdditive_of_star hw] at hadditive
  cases hadditive

/-- A sign of one character is read as its operator, whatever was read before it. -/
theorem tokensAfter_sign (last : Option Token) {c : Char}
    (hc : Token.ofChar? c = some (.operator o)) (hs : tokens? s = some us) :
    tokensAfter last (c :: s) = some (.operator o :: us) := by
  obtain ⟨hblank, hnumeral, hname⟩ := Token.of_ofChar?_eq_some hc
  rw [tokensAfter_cons_of_ofChar? hblank (Bool.or_eq_false_iff.mp hnumeral).1
    (Bool.or_eq_false_iff.mp hname).1 ?_, hc, Option.bind_some, tokensAfter_operator, hs]
  · rfl
  · -- A second star would be an operator behind this one.
    rintro ⟨rfl, hhead⟩
    obtain ⟨s, rfl⟩ := List.head?_eq_some_iff.mp hhead
    obtain ⟨o', us', rfl, ho'⟩ := exists_operator_of_star_cons hs
    rw [List.append_cons] at hstate
    have hadditive := isAdditive_of_awaiting hstate
    rw [ho'] at hadditive
    cases hadditive

end

/-- The tokens of the letter *x* behind a number. -/
theorem tokensAfter_letter {c : Char} (hname : c.isAlpha = true) (hlower : c.toLower = 'x')
    {s : List Char} (hs : ∀ d ∈ s.head?, d.isAlphanum = false) (x : Float) :
    tokensAfter (some (.number x)) (c :: s) =
      (tokens? s).map (.operator .times :: ·) := by
  have htake : s.takeWhile Char.isAlphanum = [] ∧ s.dropWhile Char.isAlphanum = s := by
    cases s with
    | nil => exact ⟨rfl, rfl⟩
    | cons d s => simp [hs d rfl]
  rw [tokensAfter_cons_of_isAlpha hname, htake.1, htake.2, List.map_singleton, hlower]
  exact congrArg (Option.map _) (tokensAfter_operator .times s)

/-- **An operator can be written in any of its ways**, in front of a number and behind one also by
a letter that nothing touches. -/
theorem Typed.tokens?_eq {o : Operator} (p : Typed o) {a b : List Char} {ts us : List Token}
    (ha : tokens? a = some ts) (hb : tokens? b = some us) {state : Bool}
    (hstate : awaiting true (ts ++ .operator o :: us) = some state)
    (hletter : p.IsLetter → ∃ x, ts.getLast? = some (.number x)) (htouched : ¬ p.Touched b) :
    tokens? (a ++ p.text ++ b) = some (ts ++ .operator o :: us) := by
  have hbehind : tokens? (p.behind ++ b) = some us := by
    rw [tokens?, tokensAfter_blanks_append p.behind_blank]
    exact hb
  have hfront : tokensAfter none (a ++ p.before) = some ts := by
    rw [tokensAfter_append_blanks p.before_blank]
    exact ha
  have htext : a ++ p.text ++ b = (a ++ p.before) ++ (p.word ++ (p.behind ++ b)) := by
    simp [text]
  rw [tokens?, htext]
  rcases Operator.mem_spellings.mp p.spells with hsign | ⟨rfl, hword⟩
  · rcases Operator.sign_cases hsign with ⟨c, hword, hc⟩ | ⟨hword, rfl⟩
    · -- one character
      obtain ⟨-, hnumeral, hname⟩ := Token.of_ofChar?_eq_some hc
      rw [hword] at hsign ⊢
      rw [List.singleton_append, tokensAfter_cut hnumeral (Or.inl hname) ?_, hfront,
        Option.bind_some, tokensAfter_sign hstate _ hc hbehind, Option.map_some]
      rintro rfl
      exact not_star_suffix hstate hfront hsign
    · -- two stars
      rw [hword] at hsign ⊢
      show tokensAfter none ((a ++ p.before) ++ '*' :: '*' :: (p.behind ++ b)) = _
      rw [tokensAfter_cut rfl (Or.inl rfl) (fun _ => not_star_suffix hstate hfront hsign), hfront,
        Option.bind_some, tokensAfter_stars, tokensAfter_operator, hbehind]
      rfl
  · -- a letter
    obtain ⟨x, hx⟩ := hletter hword
    obtain ⟨c, hc, hname, hlower, hnumeral, hstar⟩ := letter_cases hword
    have hclear : ∀ d ∈ (p.behind ++ b).head?, d.isAlphanum = false := by
      intro d hd
      rw [Bool.eq_false_iff]
      intro halphanum
      exact htouched ⟨hword, d, hd, halphanum⟩
    have hlast : ts.getLast?.or none = some (.number x) := by rw [hx]; rfl
    rw [hc, List.singleton_append, tokensAfter_cut hnumeral (Or.inr ⟨ts, x, hfront, hlast⟩)
      (fun h => absurd h hstar), hfront, Option.bind_some, hlast,
      tokensAfter_letter hname hlower hclear, hbehind]
    rfl

/-! ### Where operators are written -/

/-- What is taken of a text goes as far as before if what follows is kept. -/
theorem takeWhile_append_of_dropWhile {p : Char → Bool} {s a r : List Char}
    (h : s.dropWhile p = a ++ r) :
    (s.takeWhile p ++ a).takeWhile p = s.takeWhile p ∧
      (s.takeWhile p ++ a).dropWhile p = a := by
  have htaken : ∀ c ∈ s.takeWhile p, p c = true := fun c hc => List.mem_takeWhile_imp hc
  have hnone : a.takeWhile p = [] ∧ a.dropWhile p = a := by
    cases a with
    | nil => exact ⟨rfl, rfl⟩
    | cons c a =>
        have hc := List.head?_dropWhile_not p s
        rw [h] at hc
        have hpc : p c = false := by simpa using hc
        simp [hpc]
  constructor
  · rw [List.takeWhile_append_of_pos htaken, hnone.1, List.append_nil]
  · rw [List.dropWhile_append_of_pos htaken, hnone.2]

/-- A name that is an operator is a letter *x*. -/
theorem Token.ofName_eq_operator {last : Option Token} {w : List Char} {o : Operator}
    (h : ofName last w = .operator o) : w = ['x'] ∧ o = .times := by
  unfold ofName at h
  split at h
  · exact ⟨rfl, by cases h; rfl⟩
  · exact ⟨rfl, by cases h; rfl⟩
  · cases h

theorem toLower_eq_x {c : Char} (h : c.toLower = 'x') : c = 'x' ∨ c = 'X' :=
  toLower_induction (P := fun c d => d = 'x' → c = 'x' ∨ c = 'X') (fun _ h => Or.inl h)
    (by decide) c h

/-- **Every operator of a text is written somewhere.** -/
theorem exists_spelling {last : Option Token} {s : List Char} {ts us : List Token} {o : Operator}
    (h : tokensAfter last s = some (ts ++ .operator o :: us)) :
    ∃ a w b, s = a ++ w ++ b ∧ w ∈ o.spellings ∧ tokensAfter last a = some ts ∧
      tokens? b = some us := by
  fun_induction tokensAfter last s generalizing ts with
  | case1 => simp at h
  | case2 last c s hc ih =>
      obtain ⟨a, w, b, rfl, hw, ha, hb⟩ := ih h
      exact ⟨c :: a, w, b, rfl, hw, by rw [tokensAfter_cons_of_isBlank hc, ha], hb⟩
  | case3 | case7 => cases h
  | case4 last c s hblank hc x hx _ ih =>
      obtain ⟨ts', hts, heq⟩ := Option.map_eq_some_iff.mp h
      -- The numeral is no operator, so the operator stands behind it.
      obtain ⟨ts, rfl, rfl⟩ : ∃ rest, ts = .number x :: rest ∧ ts' = rest ++ .operator o :: us := by
        cases ts with
        | nil => cases heq
        | cons t ts =>
            obtain ⟨rfl, rfl⟩ := List.cons.inj heq
            exact ⟨ts, rfl, rfl⟩
      obtain ⟨a, w, b, hs, hw, ha, hb⟩ := ih hts
      rw [List.append_assoc] at hs
      obtain ⟨htake, hdrop⟩ := takeWhile_append_of_dropWhile hs
      refine ⟨c :: (s.takeWhile inNumeral ++ a), w, b, ?_, hw, ?_, hb⟩
      · rw [List.cons_append, List.cons_append, List.append_assoc, List.append_assoc, ← hs,
          List.takeWhile_append_dropWhile]
      · rw [tokensAfter_cons_of_numeral (Bool.not_eq_true _ ▸ hblank) hc, htake, hdrop, hx,
          Option.bind_some, ha]
        rfl
  | case5 last c s _ _ hc w' t _ =>
      rename_i ih
      obtain ⟨ts', hts, heq⟩ := Option.map_eq_some_iff.mp h
      cases ts with
      | nil =>
          obtain ⟨ht, rfl⟩ := List.cons.inj heq
          obtain ⟨hx, rfl⟩ := Token.ofName_eq_operator ht
          obtain ⟨hlower, hnil⟩ := List.cons.inj hx
          have hdrop : s.dropWhile Char.isAlphanum = s := by
            have hsplit := List.takeWhile_append_dropWhile (p := Char.isAlphanum) (l := s)
            rwa [List.map_eq_nil_iff.mp hnil] at hsplit
          rw [ht, tokensAfter_operator, hdrop] at hts
          refine ⟨[], [c], s, rfl, ?_, by rw [tokensAfter], hts⟩
          rcases toLower_eq_x hlower with rfl | rfl <;> decide
      | cons u ts =>
          obtain ⟨rfl, rfl⟩ := List.cons.inj heq
          obtain ⟨a, w, b, hs, hw, ha, hb⟩ := ih hts
          rw [List.append_assoc] at hs
          obtain ⟨htake, hdrop⟩ := takeWhile_append_of_dropWhile hs
          refine ⟨c :: (s.takeWhile Char.isAlphanum ++ a), w, b, ?_, hw, ?_, hb⟩
          · rw [List.cons_append, List.cons_append, List.append_assoc, List.append_assoc, ← hs,
              List.takeWhile_append_dropWhile]
          · rw [tokensAfter_cons_of_isAlpha hc, htake, hdrop]
            exact congrArg (Option.map _) ha
  | case6 last c s _ _ _ hstars ih =>
      obtain ⟨ts', hts, heq⟩ := Option.map_eq_some_iff.mp h
      obtain ⟨rfl, hhead⟩ := hstars
      obtain ⟨s, rfl⟩ := List.head?_eq_some_iff.mp hhead
      cases ts with
      | nil =>
          cases heq
          rw [tokensAfter_operator] at hts
          exact ⟨[], ['*', '*'], s, rfl, by decide, by rw [tokensAfter], hts⟩
      | cons u ts =>
          obtain ⟨rfl, rfl⟩ := List.cons.inj heq
          obtain ⟨a, w, b, hs, hw, ha, hb⟩ := ih hts
          refine ⟨'*' :: '*' :: a, w, b, congrArg (fun s => '*' :: '*' :: s) hs, hw, ?_, hb⟩
          rw [tokensAfter_stars, ha]
          rfl
  | case8 last c s hblank hnumeral hname hstars t ht ih =>
      obtain ⟨ts', hts, heq⟩ := Option.map_eq_some_iff.mp h
      cases ts with
      | nil =>
          cases heq
          rw [tokensAfter_operator] at hts
          exact ⟨[], [c], s, rfl, Operator.mem_spellings.mpr (Or.inl (Operator.sign_of_ofChar? ht)),
            by rw [tokensAfter], hts⟩
      | cons u ts =>
          obtain ⟨rfl, rfl⟩ := List.cons.inj heq
          obtain ⟨a, w, b, rfl, hw, ha, hb⟩ := ih hts
          refine ⟨c :: a, w, b, rfl, hw, ?_, hb⟩
          rw [tokensAfter_cons_of_ofChar? (Bool.not_eq_true _ ▸ hblank)
            (Bool.not_eq_true _ ▸ hnumeral) (Bool.not_eq_true _ ▸ hname) ?_, ht, Option.bind_some, ha]
          · rfl
          · rintro ⟨hc, hhead⟩
            refine hstars ⟨hc, ?_⟩
            obtain ⟨a, rfl⟩ := List.head?_eq_some_iff.mp hhead
            rfl

end Composer.Arithmetic
