import Composer.Proofs.Arithmetic.Running
/-!
# Composer.Proofs.Arithmetic.Respelling

**Operators in other spellings.** A text that is no percentage keeps its value when one of its
operators is written in another way, with other blanks around it, and it stays as complete as it was
(`detect_respelled`). Two spellings are misread: a letter *x* that a digit touches from behind
begins a name, and two stars at the end are no operator that awaits its operand. Then the text has
no answer at all.
-/

namespace Composer.Arithmetic

open Text

/-! ### Texts without tokens -/

theorem isBlank_of_tokensAfter_nil {last : Option Token} {s : List Char}
    (h : tokensAfter last s = some []) : ∀ c ∈ s, isBlank c = true := by
  fun_induction tokensAfter last s with
  | case1 => simp
  | case2 last c s hc ih => exact List.forall_mem_cons.mpr ⟨hc, ih h⟩
  | case3 | case7 => cases h
  | case4 | case5 | case6 | case8 =>
      obtain ⟨_, -, heq⟩ := Option.map_eq_some_iff.mp h
      cases heq

/-! ### The last operator of a running value -/

/-- The last operator is the one that is looked at, or it is one behind it. -/
theorem RunsTo.cases_typed {o : Operator} {p : Typed o} {a b : List Char} {ts us : List Token}
    {v : Evaluation} (h : RunsTo (a ++ p.text ++ b) v)
    (htokens : tokens? (a ++ p.text ++ b) = some (ts ++ .operator o :: us))
    (hb : tokens? b = some us) :
    us = [] ∧ (∀ c ∈ b, isBlank c = true) ∧ compute ts = some v ∨
    ∃ b' d ws us' o', b = b' ++ d :: ws ∧ (∀ c ∈ ws, isBlank c = true) ∧
      us = us' ++ [.operator o'] ∧ Token.ofChar? d = some (.operator o') ∧
      tokens? b' = some us' ∧ compute (ts ++ .operator o :: us') = some v := by
  obtain ⟨r, d, o', rs, htrim, hd, hrs, hv⟩ := h
  have hwhole : ts ++ .operator o :: us = rs ++ [.operator o'] := by
    have := tokens?_concat_operator hd hrs hv
    rw [← htrim, tokens?_trim, htokens] at this
    exact Option.some.inj this
  by_cases hblank : ∀ c ∈ b, isBlank c = true
  · obtain rfl : us = [] := by
      rw [tokens?, tokensAfter_of_isBlank hblank] at hb
      exact (Option.some.inj hb).symm
    obtain ⟨rfl, -⟩ := List.append_inj' hwhole rfl
    exact Or.inl ⟨rfl, hblank, hv⟩
  · obtain ⟨b', d', ws, rfl, hd', hws⟩ := exists_last hblank
    -- The text ends with the character that is the last one of `b`.
    rw [← List.append_assoc, trim_append_cons hd' hws] at htrim
    obtain ⟨hr, hsame⟩ := List.append_inj' htrim rfl
    obtain rfl : d' = d := (List.cons.inj hsame).1
    obtain ⟨us', rfl, rfl⟩ :
        ∃ us', us = us' ++ [.operator o'] ∧ rs = ts ++ .operator o :: us' := by
      rcases List.eq_nil_or_concat us with rfl | ⟨us', t, rfl⟩
      · exact absurd (isBlank_of_tokensAfter_nil hb) hblank
      · rw [List.concat_eq_append, ← List.cons_append, ← List.append_assoc] at hwhole
        obtain ⟨hfirst, hlast⟩ := List.append_inj' hwhole rfl
        rw [List.concat_eq_append, hlast]
        exact ⟨us', rfl, hfirst.symm⟩
    refine Or.inr ⟨b', d', ws, us', o', rfl, hws, rfl, hd, ?_, hv⟩
    -- Before that character `b` has the tokens before the last one.
    obtain ⟨-, hnumeral, hname⟩ := Token.of_ofChar?_eq_some hd
    have hstar : d' = '*' → ¬ ['*'] <:+ b' := by
      intro _ hsuffix
      have hfront : tokens? (a ++ p.text ++ b') = some (ts ++ .operator o :: us') := by
        rw [← hr, tokens?_trimStart] at hrs
        exact hrs
      obtain ⟨us₁, o₁, hus₁⟩ := exists_operator_of_star hfront
        (hsuffix.trans (List.suffix_append _ _))
      rw [hus₁, compute_concat_operator] at hv
      cases hv
    rw [tokens?, tokensAfter_append hnumeral hname hstar, Option.bind_eq_some_iff] at hb
    obtain ⟨us₁, hus₁, hb⟩ := hb
    rw [tokensAfter_sign_end hd hws, Option.map_some] at hb
    obtain ⟨rfl, -⟩ := List.append_inj' (Option.some.inj hb) rfl
    exact hus₁

/-! ### Letters that are touched -/

/-- The multiplication is read as the beginning of a name, or its last star as an operator behind
an operator. -/
def Typed.Misread {o : Operator} (p : Typed o) (b : List Char) : Prop :=
  p.Touched b ∨ p.word = ['*', '*'] ∧ ∀ c ∈ b, isBlank c = true

/-- The tokens end in a number, and others begin with one. -/
def BetweenNumbers (ts us : List Token) : Prop :=
  (∃ x, ts.getLast? = some (.number x)) ∧ ∃ y, us.head? = some (.number y)

/-- No name of an expression begins with the letter *x*. -/
theorem not_mem_names_of_letter (w : List Char) : String.ofList ('x' :: w) ∉ names := by
  intro h
  have hheads : ∀ v ∈ names, v.toList.head? ≠ some 'x' := by decide
  exact hheads _ h (by rw [String.toList_ofList]; rfl)

theorem evaluate_eq_none_of_name {s : List Char} {w : String} (hw : w ∉ names)
    (h : ∀ ts, tokens? s = some ts → .name w ∈ ts) : evaluate s = none := by
  rw [Option.eq_none_iff_forall_ne_some]
  intro v hv
  rw [evaluate_eq, Option.bind_eq_some_iff] at hv
  obtain ⟨ts, hts, hv⟩ := hv
  obtain ⟨e, -, hparse, -⟩ := compute_eq_some_iff.mp hv
  exact hw (mem_names_of_parse? hparse (List.mem_append_left _ (h ts hts)))

theorem Typed.Touched.exists_cons {o : Operator} {p : Typed o} {b : List Char}
    (h : p.Touched b) : p.behind = [] ∧ ∃ c r, b = c :: r ∧ c.isAlphanum = true := by
  obtain ⟨-, c, hc, hname⟩ := h
  cases hbehind : p.behind with
  | nil =>
      rw [hbehind, List.nil_append] at hc
      obtain ⟨r, rfl⟩ := List.head?_eq_some_iff.mp hc
      exact ⟨rfl, c, r, rfl, hname⟩
  | cons d r =>
      rw [hbehind] at hc
      obtain rfl : d = c := Option.some.inj hc
      have hblank : isBlank d = true := p.behind_blank d (hbehind ▸ List.mem_cons_self)
      rw [(not_isAlphanum_of_isBlank hblank).2] at hname
      cases hname

/-- A letter that is touched from behind leaves no value. -/
theorem Typed.evaluate_of_touched {o : Operator} {p : Typed o} {a b : List Char} {ts : List Token}
    {x : Float} (ha : tokens? a = some ts) (hlast : ts.getLast? = some (.number x))
    (h : p.Touched b) : evaluate (a ++ p.text ++ b) = none := by
  obtain ⟨hbehind, e, r, rfl, he⟩ := h.exists_cons
  obtain ⟨c, hword, halpha, hlower, hnumeral, hstar⟩ := letter_cases h.1
  have htext : a ++ p.text ++ e :: r = (a ++ p.before) ++ c :: e :: r := by
    simp [text, hword, hbehind]
  have hfront : tokensAfter none (a ++ p.before) = some ts := by
    rw [tokensAfter_append_blanks p.before_blank]
    exact ha
  have hnumber : ts.getLast?.or none = some (.number x) := by rw [hlast]; rfl
  refine evaluate_eq_none_of_name (not_mem_names_of_letter
    (e.toLower :: (r.takeWhile Char.isAlphanum).map Char.toLower)) fun ts' hts' => ?_
  rw [htext, tokens?, tokensAfter_cut hnumeral (Or.inr ⟨ts, x, hfront, hnumber⟩)
    (fun heq => absurd heq hstar), hfront, Option.bind_some, hnumber,
    tokensAfter_cons_of_isAlpha halpha, List.takeWhile_cons_of_pos he, Option.map_map] at hts'
  obtain ⟨us, -, rfl⟩ := Option.map_eq_some_iff.mp hts'
  refine List.mem_append_right _ (List.mem_cons.mpr (Or.inl ?_))
  simp [Token.ofName, hlower]

/-- Nor does it have a running value. -/
theorem Typed.beforeOperator_of_touched {o : Operator} {p : Typed o} {a b : List Char}
    {ts : List Token} {x : Float} (ha : tokens? a = some ts)
    (hlast : ts.getLast? = some (.number x)) (h : p.Touched b) :
    beforeOperator (trim (a ++ p.text ++ b)) = none := by
  rw [Option.eq_none_iff_forall_ne_some]
  intro c hc
  obtain ⟨r, d, o', v, htrim, hd, hv, -⟩ := beforeOperator_eq_some hc
  obtain ⟨hbehind, e, b, rfl, he⟩ := h.exists_cons
  have hne : ¬ ∀ c ∈ e :: b, isBlank c = true := by
    intro hblank
    rw [(not_isAlphanum_of_isBlank (hblank e List.mem_cons_self)).2] at he
    cases he
  obtain ⟨b', d', ws, hb', hd', hws⟩ := exists_last hne
  rw [hb', ← List.append_assoc, trim_append_cons hd' hws] at htrim
  obtain ⟨rfl, hsame⟩ := List.append_inj' htrim rfl
  obtain rfl : d' = d := (List.cons.inj hsame).1
  -- The letter is touched by the same character as before.
  have htouched : p.Touched b' := by
    refine ⟨h.1, e, ?_, he⟩
    cases b' with
    | nil =>
        obtain rfl : e = d' := (List.cons.inj hb').1
        rw [(Token.of_ofChar?_eq_some hd).2.2] at he
        cases he
    | cons e' b' =>
        obtain rfl : e = e' := (List.cons.inj hb').1
        rw [hbehind]
        rfl
  rw [evaluate_eq, tokens?_trimStart, ← evaluate_eq,
    Typed.evaluate_of_touched ha hlast htouched] at hv
  cases hv

/-- The same spelling with a space behind it. -/
def Typed.setOff {o : Operator} (p : Typed o) : Typed o :=
  { p with behind := [' '], behind_blank := isBlank_of_mem_space }

/-- A letter that is set off is read as one. -/
theorem Typed.not_misread_setOff {o : Operator} (p : Typed o) (h : p.IsLetter) (b : List Char) :
    ¬ p.setOff.Misread b := by
  rintro (⟨-, c, hc, hname⟩ | ⟨hstars, -⟩)
  · obtain rfl : ' ' = c := Option.some.inj hc
    cases hname
  · have hletter : p.word ∈ letters := h
    rw [show p.word = ['*', '*'] from hstars] at hletter
    exact absurd hletter (by decide)

/-- What begins with a number begins with no letter. -/
theorem not_isAlpha_of_number {c : Char} {s : List Char} {us : List Token} {y : Float}
    (h : tokens? (c :: s) = some us) (hy : us.head? = some (.number y)) : c.isAlpha = false := by
  rw [Bool.eq_false_iff]
  intro halpha
  rw [tokens?, tokensAfter_cons_of_isAlpha halpha] at h
  obtain ⟨us, -, rfl⟩ := Option.map_eq_some_iff.mp h
  exact Token.ofName_ne_number _ _ _ (Option.some.inj hy)

/-- A blank makes no difference in front of what is no letter. -/
theorem LooksComputable.of_space {s r : List Char} (h : LooksComputable (s ++ ' ' :: r))
    (hr : ∀ c ∈ r.head?, c.isAlpha = false) : LooksComputable (s ++ r) := by
  have htake (s : List Char) :
      (s ++ ' ' :: r).takeWhile Char.isAlpha = (s ++ r).takeWhile Char.isAlpha := by
    rw [takeWhile_append_cons_of_neg (Or.inl rfl)]
    cases r with
    | nil => rw [List.append_nil]
    | cons c r => rw [takeWhile_append_cons_of_neg (Or.inl (hr c rfl))]
  have hword : firstWord (s ++ ' ' :: r) = firstWord (s ++ r) := by
    clear h
    induction s with
    | nil => exact firstWord_cons_of_not_isAlpha rfl r
    | cons c s ih =>
        by_cases hc : c.isAlpha = true
        · rw [List.cons_append, List.cons_append, firstWord_cons_of_isAlpha hc,
            firstWord_cons_of_isAlpha hc, htake]
        · rw [Bool.not_eq_true] at hc
          rw [List.cons_append, List.cons_append, firstWord_cons_of_not_isAlpha hc,
            firstWord_cons_of_not_isAlpha hc, ih]
  refine ⟨fun c hc => h.chars c ?_, hword ▸ h.word⟩
  rcases List.mem_append.mp hc with hc | hc
  · exact List.mem_append_left _ hc
  · exact List.mem_append_right _ (List.mem_cons_of_mem _ hc)

/-! ### Other spellings -/

/-- What makes a text one with an answer: its tokens have a value, or an operator stands behind
tokens that have one. -/
def HasValue (s : List Char) (v : Evaluation) : Prop :=
  (∃ ts, tokens? s = some ts ∧ compute ts = some v) ∨ RunsTo s v

theorem HasValue.looksComputable {s : List Char} {v : Evaluation} (h : HasValue s v) :
    LooksComputable (trim s) := by
  rcases h with ⟨ts, hts, hv⟩ | ⟨r, c, o, ts, htrim, hc, hts, hv⟩
  · exact looksComputable_of_compute (by rw [tokens?_trim, hts]) hv
  · rw [htrim]
    obtain ⟨htoken, halpha⟩ := of_announcesOperand (announcesOperand_iff.mpr ⟨o, hc⟩)
    refine (looksComputable_of_compute hts hv).append fun d hd => ?_
    obtain rfl := List.mem_singleton.mp hd
    exact ⟨htoken, halpha⟩

section

variable {o : Operator} {p q : Typed o} {a b : List Char} {ts us : List Token} {v : Evaluation}
  (ha : tokens? a = some ts) (hb : tokens? b = some us)
  (hletter : q.IsLetter → BetweenNumbers ts us)
include ha hb hletter

/-- Another spelling leaves the tokens with a value as they are. -/
theorem tokens?_respelled (hv : compute (ts ++ .operator o :: us) = some v)
    (htouched : ¬ q.Touched b) : tokens? (a ++ q.text ++ b) = some (ts ++ .operator o :: us) :=
  q.tokens?_eq ha hb (awaiting_of_compute hv) (fun h => (hletter h).1) htouched

/-- Another spelling leaves a running value as it is. -/
theorem runsTo_respelled (htokens : tokens? (a ++ p.text ++ b) = some (ts ++ .operator o :: us))
    (h : RunsTo (a ++ p.text ++ b) v) (hread : ¬ q.Misread b) : RunsTo (a ++ q.text ++ b) v := by
  rcases h.cases_typed htokens hb with
    ⟨rfl, hblank, hv⟩ | ⟨b', d, ws, us', o', rfl, hws, rfl, hd, hb', hv⟩
  · -- At the end only a sign of one character is left.
    have hone : ∃ c, q.word = [c] ∧ Token.ofChar? c = some (.operator o) := by
      rcases Operator.mem_spellings.mp q.spells with hsign | ⟨-, hword⟩
      · rcases Operator.sign_cases hsign with hone | ⟨hstars, -⟩
        · exact hone
        · exact absurd (Or.inr ⟨hstars, hblank⟩) hread
      · obtain ⟨-, y, hy⟩ := hletter hword
        cases hy
    obtain ⟨c, hword, hc⟩ := hone
    exact runsTo_operator ha hv q hword hc hblank
  · have hsign : isBlank d = false ∧ d.isAlphanum = false :=
      ⟨(Token.of_ofChar?_eq_some hd).1, (Token.of_ofChar?_eq_some hd).2.2⟩
    have htouched : ¬ q.Touched b' := by
      rintro ⟨hword, c, hc, hname⟩
      refine hread (Or.inl ⟨hword, c, ?_, hname⟩)
      rw [← List.append_assoc, List.head?_append, Option.mem_def.mp hc]
      rfl
    have hfirst : q.IsLetter → ∃ x, ts.getLast? = some (.number x) := fun h => (hletter h).1
    refine ⟨trimStart (a ++ q.text ++ b'), d, o', ts ++ .operator o :: us', ?_, hd, ?_, hv⟩
    · rw [← List.append_assoc, trim_append_cons hsign.1 hws]
    · rw [tokens?_trimStart]
      exact q.tokens?_eq ha hb' (awaiting_of_compute hv) hfirst htouched

/-- Another spelling leaves what makes a text one with an answer. -/
theorem hasValue_respelled
    (htokens : tokens? (a ++ p.text ++ b) = some (ts ++ .operator o :: us))
    (h : HasValue (a ++ p.text ++ b) v) (hread : ¬ q.Misread b) :
    HasValue (a ++ q.text ++ b) v := by
  rcases h with ⟨ts', hts', hv⟩ | hruns
  · rw [htokens] at hts'
    obtain rfl := Option.some.inj hts'
    exact Or.inl ⟨_, tokens?_respelled ha hb hletter hv fun h => hread (Or.inl h), hv⟩
  · exact Or.inr (runsTo_respelled ha hb hletter htokens hruns hread)

/-- A text with a letter that a digit touches is no percentage: with a space between them it has an
answer, and it looks the same. -/
theorem percentOf_of_touched
    (htokens : tokens? (a ++ p.text ++ b) = some (ts ++ .operator o :: us))
    (h : HasValue (a ++ p.text ++ b) v) (htouched : q.Touched b) :
    percentOf (trim (a ++ q.text ++ b)) = none := by
  obtain ⟨-, y, hy⟩ := hletter htouched.1
  obtain ⟨hbehind, e, r, rfl, -⟩ := htouched.exists_cons
  have halpha : e.isAlpha = false := not_isAlpha_of_number hb hy
  have hvalue : HasValue (a ++ q.setOff.text ++ e :: r) v :=
    hasValue_respelled ha hb hletter htokens h (q.not_misread_setOff htouched.1 _)
  have hspace : a ++ q.setOff.text ++ e :: r = (a ++ q.text) ++ ' ' :: e :: r := by
    simp [Typed.setOff, Typed.text, hbehind]
  have hlooks : LooksComputable ((a ++ q.text) ++ ' ' :: e :: r) := by
    rw [← hspace]
    exact looksComputable_trim.mp hvalue.looksComputable
  exact (looksComputable_trim.mpr (hlooks.of_space (by simpa using halpha))).percentOf_eq_none

/-- A letter that a digit touches leaves no answer. -/
theorem detect_of_touched
    (htokens : tokens? (a ++ p.text ++ b) = some (ts ++ .operator o :: us))
    (h : HasValue (a ++ p.text ++ b) v) (htouched : q.Touched b) :
    detect (a ++ q.text ++ b) = none := by
  obtain ⟨⟨x, hx⟩, -⟩ := hletter htouched.1
  have hpercent := percentOf_of_touched ha hb hletter htokens h htouched
  have hnone : evaluate (trim (a ++ q.text ++ b)) = none := by
    rw [evaluate_eq, tokens?_trim, ← evaluate_eq]
    exact Typed.evaluate_of_touched ha hx htouched
  simp only [detect, hpercent, hnone, Typed.beforeOperator_of_touched ha hx htouched]

end

/-- **Operators in other spellings.** In a text with an answer that is no percentage, every operator
is written somewhere. There it can be written in any other of its ways, with other blanks around it,
and between numbers also as a letter: the value is the same, and so is whether the text is complete.
A spelling that is misread leaves no answer. -/
theorem detect_respelled {s : List Char} {c : Calculation} (h : detect s = some c)
    (hpercent : percentOf (trim s) = none) {ts us : List Token} {o : Operator}
    (htokens : tokens? s = some (ts ++ .operator o :: us)) :
    (∃ a w b, s = a ++ w ++ b ∧ w ∈ o.spellings ∧ tokens? a = some ts ∧ tokens? b = some us) ∧
    ∀ {a b : List Char} (p q : Typed o), s = a ++ p.text ++ b → tokens? a = some ts →
      tokens? b = some us → (q.IsLetter → BetweenNumbers ts us) →
      (¬ q.Misread b → ∃ c', detect (a ++ q.text ++ b) = some c' ∧ c'.value = c.value ∧
        c'.isPartial = c.isPartial) ∧
      (q.Misread b → detect (a ++ q.text ++ b) = none) := by
  refine ⟨exists_spelling htokens, ?_⟩
  rintro a b p q rfl ha hb hletter
  have hcases := detect_cases h hpercent
  have hvalue : ∃ v, HasValue (a ++ p.text ++ b) v := by
    rcases hcases with ⟨ts', v, hts', hv, -⟩ | ⟨v, hruns, -⟩
    · exact ⟨v, Or.inl ⟨ts', hts', hv⟩⟩
    · exact ⟨v, Or.inr hruns⟩
  obtain ⟨v, hvalue⟩ := hvalue
  constructor
  · intro hread
    rcases hcases with ⟨ts', v, hts', hv, hoperation, hfinite, hc⟩ | ⟨v, hruns, hfinite, hc⟩
    · rw [htokens] at hts'
      obtain rfl := Option.some.inj hts'
      have hq := tokens?_respelled ha hb hletter hv fun h => hread (Or.inl h)
      obtain ⟨c', hc', hsame⟩ := detect_of_compute hq hv hoperation hfinite
      exact ⟨c', hc', hsame.1.trans hc.1.symm, hsame.2.trans hc.2.symm⟩
    · have hq := runsTo_respelled ha hb hletter htokens hruns hread
      obtain ⟨c', hc', hsame⟩ := detect_of_running hq hfinite
      exact ⟨c', hc', hsame.1.trans hc.1.symm, hsame.2.trans hc.2.symm⟩
  · rintro (htouched | ⟨hstars, hblank⟩)
    · exact detect_of_touched ha hb hletter htokens hvalue htouched
    · -- Behind the stars there is nothing, so the value is that of what stands before them.
      obtain rfl : us = [] := by
        rw [tokens?, tokensAfter_of_isBlank hblank] at hb
        exact (Option.some.inj hb).symm
      obtain rfl : o = .power := by
        rcases Operator.mem_spellings.mp q.spells with hsign | ⟨-, hword⟩
        · rcases Operator.sign_cases hsign with ⟨c, hword, -⟩ | ⟨-, ho⟩
          · rw [hword] at hstars
            cases hstars
          · exact ho
        · rw [hstars] at hword
          exact absurd hword (by decide)
      rcases hvalue with ⟨ts', hts', hv⟩ | hruns
      · rw [htokens] at hts'
        obtain rfl := Option.some.inj hts'
        rw [compute_concat_operator] at hv
        cases hv
      · rcases hruns.cases_typed htokens hb with ⟨-, -, hv⟩ | ⟨_, _, _, us', _, -, -, hnil, -⟩
        · exact detect_stars ha hv hstars hblank
        · cases us' <;> cases hnil

/-- A spelling with nothing around it. -/
def Typed.bare {o : Operator} {w : List Char} (h : w ∈ o.spellings) : Typed o :=
  ⟨[], w, [], h, isBlank_of_mem_nil, isBlank_of_mem_nil⟩

/-- A spelling with a space on either side. -/
def Typed.spaced {o : Operator} {w : List Char} (h : w ∈ o.spellings) : Typed o :=
  ⟨[' '], w, [' '], h, isBlank_of_mem_space, isBlank_of_mem_space⟩

/-- A star between digits, written as a letter with spaces around it and with nothing around it. -/
theorem detect_respelled_star :
    (∃ a w b, "2*3".toList = a ++ w ++ b ∧ w ∈ Operator.times.spellings ∧
      tokens? a = some [.number 2] ∧ tokens? b = some [.number 3]) ∧
    (∃ c, detect "2 x 3".toList = some c ∧ c.value = 2 * 3 ∧ c.isPartial = false) ∧
    detect "2x3".toList = none := by
  have hstar : ['*'] ∈ Operator.times.spellings := by decide
  have hx : ['x'] ∈ Operator.times.spellings := by decide
  have htwo : tokens? "2".toList = some [.number 2] := by decide +kernel
  have hthree : tokens? "3".toList = some [.number 3] := by decide +kernel
  have htokens : tokens? "2*3".toList = some ([.number 2] ++ .operator .times :: [.number 3]) := by
    decide +kernel
  have hvalue : compute ([.number 2] ++ .operator .times :: [.number 3]) = some ⟨2 * 3, true, 0⟩ :=
    rfl
  have hfinite : (2 * 3 : Float).isFinite = true := by decide +kernel
  have hpercent : percentOf (trim "2*3".toList) = none := by decide +kernel
  obtain ⟨c, hc, hproduct, hwhole⟩ := detect_of_compute htokens hvalue rfl hfinite
  have hnumbers : BetweenNumbers [.number 2] [.number 3] := ⟨⟨2, rfl⟩, 3, rfl⟩
  obtain ⟨hwritten, hrespelled⟩ := detect_respelled hc hpercent htokens
  refine ⟨hwritten, ?_, ?_⟩
  · have hread : ¬ (Typed.spaced hx).Misread "3".toList := by
      rintro (⟨-, d, hd, hname⟩ | ⟨hword, -⟩)
      · obtain rfl : ' ' = d := Option.some.inj hd
        cases hname
      · cases hword
    obtain ⟨c', hc', hsame, hpartial⟩ :=
      (hrespelled (a := "2".toList) (b := "3".toList) (.bare hstar) (.spaced hx) rfl htwo hthree
        fun _ => hnumbers).1 hread
    exact ⟨c', hc', hsame.trans hproduct, hpartial.trans hwhole⟩
  · have hletter : ['x'] ∈ letters := by decide
    have htouched : (Typed.bare hx).Touched "3".toList := ⟨hletter, '3', rfl, rfl⟩
    exact (hrespelled (a := "2".toList) (b := "3".toList) (.bare hstar) (.bare hx) rfl htwo hthree
      fun _ => hnumbers).2 (Or.inl htouched)

end Composer.Arithmetic
