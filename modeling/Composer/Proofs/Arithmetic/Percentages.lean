import Composer.Proofs.Arithmetic.Answers
import Composer.Proofs.Text.Phrase
/-!
# Composer.Proofs.Arithmetic.Percentages

**The two parts of a percentage.** What stands before the base of a percentage is read in the same
way whatever the base is (`Percentage.percentOf_append`), and every percentage has such a front
(`exists_percentage`). There is no parenthesis in it.
-/

namespace Composer.Arithmetic

open Text

/-- What stands before the base of a percentage. -/
structure Percentage where
  /-- A minus sign or nothing. -/
  sign : List Char
  /-- The numeral. -/
  digits : List Char
  /-- The blanks before the sign of per cent. -/
  before : List Char
  /-- The blanks behind it. -/
  behind : List Char
  /-- The word *of* in some letter case. -/
  word : List Char
  /-- The blanks before the base. -/
  gap : List Char
  /-- No other sign stands there. -/
  sign_eq : sign = [] ∨ sign = ['-']
  /-- The numeral is one. -/
  isNumeral : IsNumeral 1 digits.length digits
  /-- Nothing but blanks stands before the sign. -/
  before_blank : ∀ c ∈ before, isBlank c = true
  /-- Nothing but blanks stands behind the sign. -/
  behind_blank : ∀ c ∈ behind, isBlank c = true
  /-- The word is that one. -/
  fold_word : word.map fold = "of".toList
  /-- Nothing but blanks stands before the base. -/
  gap_blank : ∀ c ∈ gap, isBlank c = true
  /-- There is a blank. -/
  gap_ne_nil : gap ≠ []

namespace Percentage

/-- The text of the percentage. -/
def percent (q : Percentage) : List Char :=
  q.sign ++ q.digits

/-- Everything before the base. -/
def text (q : Percentage) : List Char :=
  q.percent ++ q.before ++ '%' :: q.behind ++ q.word ++ q.gap

end Percentage

/-! ### Reading the front -/

/-- What is read behind the numeral. -/
def ofBase (percent : List Char) : Reading (List Char × List Char) :=
  maybeBlanks <| Text.char '%' <| maybeBlanks <| keyword "of" <|
    blanks <| lineToEnd fun base => some (percent, base)

theorem percentOf_minus (s : List Char) :
    percentOf ('-' :: s) = numeral 1 s.length (fun ds => ofBase ('-' :: ds)) s := rfl

theorem percentOf_of_ne {s : List Char} (h : s.head? ≠ some '-') :
    percentOf s = numeral 1 s.length ofBase s := by
  unfold percentOf
  split
  next sign r heq =>
    split at heq
    · exact absurd rfl h
    · obtain ⟨rfl, rfl⟩ := Prod.mk.inj heq
      rfl

namespace Percentage

variable (q : Percentage)

theorem exists_word_cons : ∃ c w, q.word = c :: w ∧ isBlank c = false := by
  have hfold := q.fold_word
  cases hword : q.word with
  | nil =>
      rw [hword] at hfold
      cases hfold
  | cons c w =>
      refine ⟨c, w, rfl, ?_⟩
      rw [hword, List.map_cons] at hfold
      have hc : fold c = 'o' := (List.cons.inj hfold).1
      rw [Bool.eq_false_iff]
      intro hblank
      rw [fold_of_isBlank hblank] at hc
      rw [hc] at hblank
      cases hblank

theorem ofBase_append (percent : List Char) {c : Char} (hc : isBlank c = false) {r : List Char}
    (hline : '\n' ∉ c :: r) :
    ofBase percent (q.before ++ '%' :: (q.behind ++ (q.word ++ (q.gap ++ c :: r)))) =
      some (percent, c :: r) := by
  have hgap : ∀ d ∈ (c :: r).head?, isBlank d = false := by
    intro d hd
    obtain rfl := Option.some.inj hd
    exact hc
  have hbase : lineToEnd (fun base => some (percent, base)) (c :: r) = some (percent, c :: r) :=
    lineToEnd_of_not_mem hline
  have hword : keyword "of" (blanks (lineToEnd fun base => some (percent, base)))
      (q.word ++ (q.gap ++ c :: r)) = some (percent, c :: r) := by
    rw [keyword_append q.fold_word,
      blanks_append q.gap_blank q.gap_ne_nil hgap (Or.inr (by rw [hbase]; rfl)), hbase]
  obtain ⟨d, w, hd, hblank⟩ := q.exists_word_cons
  rw [hd, List.cons_append] at hword ⊢
  rw [ofBase, maybeBlanks_append q.before_blank (skipsNoBlank_char rfl _) rfl, char_cons,
    maybeBlanks_append q.behind_blank (skipsNoBlank_keyword rfl rfl _) hblank, hword]

/-- A numeral ends before the blanks and the sign of per cent. -/
theorem exists_before_cons (r : List Char) : ∃ d r', q.before ++ '%' :: r = d :: r' ∧
    isDecimalDigit d = false ∧ d ≠ '.' := by
  cases hbefore : q.before with
  | nil => exact ⟨'%', r, rfl, rfl, by decide⟩
  | cons d ws =>
      have hd : isBlank d = true := q.before_blank d (hbefore ▸ List.mem_cons_self)
      refine ⟨d, ws ++ '%' :: r, rfl, isDecimalDigit_of_isBlank hd, ?_⟩
      rintro rfl
      cases hd

/-- The front is read in the same way whatever the base is. -/
theorem percentOf_append {c : Char} (hc : isBlank c = false) {r : List Char}
    (hline : '\n' ∉ c :: r) : percentOf (q.text ++ c :: r) = some (q.percent, c :: r) := by
  have hread (k : List Char → Reading (List Char × List Char)) (n : Nat) (hn : q.digits.length ≤ n)
      (rest : List Char) : numeral 1 n k (q.digits ++ (q.before ++ '%' :: rest)) =
        k q.digits (q.before ++ '%' :: rest) := by
    obtain ⟨d, r', hd, hdigit, hpoint⟩ := q.exists_before_cons rest
    rw [hd, numeral_append (q.isNumeral.of_length_le hn) hdigit hpoint]
  have htext : q.text ++ c :: r =
      q.sign ++ (q.digits ++ (q.before ++ '%' :: (q.behind ++ (q.word ++ (q.gap ++ c :: r))))) := by
    simp [text, percent]
  rw [htext, percent]
  rcases q.sign_eq with hsign | hsign
  · have hhead : (q.digits ++
        (q.before ++ '%' :: (q.behind ++ (q.word ++ (q.gap ++ c :: r))))).head? ≠ some '-' := by
      obtain ⟨d, ds, hdigits, hd⟩ := q.isNumeral.exists_cons Nat.one_pos
      rw [hdigits]
      rintro hminus
      obtain rfl : d = '-' := Option.some.inj hminus
      cases hd
    rw [hsign, List.nil_append, List.nil_append, percentOf_of_ne hhead, hread _ _ (by simp),
      q.ofBase_append _ hc hline]
  · rw [hsign, List.singleton_append, List.singleton_append, percentOf_minus,
      hread _ _ (by simp), q.ofBase_append _ hc hline]

/-- The characters of the front. -/
theorem of_mem_text {c : Char} (h : c ∈ q.text) :
    c = '-' ∨ c = '%' ∨ inNumber c = true ∨ isBlank c = true ∨ fold c ∈ "of".toList := by
  simp only [text, percent, List.mem_append, List.mem_cons] at h
  rcases h with ((((h | h) | h) | (h | h)) | h) | h
  · rcases q.sign_eq with hsign | hsign
    · rw [hsign] at h
      cases h
    · rw [hsign] at h
      exact Or.inl (List.mem_singleton.mp h)
  · exact Or.inr (Or.inr (Or.inl (q.isNumeral.inNumber c h)))
  · exact Or.inr (Or.inr (Or.inr (Or.inl (q.before_blank c h))))
  · exact Or.inr (Or.inl h)
  · exact Or.inr (Or.inr (Or.inr (Or.inl (q.behind_blank c h))))
  · exact Or.inr (Or.inr (Or.inr (Or.inr (q.fold_word ▸ List.mem_map_of_mem h))))
  · exact Or.inr (Or.inr (Or.inr (Or.inl (q.gap_blank c h))))

/-- No parenthesis is among them. -/
theorem not_mem_text {c : Char} (h : isParen c = true) : c ∉ q.text := by
  simp only [isParen, Bool.or_eq_true, decide_eq_true_eq] at h
  have hkinds : c ≠ '-' ∧ c ≠ '%' ∧ inNumber c = false ∧ isBlank c = false ∧
      fold c ∉ "of".toList := by
    rcases h with rfl | rfl <;> exact ⟨by decide, by decide, rfl, rfl, by decide⟩
  obtain ⟨hminus, hsign, hnumber, hblank, hword⟩ := hkinds
  intro hmem
  rcases q.of_mem_text hmem with h | h | h | h | h
  · exact hminus h
  · exact hsign h
  · rw [hnumber] at h
    cases h
  · rw [hblank] at h
    cases h
  · exact hword h

/-- Whatever stands behind a parenthesis belongs to the base. -/
theorem suffix_of_isParen {c : Char} (hc : isParen c = true) {base l r : List Char}
    (h : q.text ++ base = l ++ c :: r) : c :: r <:+ base := by
  rcases List.append_eq_append_iff.mp h with ⟨m, -, hbase⟩ | ⟨m, htext, hrest⟩
  · exact ⟨m, hbase.symm⟩
  · cases m with
    | nil => exact ⟨[], hrest⟩
    | cons d m =>
        obtain ⟨rfl, -⟩ := List.cons.inj hrest
        exact absurd (htext ▸ List.mem_append_right l List.mem_cons_self) (q.not_mem_text hc)

end Percentage

/-! ### The front of every percentage -/

/-- What is read behind a numeral is the rest of a front and the base. -/
theorem ofBase_eq_some {percent s p base : List Char} (h : ofBase percent s = some (p, base))
    (hlast : ∀ c ∈ s.getLast?, isBlank c = false) :
    ∃ before behind word gap c r, s = before ++ '%' :: behind ++ word ++ gap ++ c :: r ∧
      (∀ d ∈ before, isBlank d = true) ∧ (∀ d ∈ behind, isBlank d = true) ∧
      word.map fold = "of".toList ∧ (∀ d ∈ gap, isBlank d = true) ∧ gap ≠ [] ∧
      isBlank c = false ∧ '\n' ∉ c :: r ∧ p = percent ∧ base = c :: r := by
  rw [ofBase] at h
  obtain ⟨before, s₁, hbefore, rfl, hsign⟩ := maybeBlanks_eq_some h
  obtain ⟨s₂, rfl, hbehindSign⟩ := char_eq_some hsign
  obtain ⟨behind, s₃, hbehind, rfl, hof⟩ := maybeBlanks_eq_some hbehindSign
  obtain ⟨word, s₄, rfl, hword, hbase⟩ := keyword_eq_some hof
  have hend : ∀ c ∈ s₄.getLast?, isBlank c = false := by
    intro c hc
    have hs : before ++ '%' :: (behind ++ (word ++ s₄)) =
        (before ++ '%' :: (behind ++ word)) ++ s₄ := by
      simp
    refine hlast c ?_
    rw [hs, List.getLast?_append, Option.mem_def.mp hc]
    rfl
  obtain ⟨gap, c, r, hgap, hne, rfl, hc, hline, heq⟩ := blanks_lineToEnd_eq_some hbase hend
  obtain ⟨rfl, rfl⟩ := Prod.mk.inj heq
  exact ⟨before, behind, word, gap, c, r, by simp, hbefore, hbehind, hword, hgap, hne, hc, hline,
    rfl, rfl⟩

/-- Every percentage that does not end in a blank is a front and a base. -/
theorem exists_percentage {s p base : List Char} (h : percentOf s = some (p, base))
    (hlast : ∀ c ∈ s.getLast?, isBlank c = false) :
    ∃ (q : Percentage) (c : Char) (r : List Char), q.percent = p ∧ base = c :: r ∧
      s = q.text ++ c :: r ∧ isBlank c = false ∧ '\n' ∉ c :: r := by
  -- The numeral stands behind a minus sign or at the beginning.
  obtain ⟨sign, s', hs, hsign, hnumeral⟩ : ∃ sign s', s = sign ++ s' ∧
      (sign = [] ∨ sign = ['-']) ∧
      numeral 1 s'.length (fun ds => ofBase (sign ++ ds)) s' = some (p, base) := by
    by_cases hminus : s.head? = some '-'
    · obtain ⟨s', rfl⟩ := List.head?_eq_some_iff.mp hminus
      exact ⟨['-'], s', rfl, Or.inr rfl, h⟩
    · rw [percentOf_of_ne hminus] at h
      exact ⟨[], s, rfl, Or.inl rfl, h⟩
  obtain ⟨ds, rest, rfl, hds, hrest⟩ := numeral_eq_some hnumeral
  have hend : ∀ c ∈ rest.getLast?, isBlank c = false := by
    intro c hc
    refine hlast c ?_
    rw [hs, ← List.append_assoc, List.getLast?_append, Option.mem_def.mp hc]
    rfl
  obtain ⟨before, behind, word, gap, c, r, rfl, hbefore, hbehind, hword, hgap, hne, hc, hline,
    rfl, rfl⟩ := ofBase_eq_some hrest hend
  refine ⟨⟨sign, ds, before, behind, word, gap, hsign, hds.of_length_le le_rfl, hbefore, hbehind,
    hword, hgap, hne⟩, c, r, rfl, rfl, ?_, hc, hline⟩
  rw [hs]
  simp [Percentage.text, Percentage.percent]

/-! ### Answers -/

section

variable {s p base : List Char} (h : percentOf (trim s) = some (p, base))
include h

theorem detect_percentage_eq_some {a : Calculation} (ha : detect s = some a) :
    ∃ x v, Decimal.ofText? p = some x ∧ evaluate base = some v ∧
      (x / 100 * v.value).isFinite = true ∧ a.value = x / 100 * v.value ∧ a.isPartial = false := by
  simp only [detect, h, Option.bind_eq_bind, Option.bind_eq_some_iff] at ha
  obtain ⟨x, hx, v, hv, ha⟩ := ha
  exact ⟨x, v, hx, hv, Calculation.of?_eq_some ha⟩

theorem detect_of_percentage {x : Float} {v : Evaluation} (hx : Decimal.ofText? p = some x)
    (hv : evaluate base = some v) (hfinite : (x / 100 * v.value).isFinite = true) :
    ∃ a, detect s = some a ∧ a.value = x / 100 * v.value ∧ a.isPartial = false := by
  simp only [detect, h, hx, hv]
  exact Calculation.exists_of? hfinite _ _

end

end Composer.Arithmetic
