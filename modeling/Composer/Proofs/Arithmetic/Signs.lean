import Composer.Proofs.Arithmetic.Pieces
/-!
# Composer.Proofs.Arithmetic.Signs

**The signs of a text and their tokens.** A parenthesis is a token wherever it stands, so the
tokens have the parentheses of the text in the same order (`filterMap_paren?`). A star at the end of
a text is an operator at the end of its tokens.
-/

namespace Composer.Arithmetic

open Text

/-! ### Parentheses -/

/-- A parenthesis. -/
def isParen (c : Char) : Bool :=
  c = '(' || c = ')'

/-- The character of the token of a parenthesis. -/
def Token.paren? : Token → Option Char
  | opening => some '('
  | closing => some ')'
  | _ => none

theorem Token.paren?_of_ofChar? {c : Char} {t : Token} (h : ofChar? c = some t) :
    t.paren? = if isParen c then some c else none := by
  unfold ofChar? at h
  split at h
  all_goals first | cases h; done | (obtain rfl := Option.some.inj h; rfl)

theorem Token.paren?_ofName (last : Option Token) (w : List Char) :
    (ofName last w).paren? = none := by
  unfold ofName
  split <;> rfl

/-- No parenthesis is lost with characters of other kinds. -/
theorem filter_isParen_dropWhile {p : Char → Bool} (hopening : p '(' = false)
    (hclosing : p ')' = false) (s : List Char) :
    (s.dropWhile p).filter isParen = s.filter isParen := by
  have htaken : (s.takeWhile p).filter isParen = [] := by
    rw [List.filter_eq_nil_iff]
    intro c hc hparen
    have hpc : p c = true := List.mem_takeWhile_imp hc
    simp only [isParen, Bool.or_eq_true, decide_eq_true_eq] at hparen
    rcases hparen with rfl | rfl
    · rw [hopening] at hpc
      cases hpc
    · rw [hclosing] at hpc
      cases hpc
  calc (s.dropWhile p).filter isParen
      = (s.takeWhile p ++ s.dropWhile p).filter isParen := by
        rw [List.filter_append, htaken, List.nil_append]
    _ = s.filter isParen := by rw [List.takeWhile_append_dropWhile]

/-- A parenthesis is no blank and stands in no numeral and no name. -/
theorem of_isParen {c : Char} (h : isParen c = true) :
    isBlank c = false ∧ inNumeral c = false ∧ c.isAlphanum = false ∧ c ≠ '*' := by
  simp only [isParen, Bool.or_eq_true, decide_eq_true_eq] at h
  rcases h with rfl | rfl <;> decide

/-- **The parentheses of a text are those of its tokens.** -/
theorem filterMap_paren? {last : Option Token} {s : List Char} {ts : List Token}
    (h : tokensAfter last s = some ts) : ts.filterMap Token.paren? = s.filter isParen := by
  have hother {c : Char} (hc : isBlank c = true ∨ inNumeral c = true ∨ c.isAlphanum = true ∨
      c = '*') : ¬ isParen c = true := by
    intro hparen
    obtain ⟨hblank, hnumeral, hname, hstar⟩ := of_isParen hparen
    simp [hblank, hnumeral, hname, hstar] at hc
  fun_induction tokensAfter last s generalizing ts with
  | case1 =>
      cases h
      rfl
  | case2 last c s hc ih =>
      rw [ih h, List.filter_cons_of_neg (hother (Or.inl hc))]
  | case3 | case7 => cases h
  | case4 last c s _ hc x _ _ ih =>
      obtain ⟨ts, hts, rfl⟩ := Option.map_eq_some_iff.mp h
      have hnumeral : inNumeral c = true := by rw [inNumeral, hc, Bool.true_or]
      rw [List.filterMap_cons_none rfl, ih hts, filter_isParen_dropWhile rfl rfl,
        List.filter_cons_of_neg (hother (Or.inr (Or.inl hnumeral)))]
  | case5 last c s _ _ hc w t _ =>
      rename_i ih
      obtain ⟨ts, hts, rfl⟩ := Option.map_eq_some_iff.mp h
      have hname : c.isAlphanum = true := by rw [Char.isAlphanum, hc, Bool.true_or]
      rw [List.filterMap_cons_none (Token.paren?_ofName _ _), ih hts,
        filter_isParen_dropWhile rfl rfl,
        List.filter_cons_of_neg (hother (Or.inr (Or.inr (Or.inl hname))))]
  | case6 last c s _ _ _ hstars ih =>
      obtain ⟨ts, hts, rfl⟩ := Option.map_eq_some_iff.mp h
      obtain ⟨rfl, hhead⟩ := hstars
      obtain ⟨s, rfl⟩ := List.head?_eq_some_iff.mp hhead
      rw [List.filterMap_cons_none rfl, ih hts]
      rfl
  | case8 last c s _ _ _ _ t ht ih =>
      obtain ⟨ts, hts, rfl⟩ := Option.map_eq_some_iff.mp h
      rw [List.filterMap_cons, Token.paren?_of_ofChar? ht, List.filter_cons, ih hts]
      cases isParen c <;> rfl

/-- So they are as many on both sides. -/
theorem count_opening {s : List Char} {ts : List Token} (h : tokens? s = some ts) :
    ts.count .opening = s.count '(' := by
  have htokens : ts.count .opening = (ts.filterMap Token.paren?).count '(' := by
    rw [List.count_filterMap, List.count_eq_countP]
    refine List.countP_congr fun t _ => ?_
    cases t <;> simp [Token.paren?]
  rw [htokens, filterMap_paren? h, List.count_filter rfl]

theorem count_closing {s : List Char} {ts : List Token} (h : tokens? s = some ts) :
    ts.count .closing = s.count ')' := by
  have htokens : ts.count .closing = (ts.filterMap Token.paren?).count ')' := by
    rw [List.count_filterMap, List.count_eq_countP]
    refine List.countP_congr fun t _ => ?_
    cases t <;> simp [Token.paren?]
  rw [htokens, filterMap_paren? h, List.count_filter rfl]

/-! ### Stars -/

theorem star_suffix_dropWhile {p : Char → Bool} (hp : p '*' = false) {s : List Char}
    (h : ['*'] <:+ s) : ['*'] <:+ s.dropWhile p := by
  obtain ⟨r, rfl⟩ := h
  rw [dropWhile_append_cons_of_neg (Or.inl hp)]
  exact List.suffix_append _ _

/-- A star at the end of a text is an operator at the end of its tokens. -/
theorem exists_operator_of_star {last : Option Token} {s : List Char} {ts : List Token}
    (h : tokensAfter last s = some ts) (hstar : ['*'] <:+ s) :
    ∃ us o, ts = us ++ [.operator o] := by
  have hcons {t : Token} {ts : List Token} :
      (∃ us o, ts = us ++ [.operator o]) → ∃ us o, t :: ts = us ++ [.operator o] :=
    fun ⟨us, o, hus⟩ => ⟨t :: us, o, congrArg (t :: ·) hus⟩
  -- The star is the last character of the first token, or it stands behind it.
  have hbehind {c : Char} {s : List Char} (hc : c ≠ '*') (hs : ['*'] <:+ c :: s) : ['*'] <:+ s :=
    (List.suffix_cons_iff.mp hs).resolve_left fun heq => hc (List.cons.inj heq).1.symm
  fun_induction tokensAfter last s generalizing ts with
  | case1 => simp at hstar
  | case2 last c s hc ih =>
      refine ih h (hbehind ?_ hstar)
      rintro rfl
      cases hc
  | case3 | case7 => cases h
  | case4 last c s _ hc x _ _ ih =>
      obtain ⟨ts, hts, rfl⟩ := Option.map_eq_some_iff.mp h
      refine hcons (ih hts (star_suffix_dropWhile rfl (hbehind ?_ hstar)))
      rintro rfl
      cases hc
  | case5 last c s _ _ hc w t _ =>
      rename_i ih
      obtain ⟨ts, hts, rfl⟩ := Option.map_eq_some_iff.mp h
      refine hcons (ih hts (star_suffix_dropWhile rfl (hbehind ?_ hstar)))
      rintro rfl
      cases hc
  | case6 last c s _ _ _ hstars ih =>
      obtain ⟨ts, hts, rfl⟩ := Option.map_eq_some_iff.mp h
      obtain ⟨rfl, hhead⟩ := hstars
      obtain ⟨s, rfl⟩ := List.head?_eq_some_iff.mp hhead
      cases s with
      | nil =>
          rw [List.drop_one, List.tail_cons, tokensAfter] at hts
          cases hts
          exact ⟨[], .power, rfl⟩
      | cons d s =>
          refine hcons (ih hts ?_)
          have htail := (List.suffix_cons_iff.mp hstar).resolve_left (by simp)
          exact (List.suffix_cons_iff.mp htail).resolve_left (by simp)
  | case8 last c s _ _ _ _ t ht ih =>
      obtain ⟨ts, hts, rfl⟩ := Option.map_eq_some_iff.mp h
      rcases List.suffix_cons_iff.mp hstar with heq | hs
      · obtain ⟨rfl, rfl⟩ := List.cons.inj heq
        rw [tokensAfter] at hts
        cases hts
        cases ht
        exact ⟨[], .times, rfl⟩
      · exact hcons (ih hts hs)

end Composer.Arithmetic
