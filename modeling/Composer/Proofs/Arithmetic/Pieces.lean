import Composer.Proofs.Arithmetic.Words
import Composer.Proofs.Text.Reading
import Composer.Proofs.Text.Trim
/-!
# Composer.Proofs.Arithmetic.Pieces

**The tokens of texts put together.** The characters are read from left to right, and of all the
tokens before only the last one is remembered, and only to tell what a lone letter *x* means. So a
text can be cut before every character that lets no token go on: the tokens are those of the first
piece and those of the second one behind the last token of the first (`tokensAfter_cut`).
-/

namespace Composer.Arithmetic

open Text

/-! ### The last token -/

/-- The last token counts only for the meaning of a name. -/
theorem tokensAfter_congr {last last' : Option Token} (h : Token.ofName last = Token.ofName last')
    (s : List Char) : tokensAfter last s = tokensAfter last' s := by
  induction s with
  | nil => simp only [tokensAfter]
  | cons c s ih => simp only [tokensAfter, ih, h]

/-- Only behind a number and behind a closing parenthesis a name can be an operator. -/
theorem Token.ofName_some {t : Token} (hclosing : t ≠ .closing) (hnumber : ∀ x, t ≠ .number x) :
    Token.ofName (some t) = Token.ofName none := by
  funext w
  rw [@Token.ofName_of_name none (by simp)]
  unfold Token.ofName
  split
  · next heq => exact absurd (Option.some.inj heq) (hnumber _)
  · next heq => exact absurd (Option.some.inj heq) hclosing
  · rfl

@[simp] theorem tokensAfter_opening (s : List Char) :
    tokensAfter (some .opening) s = tokens? s :=
  tokensAfter_congr (Token.ofName_some (by simp) (by simp)) s

@[simp] theorem tokensAfter_operator (o : Operator) (s : List Char) :
    tokensAfter (some (.operator o)) s = tokens? s :=
  tokensAfter_congr (Token.ofName_some (by simp) (by simp)) s

/-! ### One token -/

theorem tokensAfter_cons_of_isBlank {c : Char} (h : isBlank c = true) (last : Option Token)
    (s : List Char) : tokensAfter last (c :: s) = tokensAfter last s := by
  rw [tokensAfter, if_pos h]

theorem tokensAfter_cons_of_numeral {c : Char} (hblank : isBlank c = false)
    (h : (c.isDigit || c = '.') = true) (last : Option Token) (s : List Char) :
    tokensAfter last (c :: s) =
      (Decimal.ofText? ((c :: s.takeWhile inNumeral).filter (· ≠ ','))).bind fun x =>
        (tokensAfter (some (.number x)) (s.dropWhile inNumeral)).map (.number x :: ·) := by
  rw [tokensAfter, if_neg (by simp [hblank]), if_pos h]
  cases Decimal.ofText? ((c :: s.takeWhile inNumeral).filter (· ≠ ',')) <;> rfl

theorem tokensAfter_stars (last : Option Token) (s : List Char) :
    tokensAfter last ('*' :: '*' :: s) =
      (tokensAfter (some (.operator .power)) s).map (.operator .power :: ·) := by
  rw [tokensAfter, if_neg (by decide), if_neg (by decide), if_neg (by decide), if_pos ⟨rfl, rfl⟩]
  rfl

theorem tokensAfter_cons_of_ofChar? {c : Char} (hblank : isBlank c = false)
    (hnumeral : (c.isDigit || c = '.') = false) (halpha : c.isAlpha = false) {s : List Char}
    (hstars : ¬ (c = '*' ∧ s.head? = some '*')) (last : Option Token) :
    tokensAfter last (c :: s) =
      (Token.ofChar? c).bind fun t => (tokensAfter (some t) s).map (t :: ·) := by
  rw [tokensAfter, if_neg (by simp [hblank]), if_neg (by simpa using hnumeral),
    if_neg (by simp [halpha]), if_neg hstars]
  cases Token.ofChar? c <;> rfl

/-- A character with a token of its own is no blank and belongs to no numeral and to no name. -/
theorem Token.of_ofChar?_eq_some {c : Char} {t : Token} (h : Token.ofChar? c = some t) :
    isBlank c = false ∧ inNumeral c = false ∧ c.isAlphanum = false := by
  unfold Token.ofChar? at h
  split at h
  all_goals first | cases h; done | decide

/-- A sign that is no star is a token whatever stands behind it. -/
theorem tokensAfter_cons_of_sign {c : Char} {t : Token} (h : Token.ofChar? c = some t)
    (hstar : c ≠ '*') (last : Option Token) (s : List Char) :
    tokensAfter last (c :: s) = (tokensAfter (some t) s).map (t :: ·) := by
  obtain ⟨hblank, hnumeral, hname⟩ := Token.of_ofChar?_eq_some h
  rw [tokensAfter_cons_of_ofChar? hblank (Bool.or_eq_false_iff.mp hnumeral).1
    (Bool.or_eq_false_iff.mp hname).1 fun hand => hstar hand.1, h]
  rfl

theorem tokensAfter_cons_eq_tokens? {c : Char} {t : Token} (h : Token.ofChar? c = some t)
    (hstar : c ≠ '*') (last : Option Token) (s : List Char) :
    tokensAfter last (c :: s) = tokens? (c :: s) := by
  rw [tokens?, tokensAfter_cons_of_sign h hstar, tokensAfter_cons_of_sign h hstar]

theorem isAlphanum_toLower (c : Char) : c.toLower.isAlphanum = c.isAlphanum :=
  toLower_induction (P := fun c d => d.isAlphanum = c.isAlphanum) (fun _ => rfl) (by decide) c

/-- A name alone. -/
theorem tokens?_of_name {c : Char} {s : List Char} (hc : c.isAlpha = true)
    (hs : ∀ d ∈ s, d.isAlphanum = true) :
    tokens? (c :: s) = some [Token.ofName none ((c :: s).map Char.toLower)] := by
  have htake : s.takeWhile Char.isAlphanum = s := List.takeWhile_eq_self_iff.mpr hs
  have hdrop : s.dropWhile Char.isAlphanum = [] := List.dropWhile_eq_nil_iff.mpr hs
  rw [tokens?, tokensAfter_cons_of_isAlpha hc, htake, hdrop, tokensAfter]
  rfl

/-! ### Texts put together -/

/-- One more token in front of the first piece. -/
theorem map_cons_bind_append (t : Token) (last : Option Token) (first : Option (List Token))
    (second : Option Token → Option (List Token)) :
    (first.bind fun ts => (second (ts.getLast?.or (some t))).map (ts ++ ·)).map (t :: ·) =
      (first.map (t :: ·)).bind fun ts => (second (ts.getLast?.or last)).map (ts ++ ·) := by
  cases first with
  | none => rfl
  | some ts =>
      have hlast : (t :: ts).getLast?.or last = ts.getLast?.or (some t) := by
        rw [List.getLast?_cons]
        cases ts.getLast? <;> rfl
      simp only [Option.bind_some, Option.map_some, hlast, Option.map_map, Function.comp_def,
        List.cons_append]

/-- The last token of a text behind the token `last` is a number. -/
def EndsInNumber (last : Option Token) (s : List Char) : Prop :=
  ∃ ts x, tokensAfter last s = some ts ∧ ts.getLast?.or last = some (.number x)

theorem EndsInNumber.of_cons {last : Option Token} {t : Token} {s s' : List Char}
    (h : EndsInNumber last s)
    (hs : tokensAfter last s = (tokensAfter (some t) s').map (t :: ·)) :
    EndsInNumber (some t) s' := by
  obtain ⟨ts, x, hts, hlast⟩ := h
  rw [hs, Option.map_eq_some_iff] at hts
  obtain ⟨us, hus, rfl⟩ := hts
  refine ⟨us, x, hus, ?_⟩
  rw [← hlast, List.getLast?_cons]
  cases us.getLast? <;> rfl

/-- A name that has no text behind it is the last token. -/
theorem not_endsInNumber_of_name {t : Token} (h : ∀ x, t ≠ .number x) :
    ¬ EndsInNumber (some t) [] := by
  rintro ⟨ts, x, hts, hlast⟩
  rw [tokensAfter] at hts
  cases hts
  exact h x (Option.some.inj hlast)

theorem Token.ofName_ne_number (last : Option Token) (w : List Char) (x : Float) :
    ofName last w ≠ .number x := by
  unfold ofName
  split <;> simp

/-- **The tokens of two pieces.** The second piece begins with a character that belongs to no
numeral, and to no name unless a number is in front of it, and makes no power of a star at the end
of the first. -/
theorem tokensAfter_cut {c : Char} (hnumeral : inNumeral c = false) {last : Option Token}
    {s : List Char} (hname : c.isAlphanum = false ∨ EndsInNumber last s)
    (hstar : c = '*' → ¬ ['*'] <:+ s) (r : List Char) :
    tokensAfter last (s ++ c :: r) = (tokensAfter last s).bind fun ts =>
      (tokensAfter (ts.getLast?.or last) (c :: r)).map (ts ++ ·) := by
  -- What is left behind a token is not always the tail of the text, but it is a shorter end of it.
  induction hn : s.length using Nat.strongRecOn generalizing s last with
  | ind n ih =>
    subst hn
    cases s with
    | nil => simp [tokensAfter]
    | cons d s =>
        have hrest : ∀ s', s' <:+ s → ∀ last', (c.isAlphanum = false ∨ EndsInNumber last' s') →
            tokensAfter last' (s' ++ c :: r) = (tokensAfter last' s').bind fun ts =>
              (tokensAfter (ts.getLast?.or last') (c :: r)).map (ts ++ ·) := by
          intro s' hs' last' hname'
          refine ih _ ?_ hname' (fun hc h => hstar hc ?_) rfl
          · rw [List.length_cons]
            exact Nat.lt_succ_of_le hs'.length_le
          · exact h.trans (hs'.trans (List.suffix_cons d s))
        have hcons := fun t first =>
          map_cons_bind_append t last first fun last' => tokensAfter last' (c :: r)
        rw [List.cons_append]
        by_cases hblank : isBlank d = true
        · have hskip := tokensAfter_cons_of_isBlank hblank last
          rw [hskip, hskip]
          refine hrest s (List.suffix_refl s) last (hname.imp_right ?_)
          rintro ⟨ts, x, hts, hlast⟩
          exact ⟨ts, x, hskip s ▸ hts, hlast⟩
        rw [Bool.not_eq_true] at hblank
        by_cases hdigit : (d.isDigit || d = '.') = true
        · rw [tokensAfter_cons_of_numeral hblank hdigit, tokensAfter_cons_of_numeral hblank hdigit,
            takeWhile_append_cons_of_neg (Or.inl hnumeral),
            dropWhile_append_cons_of_neg (Or.inl hnumeral), Option.bind_assoc]
          refine Option.bind_congr fun x hx => ?_
          rw [hrest _ (List.dropWhile_suffix _) _ (hname.imp_right fun h => h.of_cons ?_)]
          · exact hcons _ _
          · rw [tokensAfter_cons_of_numeral hblank hdigit, hx, Option.bind_some]
        rw [Bool.not_eq_true] at hdigit
        by_cases halpha : d.isAlpha = true
        · have hbehind := hname.imp_right fun h =>
            h.of_cons (tokensAfter_cons_of_isAlpha halpha last s)
          -- A name that could go on would be the last token.
          have hends : c.isAlphanum = false ∨ ¬ ∀ e ∈ s, e.isAlphanum = true := by
            refine hbehind.imp_right fun h hall => ?_
            rw [List.dropWhile_eq_nil_iff.mpr hall] at h
            exact not_endsInNumber_of_name (Token.ofName_ne_number _ _) h
          rw [tokensAfter_cons_of_isAlpha halpha, tokensAfter_cons_of_isAlpha halpha,
            takeWhile_append_cons_of_neg hends, dropWhile_append_cons_of_neg hends,
            hrest _ (List.dropWhile_suffix _) _ hbehind]
          exact hcons _ _
        rw [Bool.not_eq_true] at halpha
        by_cases hstars : d = '*' ∧ s.head? = some '*'
        · obtain ⟨rfl, hhead⟩ := hstars
          obtain ⟨s, rfl⟩ := List.head?_eq_some_iff.mp hhead
          rw [List.cons_append, tokensAfter_stars, tokensAfter_stars,
            hrest s (List.suffix_cons _ s) _
              (hname.imp_right fun h => h.of_cons (tokensAfter_stars last s))]
          exact hcons _ _
        · have hstars' : ¬ (d = '*' ∧ (s ++ c :: r).head? = some '*') := by
            rintro ⟨rfl, hhead⟩
            cases s with
            | nil => exact hstar (Option.some.inj hhead) (List.suffix_refl _)
            | cons b s => exact hstars ⟨rfl, hhead⟩
          have hsign := tokensAfter_cons_of_ofChar? hblank hdigit halpha hstars last
          rw [hsign, tokensAfter_cons_of_ofChar? hblank hdigit halpha hstars', Option.bind_assoc]
          refine Option.bind_congr fun t ht => ?_
          rw [hrest s (List.suffix_refl s) _ (hname.imp_right fun h => h.of_cons ?_)]
          · exact hcons _ _
          · rw [hsign, ht, Option.bind_some]

/-- A second piece that begins with a character between names. -/
theorem tokensAfter_append {c : Char} (hnumeral : inNumeral c = false)
    (hname : c.isAlphanum = false) {s : List Char} (hstar : c = '*' → ¬ ['*'] <:+ s)
    (last : Option Token) (r : List Char) :
    tokensAfter last (s ++ c :: r) = (tokensAfter last s).bind fun ts =>
      (tokensAfter (ts.getLast?.or last) (c :: r)).map (ts ++ ·) :=
  tokensAfter_cut hnumeral (Or.inl hname) hstar r

/-- A second piece that has the same tokens whatever stands before it. -/
theorem tokens?_append {c : Char} (hnumeral : inNumeral c = false) (hname : c.isAlphanum = false)
    (hstar : c ≠ '*') {s r : List Char} {ts us : List Token} (hs : tokens? s = some ts)
    (hr : ∀ last, tokensAfter last (c :: r) = some us) :
    tokens? (s ++ c :: r) = some (ts ++ us) := by
  rw [tokens?, tokensAfter_append hnumeral hname fun h => absurd h hstar, ← tokens?, hs,
    Option.bind_some, hr, Option.map_some]

/-- A second piece that begins with a sign. -/
theorem tokens?_append_sign {c : Char} {t : Token} (h : Token.ofChar? c = some t) (hstar : c ≠ '*')
    {s r : List Char} {ts us : List Token} (hs : tokens? s = some ts)
    (hr : tokens? (c :: r) = some us) : tokens? (s ++ c :: r) = some (ts ++ us) := by
  obtain ⟨-, hnumeral, hname⟩ := Token.of_ofChar?_eq_some h
  refine tokens?_append hnumeral hname hstar hs fun last => ?_
  rw [tokensAfter_cons_eq_tokens? h hstar, hr]

/-! ### Blanks around a text -/

/-- A blank stands in no numeral and in no name. -/
theorem not_isAlphanum_of_isBlank {c : Char} (h : isBlank c = true) :
    inNumeral c = false ∧ c.isAlphanum = false := by
  have hnumber : inNumber c = false := not_inNumber_of_isBlank h
  simp only [inNumber, isDecimalDigit, Bool.or_eq_false_iff] at hnumber
  obtain ⟨⟨⟨hdigit, -⟩, hpoint⟩, hcomma⟩ := hnumber
  have halpha : c.isAlpha = false := not_isAlpha_of_isBlank h
  exact ⟨by simp only [inNumeral, hdigit, hpoint, hcomma, Bool.or_false],
    by simp only [Char.isAlphanum, hdigit, halpha, Bool.or_false]⟩

theorem tokensAfter_blanks_append {ws : List Char} (h : ∀ c ∈ ws, isBlank c = true)
    (last : Option Token) (s : List Char) : tokensAfter last (ws ++ s) = tokensAfter last s := by
  induction ws with
  | nil => rfl
  | cons c ws ih =>
      obtain ⟨hc, hws⟩ := List.forall_mem_cons.mp h
      rw [List.cons_append, tokensAfter_cons_of_isBlank hc, ih hws]

/-- There is no token in blanks. -/
theorem tokensAfter_of_isBlank {ws : List Char} (h : ∀ c ∈ ws, isBlank c = true)
    (last : Option Token) : tokensAfter last ws = some [] := by
  have hblanks := tokensAfter_blanks_append h last []
  rwa [List.append_nil, tokensAfter] at hblanks

theorem tokensAfter_append_blanks {ws : List Char} (h : ∀ c ∈ ws, isBlank c = true)
    (last : Option Token) (s : List Char) : tokensAfter last (s ++ ws) = tokensAfter last s := by
  cases ws with
  | nil => rw [List.append_nil]
  | cons c ws =>
      have hc : isBlank c = true := h c List.mem_cons_self
      obtain ⟨hnumeral, hname⟩ := not_isAlphanum_of_isBlank hc
      have hstar : c ≠ '*' := by
        rintro rfl
        cases hc
      rw [tokensAfter_append hnumeral hname fun heq => absurd heq hstar]
      simp [tokensAfter_of_isBlank h]

/-- A sign at the end is the last token, a star among them. -/
theorem tokensAfter_sign_end {c : Char} {t : Token} (h : Token.ofChar? c = some t) {ws : List Char}
    (hws : ∀ d ∈ ws, isBlank d = true) (last : Option Token) :
    tokensAfter last (c :: ws) = some [t] := by
  obtain ⟨hblank, hnumeral, hname⟩ := Token.of_ofChar?_eq_some h
  have hstars : ¬ (c = '*' ∧ ws.head? = some '*') := by
    rintro ⟨-, hhead⟩
    cases hws '*' (List.mem_of_mem_head? hhead)
  rw [tokensAfter_cons_of_ofChar? hblank (Bool.or_eq_false_iff.mp hnumeral).1
    (Bool.or_eq_false_iff.mp hname).1 hstars, h, Option.bind_some, tokensAfter_of_isBlank hws]
  rfl

/-- Blanks at the ends of a text do not show in its tokens. -/
@[simp] theorem tokens?_trim (s : List Char) : tokens? (trim s) = tokens? s := by
  obtain ⟨ws, ws', hws, hws', hs⟩ := trim_eq s
  have htokens : tokens? (ws ++ trim s ++ ws') = tokens? (trim s) := by
    rw [tokens?, tokens?, tokensAfter_append_blanks hws', tokensAfter_blanks_append hws]
  rw [← hs] at htokens
  exact htokens.symm

@[simp] theorem tokens?_trimStart (s : List Char) : tokens? (trimStart s) = tokens? s := by
  obtain ⟨ws, hws, hs⟩ := trimStart_eq s
  have htokens : tokens? (ws ++ trimStart s) = tokens? (trimStart s) :=
    tokensAfter_blanks_append hws none _
  rw [← hs] at htokens
  exact htokens.symm

@[simp] theorem tokens?_trimEnd (s : List Char) : tokens? (trimEnd s) = tokens? s := by
  obtain ⟨ws, hws, hs⟩ := dropEndWhile_eq isBlank s
  have htokens : tokens? (trimEnd s ++ ws) = tokens? (trimEnd s) :=
    tokensAfter_append_blanks hws none _
  have hsplit : s = trimEnd s ++ ws := hs
  rw [← hsplit] at htokens
  exact htokens.symm

end Composer.Arithmetic
