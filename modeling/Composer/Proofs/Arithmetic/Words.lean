import Composer.Proofs.Arithmetic.Names
import Composer.Proofs.Text.Outline
/-!
# Composer.Proofs.Arithmetic.Words

**What a calculation looks like.** All characters of a text with a value belong to tokens, and its
first word is a name that an expression may hold. Both can be seen in the outline of the text, so
a text whose outline begins otherwise is no calculation.
-/

namespace Composer.Arithmetic

open Text

/-! ### The first word -/

/-- The letters from the first one up to the first other character. -/
def firstWord (s : List Char) : List Char :=
  (s.dropWhile (!·.isAlpha)).takeWhile Char.isAlpha

theorem firstWord_cons_of_not_isAlpha {c : Char} (h : c.isAlpha = false) (s : List Char) :
    firstWord (c :: s) = firstWord s := by
  rw [firstWord, List.dropWhile_cons_of_pos (by rw [h]; rfl), firstWord]

theorem firstWord_cons_of_isAlpha {c : Char} (h : c.isAlpha = true) (s : List Char) :
    firstWord (c :: s) = c :: s.takeWhile Char.isAlpha := by
  rw [firstWord, List.dropWhile_cons_of_neg (by rw [h]; decide), List.takeWhile_cons_of_pos h]

/-- Characters that are no letters do not count before the first word. -/
theorem firstWord_append_of_not_isAlpha {s : List Char} (h : ∀ c ∈ s, c.isAlpha = false)
    (r : List Char) : firstWord (s ++ r) = firstWord r := by
  induction s with
  | nil => rfl
  | cons c s ih =>
      rw [List.cons_append, firstWord_cons_of_not_isAlpha (h c List.mem_cons_self)]
      exact ih fun d hd => h d (List.mem_cons_of_mem c hd)

/-- Nor do they count behind it. -/
theorem firstWord_append_left {r : List Char} (h : ∀ c ∈ r, c.isAlpha = false) (s : List Char) :
    firstWord (s ++ r) = firstWord s := by
  have htake : ∀ s : List Char, (s ++ r).takeWhile Char.isAlpha = s.takeWhile Char.isAlpha := by
    intro s
    induction s with
    | nil =>
        cases r with
        | nil => rfl
        | cons c r => exact List.takeWhile_cons_of_neg (by simp [h c List.mem_cons_self])
    | cons c s ih =>
        by_cases hc : c.isAlpha = true
        · rw [List.cons_append, List.takeWhile_cons_of_pos hc, List.takeWhile_cons_of_pos hc, ih]
        · rw [List.cons_append, List.takeWhile_cons_of_neg hc, List.takeWhile_cons_of_neg hc]
  induction s with
  | nil => exact firstWord_append_of_not_isAlpha h [] ▸ by rw [List.nil_append, List.append_nil]
  | cons c s ih =>
      by_cases hc : c.isAlpha = true
      · rw [List.cons_append, firstWord_cons_of_isAlpha hc, firstWord_cons_of_isAlpha hc, htake]
      · rw [Bool.not_eq_true] at hc
        rw [List.cons_append, firstWord_cons_of_not_isAlpha hc, firstWord_cons_of_not_isAlpha hc,
          ih]

theorem firstWord_dropWhile {p : Char → Bool} (h : ∀ c, p c = true → c.isAlpha = false)
    (s : List Char) : firstWord (s.dropWhile p) = firstWord s := by
  have hfront : ∀ c ∈ s.takeWhile p, c.isAlpha = false := fun c hc =>
    h c (List.mem_takeWhile_imp hc)
  calc firstWord (s.dropWhile p) = firstWord (s.takeWhile p ++ s.dropWhile p) :=
        (firstWord_append_of_not_isAlpha hfront _).symm
    _ = firstWord s := by rw [List.takeWhile_append_dropWhile]

/-! ### Letters -/

theorem isAlpha_toLower (c : Char) : c.toLower.isAlpha = c.isAlpha :=
  toLower_induction (P := fun c d => d.isAlpha = c.isAlpha) (fun _ => rfl) (by decide) c

/-! ### Tokens -/

/-- A character of a token, or one between tokens. -/
def isTokenChar (c : Char) : Bool :=
  isBlank c || inNumeral c || c.isAlphanum || (Token.ofChar? c).isSome

/-- A letter is no blank, stands in no numeral and gives no token of its own. -/
theorem not_isBlank_of_isAlpha {c : Char} (h : c.isAlpha = true) :
    isBlank c = false ∧ (c.isDigit || c = '.') = false ∧ inNumeral c = false :=
  forall_alpha (P := fun c =>
      isBlank c = false ∧ (c.isDigit || c = '.') = false ∧ inNumeral c = false)
    (by decide) (by decide) h

theorem tokensAfter_cons_of_isAlpha {c : Char} (h : c.isAlpha = true) (last : Option Token)
    (s : List Char) :
    tokensAfter last (c :: s) =
      (tokensAfter (some (Token.ofName last ((c :: s.takeWhile Char.isAlphanum).map Char.toLower)))
        (s.dropWhile Char.isAlphanum)).map
        (Token.ofName last ((c :: s.takeWhile Char.isAlphanum).map Char.toLower) :: ·) := by
  obtain ⟨hblank, hnumeral, -⟩ := not_isBlank_of_isAlpha h
  rw [tokensAfter, if_neg (by simp [hblank]), if_neg (by simpa using hnumeral), if_pos h]

/-- The tokens that a text spells behind the token `last`, character by character or word by
word. Of a character that is no letter nothing else is said than that it may stand there. -/
inductive Spells : Option Token → List Char → List Token → Prop
  | nil {last : Option Token} : Spells last [] []
  | blank {last : Option Token} {c : Char} {s : List Char} {ts : List Token} :
      isBlank c = true → c.isAlpha = false → Spells last s ts → Spells last (c :: s) ts
  | numeral {last : Option Token} {c : Char} {s : List Char} {x : Float} {ts : List Token} :
      inNumeral c = true → c.isAlpha = false →
      Spells (some (.number x)) (s.dropWhile inNumeral) ts →
      Spells last (c :: s) (.number x :: ts)
  | name {last : Option Token} {c : Char} {s : List Char} {t : Token} {ts : List Token} :
      c.isAlpha = true →
      t = Token.ofName last ((c :: s.takeWhile Char.isAlphanum).map Char.toLower) →
      Spells (some t) (s.dropWhile Char.isAlphanum) ts → Spells last (c :: s) (t :: ts)
  | sign {last : Option Token} {c : Char} {s : List Char} {t : Token} {ts : List Token} :
      (Token.ofChar? c).isSome = true → c.isAlpha = false → Spells (some t) s ts →
      Spells last (c :: s) (t :: ts)
  | power {last : Option Token} {s : List Char} {ts : List Token} :
      Spells (some (.operator .power)) s ts →
      Spells last ('*' :: '*' :: s) (.operator .power :: ts)

theorem spells_of_tokensAfter {last : Option Token} {s : List Char} {ts : List Token}
    (h : tokensAfter last s = some ts) : Spells last s ts := by
  -- What is left of the text is not always its tail, but it is shorter.
  induction hn : s.length using Nat.strongRecOn generalizing s last ts with
  | ind n ih =>
    subst hn
    cases s with
    | nil =>
        rw [tokensAfter] at h
        cases h
        exact .nil
    | cons c s =>
      by_cases halpha : c.isAlpha = true
      · rw [tokensAfter_cons_of_isAlpha halpha] at h
        obtain ⟨ts', hts, rfl⟩ := Option.map_eq_some_iff.mp h
        exact .name halpha rfl (ih _ (length_dropWhile_lt _ c s) hts rfl)
      · have hno : c.isAlpha = false := Bool.not_eq_true _ ▸ halpha
        rw [tokensAfter] at h
        split at h
        · next hblank => exact .blank hblank hno (ih _ (by simp) h rfl)
        · split at h
          · next hnumeral =>
              have hc : inNumeral c = true := by
                rw [inNumeral, hnumeral, Bool.true_or]
              split at h
              · cases h
              · obtain ⟨ts', hts, rfl⟩ := Option.map_eq_some_iff.mp h
                exact .numeral hc hno (ih _ (length_dropWhile_lt _ c s) hts rfl)
          · split at h
            · next hstar =>
                obtain ⟨rfl, hhead⟩ := hstar
                obtain ⟨ts', hts, rfl⟩ := Option.map_eq_some_iff.mp h
                obtain ⟨s, rfl⟩ := List.head?_eq_some_iff.mp hhead
                refine .power (ih _ ?_ hts rfl)
                rw [List.length_cons, List.length_cons]
                omega
            · split at h
              · cases h
              · next t ht =>
                  obtain ⟨ts', hts, rfl⟩ := Option.map_eq_some_iff.mp h
                  exact .sign (by rw [ht]; rfl) hno (ih _ (by simp) hts rfl)

theorem mem_takeWhile_or_dropWhile {p : Char → Bool} {c : Char} {s : List Char} (h : c ∈ s) :
    p c = true ∨ c ∈ s.dropWhile p := by
  rw [← List.takeWhile_append_dropWhile (p := p) (l := s), List.mem_append] at h
  exact h.imp_left List.mem_takeWhile_imp

theorem not_isAlpha_of_inNumeral {c : Char} (h : inNumeral c = true) : c.isAlpha = false := by
  rw [Bool.eq_false_iff]
  intro halpha
  rw [(not_isBlank_of_isAlpha halpha).2.2] at h
  cases h

/-- Every character of a text that has tokens belongs to one of them or stands between two. -/
theorem Spells.isTokenChar {last : Option Token} {s : List Char} {ts : List Token}
    (h : Spells last s ts) : ∀ c ∈ s, isTokenChar c = true := by
  induction h with
  | nil => simp
  | blank hc _ _ ih =>
      exact List.forall_mem_cons.mpr ⟨by simp [Arithmetic.isTokenChar, hc], ih⟩
  | numeral hc _ _ ih =>
      refine List.forall_mem_cons.mpr ⟨by simp [Arithmetic.isTokenChar, hc], fun d hd => ?_⟩
      rcases mem_takeWhile_or_dropWhile (p := inNumeral) hd with hd | hd
      · simp [Arithmetic.isTokenChar, hd]
      · exact ih d hd
  | name hc _ _ ih =>
      refine List.forall_mem_cons.mpr
        ⟨by simp [Arithmetic.isTokenChar, Char.isAlphanum, hc], fun d hd => ?_⟩
      rcases mem_takeWhile_or_dropWhile (p := Char.isAlphanum) hd with hd | hd
      · simp [Arithmetic.isTokenChar, hd]
      · exact ih d hd
  | sign hc _ _ ih =>
      exact List.forall_mem_cons.mpr ⟨by simp [Arithmetic.isTokenChar, hc], ih⟩
  | power _ ih => exact List.forall_mem_cons.mpr ⟨rfl, List.forall_mem_cons.mpr ⟨rfl, ih⟩⟩

/-- The first word of a text begins the first name of its tokens. -/
theorem Spells.exists_ofName_mem {last : Option Token} {s : List Char} {ts : List Token}
    (h : Spells last s ts) (hword : firstWord s ≠ []) :
    ∃ last' w, Token.ofName last' w ∈ ts ∧
      w.takeWhile Char.isAlpha = (firstWord s).map Char.toLower := by
  -- Tokens in front of the first letter change neither side.
  have behind {t : Token} {ts : List Token} {v : List Char} : (∃ last' w,
      Token.ofName last' w ∈ ts ∧ w.takeWhile Char.isAlpha = v) → ∃ last' w,
      Token.ofName last' w ∈ t :: ts ∧ w.takeWhile Char.isAlpha = v :=
    fun ⟨last', w, hmem, hw⟩ => ⟨last', w, List.mem_cons_of_mem _ hmem, hw⟩
  induction h with
  | nil => exact absurd rfl hword
  | blank _ hc _ ih =>
      rw [firstWord_cons_of_not_isAlpha hc] at hword ⊢
      exact ih hword
  | @numeral _ c s _ _ _ hc _ ih =>
      have hrest : firstWord (c :: s) = firstWord (s.dropWhile inNumeral) := by
        rw [firstWord_cons_of_not_isAlpha hc,
          firstWord_dropWhile fun d hd => not_isAlpha_of_inNumeral hd]
      rw [hrest] at hword ⊢
      exact behind (ih hword)
  | @name last _ _ _ _ hc ht _ _ =>
      subst ht
      refine ⟨last, _, List.mem_cons_self, ?_⟩
      rw [firstWord_cons_of_isAlpha hc, List.takeWhile_map]
      simp only [Function.comp_def, isAlpha_toLower]
      -- The token goes on with digits, the word does not.
      have hboth : (fun d : Char => decide (d.isAlpha = true ∧ d.isAlphanum = true)) =
          Char.isAlpha := by
        funext d
        by_cases hd : d.isAlpha = true <;> simp [Char.isAlphanum, hd]
      rw [List.takeWhile_cons_of_pos hc, List.takeWhile_takeWhile, hboth]
  | sign _ hc _ ih =>
      rw [firstWord_cons_of_not_isAlpha hc] at hword ⊢
      exact behind (ih hword)
  | @power _ s _ _ ih =>
      have hrest : firstWord ('*' :: '*' :: s) = firstWord s := by
        rw [firstWord_cons_of_not_isAlpha rfl, firstWord_cons_of_not_isAlpha rfl]
      rw [hrest] at hword ⊢
      exact behind (ih hword)

/-! ### Texts of letters -/

theorem Token.ofName_of_name {last : Option Token} (h : ∀ t ∈ last, ∃ v, t = .name v)
    (w : List Char) : Token.ofName last w = .name (String.ofList w) := by
  unfold Token.ofName
  split
  · obtain ⟨v, hv⟩ := h _ rfl
    cases hv
  · obtain ⟨v, hv⟩ := h _ rfl
    cases hv
  · rfl

/-- The tokens of a text of letters and spaces are names that are made of the letters. -/
theorem Spells.letters {last : Option Token} {s : List Char} {ts : List Token}
    (h : Spells last s ts) (hlast : ∀ t ∈ last, ∃ v, t = .name v)
    (hs : ∀ c ∈ s, c.isAlpha = true ∨ c = ' ') : ∃ ws : List (List Char),
      ts = ws.map (fun w => .name (String.ofList w)) ∧
      ws.flatten = (s.filter (· ≠ ' ')).map Char.toLower := by
  induction h with
  | nil => exact ⟨[], rfl, rfl⟩
  | blank _ hc _ ih =>
      obtain rfl := (hs _ List.mem_cons_self).resolve_left (by simp [hc])
      exact ih hlast fun d hd => hs d (List.mem_cons_of_mem _ hd)
  | numeral hnumeral hc _ _ =>
      obtain rfl := (hs _ List.mem_cons_self).resolve_left (by simp [hc])
      exact absurd hnumeral (by decide)
  | @name _ c s _ _ hc ht _ ih =>
      rw [Token.ofName_of_name hlast] at ht
      subst ht
      -- Only behind a number or a bracket is a letter a multiplication.
      obtain ⟨ws, rfl, hws⟩ := ih (fun t ht => ⟨_, (Option.some.inj ht).symm⟩)
        fun d hd => hs d (List.mem_cons_of_mem c ((List.dropWhile_suffix _).mem hd))
      refine ⟨_ :: ws, rfl, ?_⟩
      have hword : ∀ d ∈ c :: s.takeWhile Char.isAlphanum, d ≠ ' ' := by
        refine List.forall_mem_cons.mpr ⟨?_, fun d hd => ?_⟩
        · rintro rfl
          cases hc
        · rintro rfl
          exact absurd (List.mem_takeWhile_imp hd) (by decide)
      have hsplit : c :: s =
          (c :: s.takeWhile Char.isAlphanum) ++ s.dropWhile Char.isAlphanum := by
        rw [List.cons_append, List.takeWhile_append_dropWhile]
      rw [List.flatten_cons, hws, hsplit, List.filter_append, List.map_append,
        List.filter_eq_self.mpr fun d hd => decide_eq_true (hword d hd)]
  | sign hchar hc _ _ =>
      obtain rfl := (hs _ List.mem_cons_self).resolve_left (by simp [hc])
      exact absurd hchar (by decide)
  | power _ _ => exact absurd (hs '*' List.mem_cons_self) (by decide)

/-! ### Calculations -/

/-- The letters that a text with a value may begin with. -/
def openings : List (List Char) :=
  ['x'] :: names.map fun w => w.toList.takeWhile Char.isAlpha

/-- What can be said of a text with a value without computing it. -/
structure LooksComputable (s : List Char) : Prop where
  /-- Every character belongs to a token or stands between two. -/
  chars : ∀ c ∈ s, isTokenChar c = true
  /-- The first word, if there is one, begins a name or stands for a multiplication. -/
  word : firstWord s = [] ∨ (firstWord s).map Char.toLower ∈ openings

theorem openings_of_ofName (last : Option Token) {w : List Char}
    (h : ∀ v, Token.ofName last w = .name v → v ∈ names) : w.takeWhile Char.isAlpha ∈ openings := by
  have hname : Token.ofName last w = .name (String.ofList w) →
      w.takeWhile Char.isAlpha ∈ openings := by
    intro hw
    refine List.mem_cons_of_mem _ (List.mem_map.mpr ⟨String.ofList w, h _ hw, ?_⟩)
    rw [String.toList_ofList]
  unfold Token.ofName at hname
  split at hname
  · exact List.mem_cons_self
  · exact List.mem_cons_self
  · exact hname rfl

theorem looksComputable_of_evaluate {s : List Char} {v : Evaluation} (h : evaluate s = some v) :
    LooksComputable s := by
  simp only [evaluate, Option.bind_eq_bind, Option.bind_eq_some_iff] at h
  obtain ⟨ts, hts, missing, -, e, hparse, -⟩ := h
  have hspells := spells_of_tokensAfter hts
  refine ⟨hspells.isTokenChar, ?_⟩
  by_cases hword : firstWord s = []
  · exact Or.inl hword
  · obtain ⟨last, w, hmem, hw⟩ := hspells.exists_ofName_mem hword
    refine Or.inr ?_
    rw [← hw]
    refine openings_of_ofName last fun v hv => ?_
    rw [hv] at hmem
    exact mem_names_of_parse? hparse (List.mem_append_left _ hmem)

theorem of_announcesOperand {c : Char} (h : announcesOperand c = true) :
    isTokenChar c = true ∧ c.isAlpha = false := by
  constructor
  · unfold announcesOperand at h
    split at h
    · next ht => simp [isTokenChar, ht]
    · cases h
  · rw [Bool.eq_false_iff]
    intro halpha
    rw [forall_alpha (P := fun c => announcesOperand c = false) (by decide) (by decide) halpha] at h
    cases h

theorem not_isAlpha_of_isBlank {c : Char} (h : isBlank c = true) : c.isAlpha = false := by
  rw [Bool.eq_false_iff]
  intro halpha
  rw [(not_isBlank_of_isAlpha halpha).1] at h
  cases h

/-- The running value of an expression that ends in one operator too many is found in a text that
looks the same way. -/
theorem looksComputable_of_beforeOperator {s : List Char} {a : Calculation}
    (h : beforeOperator s = some a) : LooksComputable s := by
  simp only [beforeOperator, Option.bind_eq_bind, Option.bind_eq_some_iff] at h
  obtain ⟨c, hlast, h⟩ := h
  obtain ⟨r, rfl⟩ := List.getLast?_eq_some_iff.mp hlast
  rw [List.dropLast_concat] at h
  split at h
  · next hc =>
      simp only [Option.bind_eq_some_iff] at h
      obtain ⟨v, hv, -⟩ := h
      obtain ⟨hchars, hword⟩ := looksComputable_of_evaluate hv
      obtain ⟨htoken, halpha⟩ := of_announcesOperand hc
      obtain ⟨ws, hws, hr⟩ := dropEndWhile_eq isBlank r
      have hs : r ++ [c] = trimEnd r ++ (ws ++ [c]) := by
        rw [← List.append_assoc]
        exact congrArg (· ++ [c]) hr
      -- No letter stands in what is cut off.
      have hrest : firstWord (r ++ [c]) = firstWord (trimEnd r) := by
        refine (congrArg firstWord hs).trans (firstWord_append_left (fun d hd => ?_) _)
        rcases List.mem_append.mp hd with hd | hd
        · exact not_isAlpha_of_isBlank (hws d hd)
        · exact List.mem_singleton.mp hd ▸ halpha
      refine ⟨fun d hd => ?_, hrest ▸ hword⟩
      rw [hs, List.mem_append, List.mem_append, List.mem_singleton] at hd
      rcases hd with hd | hd | rfl
      · exact hchars d hd
      · simp [isTokenChar, hws d hd]
      · exact htoken
  · cases h

/-! ### Outlines of calculations -/

theorem isAlpha_fold {c : Char} (h : isTokenChar c = true) : (fold c).isAlpha = c.isAlpha :=
  fold_induction (P := fun c d => isTokenChar c = true → d.isAlpha = c.isAlpha) (fun _ _ => rfl)
    (by decide) (by decide) (by decide) c h

theorem isTokenChar_fold {c : Char} (h : isTokenChar c = true) : isTokenChar (fold c) = true :=
  fold_induction (P := fun c d => isTokenChar c = true → isTokenChar d = true) (fun _ h => h)
    (by decide) (by decide) (by decide) c h

/-- A letter of ASCII is folded to lower case. -/
theorem fold_of_isAlpha {c : Char} (h : c.isAlpha = true) :
    isKeywordLetter c = true ∧ fold c = c.toLower :=
  forall_alpha (P := fun c => isKeywordLetter c = true ∧ fold c = c.toLower) (by decide)
    (by decide) h

theorem trace_of_isAlpha {c : Char} (h : c.isAlpha = true) (p : Spot) :
    p.trace c = [c.toLower] ∧ Spot.after c = .word := by
  obtain ⟨hletter, hfold⟩ := fold_of_isAlpha h
  exact ⟨hfold ▸ if_pos hletter, if_pos hletter⟩

/-- A character of a token that is no letter adds a space, a nought or itself. -/
theorem trace_of_isTokenChar {c : Char} (h : isTokenChar c = true) (p : Spot) :
    p.trace c = p.space ∨ p.trace c = p.nought ∨ p.trace c = [fold c] := by
  have harrow : isArrow c = false := by
    rw [isArrow, Bool.or_eq_false_iff, decide_eq_false_iff_not, decide_eq_false_iff_not]
    constructor <;> rintro rfl <;> revert h <;> decide
  unfold Spot.trace
  split
  · exact Or.inr (Or.inr rfl)
  · rw [if_neg (by simp [harrow])]
    split
    · exact Or.inl rfl
    · split
      · exact Or.inr (Or.inl rfl)
      · exact Or.inr (Or.inr rfl)

theorem mem_trace_of_isTokenChar {c d : Char} (h : isTokenChar c = true) {p : Spot}
    (hd : d ∈ p.trace c) : d = ' ' ∨ d = '0' ∨ d = fold c := by
  rcases trace_of_isTokenChar h p with ht | ht | ht <;> rw [ht] at hd
  · cases p <;> simp_all [Spot.space]
  · cases p <;> simp_all [Spot.nought]
  · exact Or.inr (Or.inr (List.mem_singleton.mp hd))

theorem isTokenChar_of_mem_outlineFrom {s : List Char} (h : ∀ c ∈ s, isTokenChar c = true)
    (p : Spot) : ∀ c ∈ outlineFrom p s, isTokenChar c = true := by
  induction s generalizing p with
  | nil => simp
  | cons c s ih =>
      intro d hd
      have hc : isTokenChar c = true := h c List.mem_cons_self
      rw [outlineFrom_cons, List.mem_append] at hd
      rcases hd with hd | hd
      · rcases mem_trace_of_isTokenChar hc hd with rfl | rfl | rfl
        · rfl
        · rfl
        · exact isTokenChar_fold hc
      · exact ih (fun e he => h e (List.mem_cons_of_mem c he)) _ d hd

theorem not_isAlpha_of_mem_trace {c d : Char} (h : isTokenChar c = true) (hc : c.isAlpha = false)
    {p : Spot} (hd : d ∈ p.trace c) : d.isAlpha = false := by
  rcases mem_trace_of_isTokenChar h hd with rfl | rfl | rfl
  · rfl
  · rfl
  · rw [isAlpha_fold h, hc]

/-- A word goes on in the outline as it does in the text. -/
theorem takeWhile_outlineFrom_word {s : List Char} (h : ∀ c ∈ s, isTokenChar c = true) :
    (outlineFrom .word s).takeWhile Char.isAlpha =
      (s.takeWhile Char.isAlpha).map Char.toLower := by
  induction s with
  | nil => rfl
  | cons c s ih =>
      have hs : ∀ d ∈ s, isTokenChar d = true := fun d hd => h d (List.mem_cons_of_mem c hd)
      rw [outlineFrom_cons]
      by_cases hc : c.isAlpha = true
      · obtain ⟨htrace, hafter⟩ := trace_of_isAlpha hc .word
        rw [htrace, hafter, List.takeWhile_cons_of_pos hc, List.map_cons, ← ih hs]
        exact List.takeWhile_cons_of_pos (by rw [isAlpha_toLower, hc])
      · rw [Bool.not_eq_true] at hc
        have htoken : isTokenChar c = true := h c List.mem_cons_self
        rw [List.takeWhile_cons_of_neg (by simp [hc])]
        -- Whatever ends a word shows in the outline, and it is no letter there.
        cases ht : Spot.word.trace c with
        | nil => rcases trace_of_isTokenChar htoken .word with h' | h' | h' <;> simp [ht] at h' <;>
            cases h'
        | cons d r =>
            have hd : d.isAlpha = false :=
              not_isAlpha_of_mem_trace htoken hc (p := .word) (by rw [ht]; exact List.mem_cons_self)
            exact List.takeWhile_cons_of_neg (by simp [hd])

theorem firstWord_outlineFrom {s : List Char} (h : ∀ c ∈ s, isTokenChar c = true) (p : Spot) :
    firstWord (outlineFrom p s) = (firstWord s).map Char.toLower := by
  induction s generalizing p with
  | nil => rfl
  | cons c s ih =>
      have hs : ∀ d ∈ s, isTokenChar d = true := fun d hd => h d (List.mem_cons_of_mem c hd)
      rw [outlineFrom_cons]
      by_cases hc : c.isAlpha = true
      · obtain ⟨htrace, hafter⟩ := trace_of_isAlpha hc p
        rw [htrace, hafter, firstWord_cons_of_isAlpha hc, List.map_cons,
          ← takeWhile_outlineFrom_word hs]
        exact firstWord_cons_of_isAlpha (by rw [isAlpha_toLower, hc]) _
      · rw [Bool.not_eq_true] at hc
        have htoken : isTokenChar c = true := h c List.mem_cons_self
        rw [firstWord_append_of_not_isAlpha fun d hd => not_isAlpha_of_mem_trace htoken hc hd,
          ih hs, firstWord_cons_of_not_isAlpha hc]

/-- Whether no text with this beginning of an outline has a value: a character belongs to no token,
or the first word is none that an expression may begin with, however it goes on. -/
def bars (o : List Char) : Bool :=
  let w := o.dropWhile (!·.isAlpha)
  !o.all isTokenChar ||
    if w.all Char.isAlpha then openings.all fun v => w ≠ [] && !w.isPrefixOf v
    else openings.all fun v => w.takeWhile Char.isAlpha ≠ v

/-- The outline of a calculation does not begin in a way that bars one. -/
theorem LooksComputable.not_bars {s o : List Char} (h : LooksComputable s)
    (ho : o <+: outline s) : bars o = false := by
  obtain ⟨t, ht⟩ := ho
  have hchars : ∀ c ∈ o ++ t, isTokenChar c = true := by
    rw [ht]
    exact isTokenChar_of_mem_outlineFrom h.chars .gap
  have hword : firstWord (o ++ t) = [] ∨ firstWord (o ++ t) ∈ openings := by
    rw [ht, outline, firstWord_outlineFrom h.chars]
    exact h.word.imp_left fun hnil => by rw [hnil]; rfl
  have hall : o.all isTokenChar = true :=
    List.all_eq_true.mpr fun c hc => hchars c (List.mem_append_left t hc)
  rw [bars, hall, Bool.not_true, Bool.false_or]
  cases hw : o.dropWhile (!·.isAlpha) with
  | nil => rfl
  | cons c w =>
      have hc : c.isAlpha = true := by
        have hhead := List.head?_dropWhile_not (fun c : Char => !c.isAlpha) o
        rw [hw] at hhead
        simpa using hhead
      have hfirst : firstWord (o ++ t) = (c :: w ++ t).takeWhile Char.isAlpha := by
        rw [firstWord, List.dropWhile_append, hw]
        rfl
      have hmem : (c :: w ++ t).takeWhile Char.isAlpha ∈ openings := by
        rw [hfirst] at hword
        rcases hword with hword | hword
        · rw [List.cons_append, List.takeWhile_cons_of_pos hc] at hword
          cases hword
        · exact hword
      -- Either the word may go on behind what is read, or it has ended there.
      split
      · next halpha =>
          have hprefix : c :: w <+: (c :: w ++ t).takeWhile Char.isAlpha := by
            rw [List.takeWhile_append_of_pos (List.all_eq_true.mp halpha)]
            exact List.prefix_append _ _
          rw [List.all_eq_false]
          exact ⟨_, hmem, by simpa using hprefix⟩
      · next halpha =>
          have hword : (c :: w ++ t).takeWhile Char.isAlpha = (c :: w).takeWhile Char.isAlpha := by
            rw [List.takeWhile_append, if_neg]
            intro hlength
            have hself := (List.takeWhile_prefix (l := c :: w) Char.isAlpha).eq_of_length hlength
            exact halpha (List.all_eq_true.mpr (List.takeWhile_eq_self_iff.mp hself))
          rw [List.all_eq_false]
          exact ⟨_, hmem, by simpa using hword.symm⟩

end Composer.Arithmetic
