import Composer.Text.Phrase
import Mathlib.Data.List.TakeWhile
/-!
# Composer.Proofs.Text.Outline

**The outline of a text**: what is left of it when everything that readers of phrases take for the
same is written in the same way. Letters are folded, a run of blanks, hyphens and equals signs is
one space, a number is a nought that swallows the blanks after it, and an arrow of any spelling is
the word *to*. Reading from left to right, what a character adds depends only on the kind of
character before it, so the outline of a text begins with the outline of any beginning of it.
-/

namespace Composer.Text

/-! ### Characters -/

theorem isLower_iff {c : Char} : c.isLower = true ↔ 97 ≤ c.toNat ∧ c.toNat ≤ 122 := by
  change (decide ('a'.val ≤ c.val) && decide (c.val ≤ 'z'.val)) = true ↔ _
  rw [Bool.and_eq_true, decide_eq_true_eq, decide_eq_true_eq]
  exact Iff.rfl

theorem isUpper_iff {c : Char} : c.isUpper = true ↔ 65 ≤ c.toNat ∧ c.toNat ≤ 90 := by
  change decide ('A'.val ≤ c.val ∧ c.val ≤ 'Z'.val) = true ↔ _
  rw [decide_eq_true_eq]
  exact Iff.rfl

/-- Only capitals have another lower case in ASCII. -/
theorem toLower_eq_self {c : Char} (h : c.isUpper = false) : c.toLower = c :=
  dif_neg fun hc => by
    rw [isUpper_iff.mpr hc] at h
    cases h

theorem isUpper_of_isDigit {c : Char} (h : c.isDigit = true) : c.isUpper = false := by
  rw [Bool.eq_false_iff]
  intro hupper
  have hbound : c.toNat ≤ 57 := (Char.isDigit_iff_toNat.mp h).2
  have hfrom := (isUpper_iff.mp hupper).1
  omega

/-- What holds of the letters in lower case one by one holds of all of them. -/
theorem forall_lower {P : Char → Prop} (h : ∀ n < 26, P (Char.ofNat (97 + n))) {c : Char}
    (hc : c.isLower = true) : P c := by
  have hbounds := isLower_iff.mp hc
  have hcase := h (c.toNat - 97) (by omega)
  rwa [Nat.add_sub_of_le hbounds.1, Char.ofNat_toNat] at hcase

/-- What holds of the capitals one by one holds of all of them. -/
theorem forall_upper {P : Char → Prop} (h : ∀ n < 26, P (Char.ofNat (65 + n))) {c : Char}
    (hc : c.isUpper = true) : P c := by
  have hbounds := isUpper_iff.mp hc
  have hcase := h (c.toNat - 65) (by omega)
  rwa [Nat.add_sub_of_le hbounds.1, Char.ofNat_toNat] at hcase

/-- What holds of the letters one by one, in both cases, holds of all of them. -/
theorem forall_alpha {P : Char → Prop} (upper : ∀ n < 26, P (Char.ofNat (65 + n)))
    (lower : ∀ n < 26, P (Char.ofNat (97 + n))) {c : Char} (h : c.isAlpha = true) : P c := by
  rcases Bool.or_eq_true _ _ |>.mp h with h | h
  · exact forall_upper upper h
  · exact forall_lower lower h

/-- To know how a character and its lower case in ASCII are related it is enough to look at the
capitals and at what stays the same. -/
theorem toLower_induction {P : Char → Char → Prop} (same : ∀ c, P c c)
    (upper : ∀ n < 26, P (Char.ofNat (65 + n)) (Char.ofNat (97 + n))) (c : Char) :
    P c c.toLower := by
  by_cases hc : c.isUpper = true
  · have hlower : ∀ n < 26, (Char.ofNat (65 + n)).toLower = Char.ofNat (97 + n) := by decide
    refine forall_upper (P := fun c => P c c.toLower) (fun n hn => ?_) hc
    rw [hlower n hn]
    exact upper n hn
  · rw [toLower_eq_self (Bool.not_eq_true _ ▸ hc)]
    exact same c

/-- Two characters outside ASCII are folded too. -/
theorem fold_induction {P : Char → Char → Prop} (same : ∀ c, P c c)
    (upper : ∀ n < 26, P (Char.ofNat (65 + n)) (Char.ofNat (97 + n))) (kelvin : P '\u212A' 'k')
    (longS : P '\u017F' 's') (c : Char) : P c (fold c) := by
  by_cases hk : c = '\u212A'
  · subst hk
    exact kelvin
  · by_cases hs : c = '\u017F'
    · subst hs
      exact longS
    · rw [fold, if_neg hk, if_neg hs]
      exact toLower_induction same upper c

theorem toNat_of_isLower {c : Char} (h : c.isLower = true) : c.toNat < 0x80 :=
  lt_of_le_of_lt (isLower_iff.mp h).2 (by decide)

theorem fold_of_isLower {c : Char} (h : c.isLower = true) : fold c = c :=
  forall_lower (P := fun c => fold c = c) (by decide) h

/-- Nothing but letters is folded. -/
theorem fold_of_not_isKeywordLetter {c : Char} (h : isKeywordLetter c = false) : fold c = c :=
  fold_induction (P := fun c d => d.isLower = false → d = c) (fun _ _ => rfl) (by decide)
    (by decide) (by decide) c h

theorem fold_fold (c : Char) : fold (fold c) = fold c := by
  by_cases h : isKeywordLetter c = true
  · exact fold_of_isLower h
  · have hself : fold c = c := fold_of_not_isKeywordLetter (Bool.not_eq_true _ ▸ h)
    rw [hself, hself]

theorem isKeywordLetter_fold (c : Char) : isKeywordLetter (fold c) = isKeywordLetter c := by
  rw [isKeywordLetter, fold_fold, isKeywordLetter]

/-- The code points of the blanks outside ASCII. -/
def blankCodes : List Nat :=
  [0x85, 0xA0, 0x1680, 0x2028, 0x2029, 0x202F, 0x205F, 0x3000] ++ List.range' 0x2000 11

theorem mem_blankCodes {c : Char} (h : isBlank c = true) (hc : 0x80 ≤ c.toNat) :
    c.toNat ∈ blankCodes := by
  simp only [isBlank, Bool.or_eq_true, Bool.and_eq_true, decide_eq_true_eq, beq_iff_eq] at h
  simp only [blankCodes, List.mem_append, List.mem_cons, List.mem_range'_1, List.not_mem_nil]
  omega

/-- The code points outside ASCII of the characters in phrases: the long s, the Kelvin sign, the
arrow and the blanks. -/
def phraseCodes : List Nat :=
  0x17F :: 0x212A :: 0x2192 :: blankCodes

/-- None of these characters is a digit. -/
theorem not_isDecimalDigit {c : Char} (h : c.toNat ∈ phraseCodes) : isDecimalDigit c = false := by
  have hranges : ∀ n ∈ phraseCodes, 0x80 ≤ n ∧
      (decimalDigitRanges.any fun r => decide (r.1 ≤ n) && decide (n ≤ r.2)) = false := by
    decide +kernel
  obtain ⟨hc, hany⟩ := hranges _ h
  have hdigit : c.isDigit = false := by
    rw [Bool.eq_false_iff]
    intro hdigit
    rw [Char.isDigit, Bool.and_eq_true, decide_eq_true_eq, decide_eq_true_eq] at hdigit
    have : c.toNat ≤ 57 := UInt32.le_iff_toNat_le.mp hdigit.2
    omega
  rw [isDecimalDigit, hdigit, Bool.false_or, inRanges, hany, Bool.and_false]

/-- A character of a number. -/
def inNumber (c : Char) : Bool :=
  isDecimalDigit c || c = '.' || c = ','

/-- A character that stands between words. -/
def isSeparator (c : Char) : Bool :=
  isBlank c || c = '-' || c = '='

/-- A character that ends an arrow. -/
def isArrow (c : Char) : Bool :=
  c = '>' || c = '→'

/-! ### Outlines -/

/-- What the last character before a position was. -/
inductive Spot where
  /-- It stood between words, or there is none. -/
  | gap
  /-- It belonged to a number. -/
  | number
  /-- It was any other one. -/
  | word
deriving DecidableEq

/-- The spot after a character. Letters come first, since most characters are letters. -/
def Spot.after (c : Char) : Spot :=
  if isKeywordLetter c then word
  else if isArrow c || isSeparator c then gap
  else if inNumber c then number
  else word

/-- The space that sets off a word; numbers swallow it. -/
def Spot.space : Spot → List Char
  | word => [' ']
  | _ => []

/-- The nought that stands for a number, unless one goes on. -/
def Spot.nought : Spot → List Char
  | number => []
  | _ => ['0']

/-- What a character adds to the outline. -/
def Spot.trace (p : Spot) (c : Char) : List Char :=
  if isKeywordLetter c then [fold c]
  else if isArrow c then p.space ++ ['t', 'o', ' ']
  else if isSeparator c then p.space
  else if inNumber c then p.nought
  else [fold c]

/-- The outline of a text that goes on at a spot. -/
def outlineFrom : Spot → List Char → List Char
  | _, [] => []
  | p, c :: s => p.trace c ++ outlineFrom (Spot.after c) s

/-- The spot after a text. -/
def Spot.afterAll : Spot → List Char → Spot
  | p, [] => p
  | _, c :: s => afterAll (after c) s

/-- The outline of a text. -/
def outline (s : List Char) : List Char :=
  outlineFrom .gap s

@[simp] theorem outlineFrom_nil (p : Spot) : outlineFrom p [] = [] := rfl

theorem outlineFrom_cons (p : Spot) (c : Char) (s : List Char) :
    outlineFrom p (c :: s) = p.trace c ++ outlineFrom (Spot.after c) s := rfl

theorem outlineFrom_append (p : Spot) (s r : List Char) :
    outlineFrom p (s ++ r) = outlineFrom p s ++ outlineFrom (p.afterAll s) r := by
  induction s generalizing p with
  | nil => rfl
  | cons c s ih =>
      rw [List.cons_append, outlineFrom_cons, outlineFrom_cons, ih, List.append_assoc]
      rfl

/-- The outline of a beginning is a beginning of the outline. -/
theorem outlineFrom_mono {s r : List Char} (h : s <+: r) (p : Spot) :
    outlineFrom p s <+: outlineFrom p r := by
  obtain ⟨t, rfl⟩ := h
  rw [outlineFrom_append]
  exact List.prefix_append _ _

/-! ### What an outline does not tell -/

theorem Spot.after_fold (c : Char) : after (fold c) = after c := by
  by_cases h : isKeywordLetter c = true
  · rw [after, after, isKeywordLetter_fold, if_pos h, if_pos h]
  · rw [fold_of_not_isKeywordLetter (Bool.not_eq_true _ ▸ h)]

theorem Spot.trace_fold (p : Spot) (c : Char) : p.trace (fold c) = p.trace c := by
  by_cases h : isKeywordLetter c = true
  · rw [trace, trace, isKeywordLetter_fold, if_pos h, if_pos h, fold_fold]
  · rw [fold_of_not_isKeywordLetter (Bool.not_eq_true _ ▸ h)]

/-- The case of letters does not show. -/
theorem outlineFrom_map_fold (p : Spot) (s : List Char) :
    outlineFrom p (s.map fold) = outlineFrom p s := by
  induction s generalizing p with
  | nil => rfl
  | cons c s ih => rw [List.map_cons, outlineFrom_cons, Spot.trace_fold, Spot.after_fold, ih]; rfl

theorem Spot.afterAll_map_fold (p : Spot) (s : List Char) :
    p.afterAll (s.map fold) = p.afterAll s := by
  induction s generalizing p with
  | nil => rfl
  | cons c s ih => rw [List.map_cons, afterAll, after_fold, ih]; rfl

theorem outlineFrom_map_fold_append (p : Spot) (s r : List Char) :
    outlineFrom p (s.map fold ++ r) = outlineFrom p (s ++ r) := by
  rw [outlineFrom_append, outlineFrom_append, outlineFrom_map_fold, Spot.afterAll_map_fold]

/-- The spelling of arrows does not show. -/
theorem outlineFrom_spellArrows (p : Spot) (s : List Char) :
    outlineFrom p (spellArrows s) = outlineFrom p s := by
  induction s using spellArrows.induct generalizing p with
  | case1 s ih =>
      have hword : outlineFrom p [' ', 't', 'o', ' '] = outlineFrom p ['-', '>'] := by
        cases p <;> decide
      calc outlineFrom p (spellArrows ('-' :: '>' :: s))
          = outlineFrom p [' ', 't', 'o', ' '] ++ outlineFrom .gap (spellArrows s) := by
            rw [spellArrows]
            exact outlineFrom_append p [' ', 't', 'o', ' '] _
        _ = outlineFrom p ('-' :: '>' :: s) := by
            rw [hword, ih]
            exact (outlineFrom_append p ['-', '>'] s).symm
  | case2 s ih =>
      have hword : outlineFrom p [' ', 't', 'o', ' '] = outlineFrom p ['=', '>'] := by
        cases p <;> decide
      calc outlineFrom p (spellArrows ('=' :: '>' :: s))
          = outlineFrom p [' ', 't', 'o', ' '] ++ outlineFrom .gap (spellArrows s) := by
            rw [spellArrows]
            exact outlineFrom_append p [' ', 't', 'o', ' '] _
        _ = outlineFrom p ('=' :: '>' :: s) := by
            rw [hword, ih]
            exact (outlineFrom_append p ['=', '>'] s).symm
  | case3 c s hminus hequals ih =>
      rw [spellArrows, outlineFrom_cons, outlineFrom_cons, ih]
      · exact hminus
      · exact hequals
  | case4 => rfl

/-- A sign at the beginning does not show. -/
theorem outline_minus (s : List Char) : outline ('-' :: s) = outline s := by
  have htrace : Spot.gap.trace '-' = [] := by decide
  have hafter : Spot.after '-' = .gap := by decide
  rw [outline, outlineFrom_cons, htrace, hafter]
  rfl

/-! ### Letters -/

/-- A letter is of no other kind. -/
theorem of_isKeywordLetter {c : Char} (h : isKeywordLetter c = true) :
    isArrow c = false ∧ isBlank c = false ∧ inNumber c = false := by
  have hnumber {c : Char} (hc : c.toNat ∈ phraseCodes) : inNumber c = (c = '.' || c = ',') := by
    rw [inNumber, not_isDecimalDigit hc, Bool.false_or]
  refine fold_induction (P := fun c d => d.isLower = true →
    isArrow c = false ∧ isBlank c = false ∧ inNumber c = false) (fun c hc => ?_) (by decide)
    (fun _ => ?_) (fun _ => ?_) c h
  · exact forall_lower (P := fun c => isArrow c = false ∧ isBlank c = false ∧ inNumber c = false)
      (by decide) hc
  · rw [hnumber (by decide)]
    decide
  · rw [hnumber (by decide)]
    decide

/-- Letters are their own outline, but for their case. -/
theorem outlineFrom_letters {w : List Char} (h : ∀ c ∈ w, isKeywordLetter c = true) (p : Spot) :
    outlineFrom p w = w.map fold ∧ (w ≠ [] → p.afterAll w = .word) := by
  induction w generalizing p with
  | nil => exact ⟨rfl, fun hne => absurd rfl hne⟩
  | cons c w ih =>
      have hc : isKeywordLetter c = true := h c List.mem_cons_self
      obtain ⟨ho, hafter⟩ := ih (fun d hd => h d (List.mem_cons_of_mem c hd)) .word
      have hspot : Spot.after c = .word := if_pos hc
      have htrace : p.trace c = [fold c] := if_pos hc
      rw [outlineFrom_cons, hspot, htrace, ho, Spot.afterAll, hspot]
      refine ⟨rfl, fun _ => ?_⟩
      cases w with
      | nil => rfl
      | cons d w => exact hafter (by simp)

/-! ### Blanks -/

theorem not_isKeywordLetter_of_isBlank {c : Char} (h : isBlank c = true) :
    isKeywordLetter c = false := by
  rw [Bool.eq_false_iff]
  intro hletter
  rw [(of_isKeywordLetter hletter).2.1] at h
  cases h

theorem Spot.after_of_isBlank {c : Char} (h : isBlank c = true) : after c = gap := by
  simp [after, not_isKeywordLetter_of_isBlank h, isSeparator, h]

theorem Spot.trace_of_isBlank {c : Char} (h : isBlank c = true) (p : Spot) :
    p.trace c = p.space := by
  have harrow : isArrow c = false := by
    rw [isArrow, Bool.or_eq_false_iff, decide_eq_false_iff_not, decide_eq_false_iff_not]
    constructor <;> rintro rfl <;> cases h
  simp [trace, not_isKeywordLetter_of_isBlank h, harrow, isSeparator, h]

/-- Blanks count as one, and as none at the beginning and after a number. -/
theorem outlineFrom_blanks {ws : List Char} (h : ∀ c ∈ ws, isBlank c = true) (hne : ws ≠ [])
    (p : Spot) (s : List Char) : outlineFrom p (ws ++ s) = p.space ++ outlineFrom .gap s := by
  induction ws generalizing p with
  | nil => exact absurd rfl hne
  | cons c ws ih =>
      have hc : isBlank c = true := h c List.mem_cons_self
      rw [List.cons_append, outlineFrom_cons, Spot.trace_of_isBlank hc, Spot.after_of_isBlank hc]
      cases ws with
      | nil => rfl
      | cons d ws =>
          rw [ih (fun e he => h e (List.mem_cons_of_mem c he)) (by simp) .gap]
          rfl

theorem outline_blanks {ws : List Char} (h : ∀ c ∈ ws, isBlank c = true) (s : List Char) :
    outline (ws ++ s) = outline s := by
  cases ws with
  | nil => rfl
  | cons c ws => exact outlineFrom_blanks h (by simp) .gap s

theorem trimStart_eq (s : List Char) :
    ∃ ws, (∀ c ∈ ws, isBlank c = true) ∧ s = ws ++ trimStart s :=
  ⟨s.takeWhile isBlank, fun _ hc => List.mem_takeWhile_imp hc, List.takeWhile_append_dropWhile.symm⟩

theorem dropEndWhile_eq (p : Char → Bool) (s : List Char) :
    ∃ r, (∀ c ∈ r, p c = true) ∧ s = dropEndWhile p s ++ r := by
  refine ⟨(s.reverse.takeWhile p).reverse, fun c hc => ?_, ?_⟩
  · exact List.mem_takeWhile_imp (List.mem_reverse.mp hc)
  · rw [dropEndWhile, ← List.reverse_append, List.takeWhile_append_dropWhile, List.reverse_reverse]

/-- Trimming takes blanks off both ends. -/
theorem trim_eq (s : List Char) :
    ∃ ws ws', (∀ c ∈ ws, isBlank c = true) ∧ (∀ c ∈ ws', isBlank c = true) ∧
      s = ws ++ trim s ++ ws' := by
  obtain ⟨ws, hws, hs⟩ := trimStart_eq s
  obtain ⟨ws', hws', hs'⟩ := dropEndWhile_eq isBlank (trimStart s)
  refine ⟨ws, ws', hws, hws', ?_⟩
  calc s = ws ++ trimStart s := hs
    _ = ws ++ (trim s ++ ws') := congrArg (ws ++ ·) hs'
    _ = ws ++ trim s ++ ws' := (List.append_assoc _ _ _).symm

/-- Nothing is trimmed off a text without blanks. -/
theorem trim_eq_self {s : List Char} (h : ∀ c ∈ s, isBlank c = false) : trim s = s := by
  obtain ⟨ws, ws', hws, hws', hs⟩ := trim_eq s
  have hnone (t : List Char) (ht : ∀ c ∈ t, isBlank c = true) (hsub : ∀ c ∈ t, c ∈ s) : t = [] := by
    refine List.eq_nil_iff_forall_not_mem.mpr fun c hc => ?_
    have hblank := ht c hc
    rw [h c (hsub c hc)] at hblank
    cases hblank
  have hleft : ws = [] := hnone ws hws fun c hc => by rw [hs]; simp [hc]
  have hright : ws' = [] := hnone ws' hws' fun c hc => by rw [hs]; simp [hc]
  rw [hleft, hright, List.nil_append, List.append_nil] at hs
  exact hs.symm

/-- Nor off one that neither begins nor ends with a blank. -/
theorem trim_of_ends {s : List Char} {c d : Char} (hhead : s.head? = some c)
    (hc : isBlank c = false) (hlast : s.getLast? = some d) (hd : isBlank d = false) :
    trim s = s := by
  obtain ⟨t, ht⟩ := List.head?_eq_some_iff.mp hhead
  obtain ⟨r, hr⟩ := List.getLast?_eq_some_iff.mp hlast
  have hstart : trimStart s = s := by
    rw [trimStart, ht, List.dropWhile_cons_of_neg (by simp [hc])]
  have hend : trimEnd s = s := by
    rw [trimEnd, dropEndWhile, hr, List.reverse_append, List.reverse_singleton,
      List.singleton_append, List.dropWhile_cons_of_neg (by simp [hd]), List.reverse_cons,
      List.reverse_reverse]
  rw [trim, hstart, hend]

theorem outline_trim_isPrefix (s : List Char) : outline (trim s) <+: outline s := by
  obtain ⟨ws, ws', hws, -, hs⟩ := trim_eq s
  have hout : outline s = outline (trim s ++ ws') := by
    refine (congrArg outline hs).trans ?_
    rw [List.append_assoc, outline_blanks hws]
  rw [hout]
  exact outlineFrom_mono (List.prefix_append _ _) .gap

end Composer.Text
