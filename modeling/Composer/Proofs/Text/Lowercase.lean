import Composer.Proofs.Text.Outline
import Composer.Text.Lowercase
/-!
# Composer.Proofs.Text.Lowercase

**Lowercase and folding.** The names that typed texts are compared with are in lower case, and
hardly any of their characters is the lower case of a character outside ASCII. So a text whose
lower case is such a name is that name but for the case of its letters, the Kelvin sign included.
-/

namespace Composer.Text

/-- A character that is the lower case of no character outside ASCII but the Kelvin sign. -/
def isPlain (c : Char) : Bool :=
  c.toNat < 0x80 || isBlank c || c = '°' || c = '²'

/-- The code points of the plain characters outside ASCII. -/
def plainCodes : List Nat :=
  0xB0 :: 0xB2 :: blankCodes

theorem toNat_of_isPlain {c : Char} (h : isPlain c = true) :
    c.toNat < 0x80 ∨ c.toNat ∈ plainCodes := by
  by_cases hc : c.toNat < 0x80
  · exact Or.inl hc
  · refine Or.inr ?_
    simp only [isPlain, Bool.or_eq_true, decide_eq_true_eq] at h
    rcases h with ((h | h) | rfl) | rfl
    · exact absurd h hc
    · exact List.mem_cons_of_mem _ (List.mem_cons_of_mem _ (mem_blankCodes h (by omega)))
    · decide
    · decide

/-- No run but that of the Kelvin sign reaches a plain character. -/
theorem caseRuns_spec : ∀ r ∈ caseRuns,
    (r.first = 0x212A ∧ r.last = 0x212A ∧ r.target = 'k'.toNat) ∨
    (0x80 ≤ r.target ∧ (r.target + (r.last - r.first) < 0xD800 ∨ 0xDFFF < r.target) ∧
      r.target + (r.last - r.first) < 0x110000 ∧
      ∀ n ∈ plainCodes, n < r.target ∨ r.target + (r.last - r.first) < n) := by
  decide +kernel

/-- A lower case that is plain is the folded character. -/
theorem eq_fold_of_lower? {r : CaseRun} (hr : r ∈ caseRuns) {c d : Char}
    (h : r.lower? c.toNat = some d) (hd : isPlain d = true) : d = fold c := by
  rw [CaseRun.lower?] at h
  split at h
  · next hc =>
      obtain ⟨hfirst, hlast, -⟩ := hc
      rcases caseRuns_spec r hr with ⟨h1, h2, h3⟩ | ⟨hascii, hvalid, hbound, hplain⟩
      · -- The only sign outside ASCII with a letter of ASCII as its lower case.
        have hkelvin : c = '\u212A' := by
          rw [← Char.ofNat_toNat c, show c.toNat = 0x212A by omega]
        rw [h1, h3, hkelvin] at h
        rw [hkelvin, ← Option.some.inj h]
        decide
      · -- The other runs lead past all plain characters.
        exfalso
        have hnat : d.toNat = r.target + (c.toNat - r.first) := by
          have hchar : (r.target + (c.toNat - r.first)).isValidChar := by
            rw [Nat.isValidChar]
            omega
          rw [← Option.some.inj h, Char.ofNat, dif_pos hchar]
          rfl
        rcases toNat_of_isPlain hd with hd | hd
        · omega
        · have := hplain _ hd
          omega
  · cases h

/-- Nothing else outside ASCII is folded. -/
theorem fold_eq_self {c : Char} (h : 0x80 ≤ c.toNat) (hk : c ≠ '\u212A') (hs : c ≠ '\u017F') :
    fold c = c := by
  rw [fold, if_neg hk, if_neg hs]
  refine toLower_eq_self (Bool.eq_false_iff.mpr fun hupper => ?_)
  have := (isUpper_iff.mp hupper).2
  omega

theorem lowerChar_of_isPlain {c : Char} (h : ∀ d ∈ lowerChar c, isPlain d = true) :
    lowerChar c = [fold c] := by
  by_cases hascii : c.toNat < 0x80
  · have hk : c ≠ '\u212A' := by rintro rfl; revert hascii; decide
    have hs : c ≠ '\u017F' := by rintro rfl; revert hascii; decide
    rw [lowerChar, if_pos hascii, fold, if_neg hk, if_neg hs]
  · rw [lowerChar, if_neg hascii] at h ⊢
    split
    · next hdot =>
        -- The capital with a dot becomes a letter and a dot, which is not plain.
        rw [if_pos hdot] at h
        exact absurd (h '\u0307' (by simp)) (by decide)
    · next hdot =>
        rw [if_neg hdot] at h
        have hplain := h _ (List.mem_singleton_self _)
        cases hrun : caseRuns.findSome? (·.lower? c.toNat) with
        | some d =>
            rw [hrun] at hplain
            obtain ⟨r, hr, hlower⟩ := Array.exists_of_findSome?_eq_some hrun
            exact congrArg (fun d => [d]) (eq_fold_of_lower? hr hlower hplain)
        | none =>
            rw [hrun] at hplain
            have hk : c ≠ '\u212A' := by rintro rfl; revert hplain; decide
            have hs : c ≠ '\u017F' := by rintro rfl; revert hplain; decide
            rw [fold_eq_self (by omega) hk hs]
            rfl

/-! ### Plain texts -/

theorem isPlain_of_isBlank {c : Char} (h : isBlank c = true) : isPlain c = true := by
  simp [isPlain, h]

theorem isPlain_of_isDigit {c : Char} (h : c.isDigit = true) : isPlain c = true := by
  have hbound : c.toNat ≤ 57 := (Char.isDigit_iff_toNat.mp h).2
  have hascii : c.toNat < 0x80 := by omega
  simp [isPlain, hascii]

theorem isPlain_of_toLower {c : Char} (h : isPlain c.toLower = true) : isPlain c = true := by
  by_cases hupper : c.isUpper = true
  · exact forall_upper (P := fun c => isPlain c = true) (by decide) hupper
  · rwa [toLower_eq_self (Bool.not_eq_true _ ▸ hupper)] at h

/-- A blank has no other case. -/
theorem isBlank_toLower (c : Char) : isBlank c.toLower = isBlank c :=
  toLower_induction (P := fun c d => isBlank d = isBlank c) (fun _ => rfl) (by decide) c

/-- No run begins at a plain character. -/
theorem caseRuns_plainCodes : ∀ r ∈ caseRuns, ∀ n ∈ plainCodes, r.lower? n = none := by
  decide +kernel

/-- The lower case of a plain character is that of ASCII. -/
theorem lowerChar_eq_toLower {c : Char} (h : isPlain c = true) : lowerChar c = [c.toLower] := by
  by_cases hascii : c.toNat < 0x80
  · rw [lowerChar, if_pos hascii]
  · have hcode : c.toNat ∈ plainCodes := (toNat_of_isPlain h).resolve_left hascii
    have hdot : c ≠ '\u0130' := by
      rintro rfl
      revert h
      decide
    have hupper : c.isUpper = false := by
      rw [Bool.eq_false_iff]
      intro hupper
      have hbounds := isUpper_iff.mp hupper
      omega
    have hrun : caseRuns.findSome? (·.lower? c.toNat) = none := by
      rw [Array.findSome?_eq_none_iff]
      exact fun r hr => caseRuns_plainCodes r hr _ hcode
    rw [lowerChar, if_neg hascii, if_neg hdot, hrun, toLower_eq_self hupper]
    rfl

/-- A plain text is put into lower case as in ASCII. -/
theorem lower_eq_map_toLower {s : List Char} (h : ∀ c ∈ s, isPlain c = true) :
    lower s = s.map Char.toLower := by
  have hafter : ∀ before, lowerAfter before s = s.map Char.toLower := by
    induction s with
    | nil => exact fun _ => rfl
    | cons c s ih =>
        obtain ⟨hc, hs⟩ := List.forall_mem_cons.mp h
        have hsigma : c ≠ '\u03A3' := by
          rintro rfl
          revert hc
          decide
        intro before
        rw [lowerAfter, if_neg hsigma, lowerChar_eq_toLower hc, ih hs]
        rfl
  exact hafter []

/-! ### Texts with a plain lower case -/

/-- Lower case comes from the characters one by one, but for the sigmas. -/
theorem exists_of_mem_lower {s : List Char} {d : Char} (h : d ∈ lower s) :
    d = '\u03C2' ∨ d = '\u03C3' ∨ ∃ c ∈ s, d ∈ lowerChar c := by
  have hafter : ∀ before, d ∈ lowerAfter before s →
      d = '\u03C2' ∨ d = '\u03C3' ∨ ∃ c ∈ s, d ∈ lowerChar c := by
    clear h
    induction s with
    | nil => exact fun _ h => by cases h
    | cons c s ih =>
        intro before h
        rw [lowerAfter, List.mem_append] at h
        rcases h with h | h
        · split at h
          · split at h
            · exact Or.inl (List.mem_singleton.mp h)
            · exact Or.inr (Or.inl (List.mem_singleton.mp h))
          · exact Or.inr (Or.inr ⟨c, List.mem_cons_self, h⟩)
        · rcases ih _ h with h | h | ⟨c', hc', h⟩
          · exact Or.inl h
          · exact Or.inr (Or.inl h)
          · exact Or.inr (Or.inr ⟨c', List.mem_cons_of_mem c hc', h⟩)
  exact hafter [] h

/-- What is no sigma keeps its lower case. -/
theorem mem_lower_of_mem {s : List Char} {c d : Char} (h : c ∈ s) (hsigma : c ≠ '\u03A3')
    (hd : d ∈ lowerChar c) : d ∈ lower s := by
  have hafter : ∀ before, d ∈ lowerAfter before s := by
    induction s with
    | nil => cases h
    | cons e s ih =>
        intro before
        rw [lowerAfter, List.mem_append]
        rcases List.mem_cons.mp h with rfl | h
        · rw [if_neg hsigma]
          exact Or.inl hd
        · exact Or.inr (ih h _)
  exact hafter []

/-- A text with a plain lower case is lower case but for the case of its letters. -/
theorem lower_eq_map_fold {s : List Char} (h : ∀ c ∈ lower s, isPlain c = true) :
    lower s = s.map fold := by
  have hafter : ∀ before, (∀ c ∈ lowerAfter before s, isPlain c = true) →
      lowerAfter before s = s.map fold := by
    clear h
    induction s with
    | nil => exact fun _ _ => rfl
    | cons c s ih =>
        intro before h
        rw [lowerAfter] at h ⊢
        rw [ih _ fun d hd => h d (List.mem_append_right _ hd)]
        split at h
        · -- Neither lower case of the sigma is plain.
          split at h
          · exact absurd (h '\u03C2' (by simp)) (by decide)
          · exact absurd (h '\u03C3' (by simp)) (by decide)
        · next hsigma =>
            rw [if_neg hsigma,
              lowerChar_of_isPlain fun d hd => h d (List.mem_append_left _ hd)]
            rfl
  exact hafter [] h

/-! ### Texts without a sigma -/

/-- Only the lower case of a sigma depends on what stands around it. -/
theorem lower_eq_flatMap {s : List Char} (h : '\u03A3' ∉ s) : lower s = s.flatMap lowerChar := by
  have hafter : ∀ before, lowerAfter before s = s.flatMap lowerChar := by
    induction s with
    | nil => exact fun _ => rfl
    | cons c s ih =>
        rw [List.mem_cons, not_or] at h
        intro before
        rw [lowerAfter, if_neg (Ne.symm h.1), ih h.2, List.flatMap_cons]
  exact hafter []

/-- A text with a plain lower case has no sigma. -/
theorem sigma_not_mem {s : List Char} (h : ∀ c ∈ lower s, isPlain c = true) : '\u03A3' ∉ s := by
  rw [lower_eq_map_fold h] at h
  intro hsigma
  have hfold : isPlain (fold '\u03A3') = true := h _ (List.mem_map_of_mem hsigma)
  revert hfold
  decide

/-- Texts with a plain lower case are put into lower case one after the other. -/
theorem lower_append {s r : List Char} (hs : ∀ c ∈ lower s, isPlain c = true)
    (hr : ∀ c ∈ lower r, isPlain c = true) : lower (s ++ r) = lower s ++ lower r := by
  have hsigma : '\u03A3' ∉ s ++ r := by
    rw [List.mem_append, not_or]
    exact ⟨sigma_not_mem hs, sigma_not_mem hr⟩
  rw [lower_eq_flatMap hsigma, lower_eq_flatMap (sigma_not_mem hs),
    lower_eq_flatMap (sigma_not_mem hr), List.flatMap_append]

/-- The beginning of a text with a plain lower case is put into lower case as it is there. -/
theorem lower_isPrefix {s r : List Char} (hr : ∀ c ∈ lower r, isPlain c = true) (h : s <+: r) :
    lower s <+: lower r := by
  obtain ⟨t, rfl⟩ := h
  have hsigma := sigma_not_mem hr
  rw [lower_eq_flatMap hsigma, List.flatMap_append]
  rw [List.mem_append, not_or] at hsigma
  rw [lower_eq_flatMap hsigma.1]
  exact List.prefix_append _ _

end Composer.Text
