import Composer.Proofs.Decimal.Digits
import Composer.Proofs.Detection.Amounts
import Composer.Proofs.Text.Trim
/-!
# Composer.Proofs.Measure.Amount

**Amounts are read to their end.** An amount is a whole number, in which commas may group the digits,
with a fraction or without, or it is a fraction alone; a minus sign may stand in front
(`WritesAmount`). Where no part of a number follows, all of it is taken, and it is read as the double
that is nearest to what is written.
-/

namespace Composer.Measure

open Text

/-! ### What amounts look like -/

/-- Digits and commas, of which a digit comes first. -/
def IsGrouped (whole : List Char) : Prop :=
  (∀ c ∈ whole.head?, c.isDigit = true) ∧ ∀ c ∈ whole, inAmount c = true

/-- The number that the digits among some characters write. -/
def digitsValue (s : List Char) : Nat :=
  Decimal.foldDigits 0 (s.filter Char.isDigit)

/-- A number without a sign: its digits as a whole number, and how many of them are behind the
point. -/
inductive WritesMagnitude : Nat → Nat → List Char → Prop where
  /-- A whole number. -/
  | whole {w : List Char} (grouped : IsGrouped w) (ne : w ≠ []) :
      WritesMagnitude (digitsValue w) 0 w
  /-- A fraction, perhaps with a whole number in front. -/
  | point {w part : List Char} (grouped : IsGrouped w) (digits : ∀ c ∈ part, c.isDigit = true)
      (ne : part ≠ []) : WritesMagnitude (digitsValue (w ++ part)) part.length (w ++ '.' :: part)

/-- An amount and the double that is nearest to it. -/
inductive WritesAmount : Float → List Char → Prop where
  /-- Without a sign. -/
  | plain {m places : Nat} {s : List Char} (h : WritesMagnitude m places s) :
      WritesAmount (Decimal.nearest m (-places)) s
  /-- With a minus sign. -/
  | minus {m places : Nat} {s : List Char} (h : WritesMagnitude m places s) :
      WritesAmount (-Decimal.nearest m (-places)) ('-' :: s)

theorem WritesMagnitude.exists_cons {m places : Nat} {s : List Char}
    (h : WritesMagnitude m places s) : ∃ c r, s = c :: r ∧ (c.isDigit = true ∨ c = '.') := by
  cases h with
  | whole hgrouped hne =>
      obtain ⟨c, r, rfl⟩ := List.exists_cons_of_ne_nil hne
      exact ⟨c, r, rfl, Or.inl (hgrouped.1 c rfl)⟩
  | @point w part hgrouped =>
      cases w with
      | nil => exact ⟨'.', part, rfl, Or.inr rfl⟩
      | cons c w => exact ⟨c, _, rfl, Or.inl (hgrouped.1 c rfl)⟩

theorem WritesMagnitude.inNumber {m places : Nat} {s : List Char} (h : WritesMagnitude m places s) :
    ∀ c ∈ s, inNumber c = true := by
  cases h with
  | whole hgrouped => exact fun c hc => Detection.inNumber_of_inAmount (hgrouped.2 c hc)
  | point hgrouped hdigits =>
      intro c hc
      rcases List.mem_append.mp hc with hc | hc
      · exact Detection.inNumber_of_inAmount (hgrouped.2 c hc)
      · rcases List.mem_cons.mp hc with rfl | hc
        · rfl
        · exact Detection.inNumber_of_isDigit (hdigits c hc)

/-- An amount has a first character, a minus sign or part of the number. -/
theorem WritesAmount.exists_cons {x : Float} {n : List Char} (h : WritesAmount x n) :
    ∃ c r, n = c :: r ∧ (c = '-' ∨ inNumber c = true) ∧ ∀ d ∈ r, inNumber d = true := by
  cases h with
  | plain h =>
      obtain ⟨c, r, rfl, -⟩ := h.exists_cons
      obtain ⟨hc, hr⟩ := List.forall_mem_cons.mp h.inNumber
      exact ⟨c, r, rfl, Or.inr hc, hr⟩
  | minus h => exact ⟨'-', _, rfl, Or.inl rfl, h.inNumber⟩

/-! ### The reading of an amount -/

/-- The number behind the sign of an amount. -/
def magnitude {β : Type} (k : List Char → Reading β) (sign : List Char) : Reading β
  | [] => none
  | c :: r =>
    if c.isDigit then
      Detection.fractionAfter k (sign ++ c :: r.takeWhile inAmount) (r.dropWhile inAmount) <|>
        k (sign ++ c :: r.takeWhile inAmount) (r.dropWhile inAmount)
    else Detection.fractionAfter k sign (c :: r)

section

variable {β : Type} {k : List Char → Reading β}

theorem amount_minus (s : List Char) : amount k ('-' :: s) = magnitude k ['-'] s := by
  cases s <;> rfl

theorem amount_of_ne_minus {c : Char} (h : c ≠ '-') (s : List Char) :
    amount k (c :: s) = magnitude k [] (c :: s) := by
  unfold amount
  split
  next sign r hsplit =>
  split at hsplit
  · next heq => exact absurd (List.cons.inj heq).1 h
  · obtain ⟨rfl, rfl⟩ := Prod.mk.inj hsplit
    rfl

theorem fractionAfter_append {part r : List Char} (hdigits : ∀ c ∈ part, c.isDigit = true)
    (hne : part ≠ []) (hr : ∀ c ∈ r.head?, c.isDigit = false) (whole : List Char) :
    Detection.fractionAfter k whole ('.' :: (part ++ r)) = k (whole ++ '.' :: part) r := by
  obtain ⟨htake, hdrop⟩ := takeWhile_append_of_stop hdigits hr
  rw [Detection.fractionAfter, htake, hdrop]
  cases part with
  | nil => exact absurd rfl hne
  | cons => rfl

theorem fractionAfter_of_ne_point {r : List Char} (hr : ∀ c ∈ r.head?, c ≠ '.')
    (whole : List Char) : Detection.fractionAfter k whole r = none := by
  unfold Detection.fractionAfter
  split
  · exact absurd rfl (hr '.' rfl)
  · rfl

theorem of_not_inNumber {c : Char} (h : inNumber c = false) :
    c ≠ '.' ∧ c.isDigit = false ∧ inAmount c = false := by
  have hamount : inAmount c = false := by
    rw [Bool.eq_false_iff]
    intro hin
    rw [Detection.inNumber_of_inAmount hin] at h
    cases h
  refine ⟨?_, (Bool.or_eq_false_iff.mp hamount).1, hamount⟩
  intro hpoint
  subst hpoint
  cases h

/-- The number behind the sign is taken to its end if the text can go on there. -/
theorem magnitude_append {m places : Nat} {s r : List Char} {b : β} (h : WritesMagnitude m places s)
    (hr : ∀ c ∈ r.head?, inNumber c = false) {sign : List Char} (hk : k (sign ++ s) r = some b) :
    magnitude k sign (s ++ r) = some b := by
  have hpoint : ∀ c ∈ r.head?, c ≠ '.' := fun c hc => (of_not_inNumber (hr c hc)).1
  have hdigit : ∀ c ∈ r.head?, c.isDigit = false := fun c hc => (of_not_inNumber (hr c hc)).2.1
  have hgroup : ∀ c ∈ r.head?, inAmount c = false := fun c hc => (of_not_inNumber (hr c hc)).2.2
  cases h with
  | @whole w hgrouped hne =>
      obtain ⟨d, ds, rfl⟩ := List.exists_cons_of_ne_nil hne
      obtain ⟨-, hds⟩ := List.forall_mem_cons.mp hgrouped.2
      obtain ⟨htake, hdrop⟩ := takeWhile_append_of_stop hds hgroup
      rw [List.cons_append, magnitude, if_pos (hgrouped.1 d rfl), htake, hdrop,
        fractionAfter_of_ne_point hpoint, hk]
      rfl
  | @point w part hgrouped hdigits hne =>
      cases w with
      | nil =>
          rw [List.nil_append, List.cons_append, magnitude, if_neg (by decide),
            fractionAfter_append hdigits hne hdigit]
          exact hk
      | cons d ds =>
          obtain ⟨-, hds⟩ := List.forall_mem_cons.mp hgrouped.2
          have hstop : ∀ c ∈ ('.' :: (part ++ r)).head?, inAmount c = false := by
            intro c hc
            obtain rfl := Option.some.inj hc
            rfl
          obtain ⟨htake, hdrop⟩ := takeWhile_append_of_stop hds hstop
          have hnumber : sign ++ d :: ds ++ '.' :: part = sign ++ (d :: ds ++ '.' :: part) :=
            List.append_assoc _ _ _
          rw [List.append_assoc, List.cons_append, List.cons_append, magnitude,
            if_pos (hgrouped.1 d rfl), htake, hdrop, fractionAfter_append hdigits hne hdigit,
            hnumber, hk]
          rfl

/-- An amount is taken to its end if the text can go on there. -/
theorem amount_append {x : Float} {n r : List Char} {b : β} (h : WritesAmount x n)
    (hr : ∀ c ∈ r.head?, inNumber c = false) (hk : k n r = some b) :
    amount k (n ++ r) = some b := by
  cases h with
  | plain h =>
      have hread : magnitude k [] (_ ++ r) = some b := magnitude_append h hr hk
      obtain ⟨c, s, rfl, hc⟩ := h.exists_cons
      rw [List.cons_append] at hread ⊢
      rw [amount_of_ne_minus, hread]
      intro hminus
      subst hminus
      rcases hc with hc | hc <;> cases hc
  | minus h =>
      rw [List.cons_append, amount_minus]
      exact magnitude_append h hr hk

end

/-! ### The value of an amount -/

theorem filter_grouped {w : List Char} (h : IsGrouped w) :
    w.filter (fun c => c ≠ ',' && c ≠ '_') = w.filter Char.isDigit := by
  refine List.filter_congr fun c hc => ?_
  have hin := h.2 c hc
  rw [inAmount, Bool.or_eq_true, decide_eq_true_eq] at hin
  rcases hin with hdigit | rfl
  · rw [hdigit]
    have hcomma : c ≠ ',' := by
      intro hcomma
      subst hcomma
      cases hdigit
    have hline : c ≠ '_' := by
      intro hline
      subst hline
      cases hdigit
    simp [hcomma, hline]
  · rfl

theorem filter_digits {part : List Char} (h : ∀ c ∈ part, c.isDigit = true) :
    part.filter (fun c => c ≠ ',' && c ≠ '_') = part ∧ part.filter Char.isDigit = part := by
  have hgrouped : IsGrouped part :=
    ⟨fun c hc => h c (List.mem_of_mem_head? hc), fun c hc => by simp [inAmount, h c hc]⟩
  rw [filter_grouped hgrouped, and_self]
  exact List.filter_eq_self.mpr h

/-- Digits without a word, a sign or a power of ten. -/
theorem magnitude?_digits {w part : List Char} (hw : ∀ c ∈ w, c.isDigit = true)
    (hpart : ∀ c ∈ part, c.isDigit = true) (hne : part ≠ []) :
    Decimal.magnitude? (w ++ '.' :: part) =
      some (Decimal.nearest (Decimal.foldDigits 0 (w ++ part)) (-part.length)) := by
  have hpoint : ∀ c ∈ ('.' :: part).head?, c.isDigit = false := by
    intro c hc
    obtain rfl := Option.some.inj hc
    rfl
  obtain ⟨htake, hdrop⟩ := takeWhile_append_of_stop hw hpoint
  have htake' : part.takeWhile Char.isDigit = part := List.takeWhile_eq_self_iff.mpr hpart
  have hdrop' : part.dropWhile Char.isDigit = [] := List.dropWhile_eq_nil_iff.mpr hpart
  simp [Decimal.magnitude?, htake, hdrop, htake', hdrop', hne, Decimal.power?]

theorem magnitude?_whole {w : List Char} (hw : ∀ c ∈ w, c.isDigit = true) (hne : w ≠ []) :
    Decimal.magnitude? w = some (Decimal.nearest (Decimal.foldDigits 0 w) 0) := by
  have htake : w.takeWhile Char.isDigit = w := List.takeWhile_eq_self_iff.mpr hw
  have hdrop : w.dropWhile Char.isDigit = [] := List.dropWhile_eq_nil_iff.mpr hw
  simp [Decimal.magnitude?, htake, hdrop, hne, Decimal.power?]

/-- What begins with a digit or a point is no word for a number. -/
theorem ofText?_of_isDigit {c : Char} (hc : c.isDigit = true ∨ c = '.') (s : List Char) :
    Decimal.ofText? (c :: s) = Decimal.magnitude? (c :: s) ∧
      Decimal.ofText? ('-' :: c :: s) = (Decimal.magnitude? (c :: s)).map fun x => -x := by
  have hchar {d : Char} (hd : d.isDigit = false ∧ d ≠ '.') : c ≠ d := by
    intro heq
    subst heq
    rcases hc with hc | hc
    · rw [hd.1] at hc
      cases hc
    · exact hd.2 hc
  have hlower : c.toLower = c := by
    rcases hc with hc | rfl
    · exact toLower_eq_self (isUpper_of_isDigit hc)
    · rfl
  have hword (word : String) {d : Char} (hd : d.isDigit = false ∧ d ≠ '.')
      (hhead : word.toList.head? = some d) :
      (String.ofList ((c :: s).map Char.toLower) == word) = false := by
    rw [beq_eq_false_iff_ne]
    intro heq
    rw [← heq, String.toList_ofList, List.map_cons, List.head?_cons, hlower] at hhead
    exact hchar hd (Option.some.inj hhead)
  have hinf := hword "inf" (d := 'i') (by decide) rfl
  have hinfinity := hword "infinity" (d := 'i') (by decide) rfl
  have hnan := hword "nan" (d := 'n') (by decide) rfl
  constructor
  · unfold Decimal.ofText?
    split
    next negative body hsplit =>
    split at hsplit
    · next heq => exact absurd (List.cons.inj heq).1 (hchar (d := '-') (by decide))
    · next heq => exact absurd (List.cons.inj heq).1 (hchar (d := '+') (by decide))
    · obtain ⟨rfl, rfl⟩ := Prod.mk.inj hsplit
      simp only [hinf, hinfinity, hnan, Bool.or_false, Bool.false_eq_true, if_false, Option.map_id']
  · simp only [Decimal.ofText?, hinf, hinfinity, hnan, Bool.or_false, Bool.false_eq_true, if_false,
      if_true]

theorem WritesMagnitude.magnitude? {m places : Nat} {s : List Char} (h : WritesMagnitude m places s) :
    ∃ c r, s.filter (fun c => c ≠ ',' && c ≠ '_') = c :: r ∧ (c.isDigit = true ∨ c = '.') ∧
      Decimal.magnitude? (c :: r) = some (Decimal.nearest m (-places)) := by
  cases h with
  | @whole w hgrouped hne =>
      obtain ⟨d, ds, rfl⟩ := List.exists_cons_of_ne_nil hne
      have hd : d.isDigit = true := hgrouped.1 d rfl
      have hall : ∀ c ∈ (d :: ds).filter Char.isDigit, c.isDigit = true := fun c hc =>
        (List.mem_filter.mp hc).2
      have hread := magnitude?_whole hall (by simp [hd])
      rw [filter_grouped hgrouped]
      rw [List.filter_cons_of_pos hd] at hread ⊢
      exact ⟨d, _, rfl, Or.inl hd, by simpa [digitsValue, hd] using hread⟩
  | @point w part hgrouped hdigits hne =>
      obtain ⟨hkept, hself⟩ := filter_digits hdigits
      have hall : ∀ c ∈ w.filter Char.isDigit, c.isDigit = true := fun c hc =>
        (List.mem_filter.mp hc).2
      have hread := magnitude?_digits hall hdigits hne
      have hvalue : digitsValue (w ++ part) =
          Decimal.foldDigits 0 (w.filter Char.isDigit ++ part) := by
        rw [digitsValue, List.filter_append, hself]
      have htext : (w ++ '.' :: part).filter (fun c => c ≠ ',' && c ≠ '_') =
          w.filter Char.isDigit ++ '.' :: part := by
        rw [List.filter_append, filter_grouped hgrouped, List.filter_cons_of_pos (by decide), hkept]
      rw [hvalue, htext]
      cases hw : w.filter Char.isDigit with
      | nil => exact ⟨'.', part, rfl, Or.inr rfl, by rw [hw] at hread; exact hread⟩
      | cons d ds =>
          rw [hw] at hall hread
          exact ⟨d, _, rfl, Or.inl (hall d List.mem_cons_self), hread⟩

/-- **An amount is read as what it writes**, unless that is too large for a double. -/
theorem WritesAmount.typed? {x : Float} {n : List Char} (h : WritesAmount x n)
    (hfinite : x.isFinite = true) : Decimal.typed? n = some x := by
  cases h with
  | plain h =>
      obtain ⟨c, r, htext, hc, hread⟩ := h.magnitude?
      rw [Decimal.typed?, htext, (ofText?_of_isDigit hc r).1, hread, Option.filter_some,
        if_pos hfinite]
  | minus h =>
      obtain ⟨c, r, htext, hc, hread⟩ := h.magnitude?
      rw [Decimal.typed?, List.filter_cons_of_pos (by decide), htext, (ofText?_of_isDigit hc r).2,
        hread, Option.map_some, Option.filter_some, if_pos hfinite]

end Composer.Measure
