import Composer.Proofs.Text.Outline
/-!
# Composer.Proofs.Text.Reading

**What the readings of phrases accept.** For every combinator there is one rule that says how the
texts begin which it accepts, from what the reading behind it accepts. The rules are used from the
beginning of a phrase to its end: what is left to show says which beginnings are still allowed
after the pieces that have been read.
-/

namespace Composer.Text

variable {β γ : Type} {p q : Spot} {H : β → List Char → Prop}

/-- Where a reading goes on at the spot `p`, the outlines of the texts that it accepts begin in a
way that `H` allows for its answer. -/
def Opens (p : Spot) (k : Reading β) (H : β → List Char → Prop) : Prop :=
  ∀ s b, k s = some b → ∃ o, H b o ∧ o <+: outlineFrom p s

/-! ### Pieces in a row -/

theorem Opens.end_ {b : β} (h : H b []) : Opens p (Text.stop b) H := by
  intro s b' hs
  cases s with
  | nil =>
      cases hs
      exact ⟨[], h, List.nil_prefix⟩
  | cons c s => cases hs

/-- Nothing has to be known of a text once enough of it has been read. -/
theorem Opens.stop {k : Reading β} (h : ∀ b, H b []) : Opens p k H :=
  fun _ b _ => ⟨[], h b, List.nil_prefix⟩

/-- What is known of all answers is enough. -/
theorem Opens.knowing {k : Reading β} {P : β → Prop} (hk : Opens p k fun b _ => P b)
    (h : ∀ b, P b → H b []) : Opens p k H := by
  intro s b hs
  obtain ⟨-, hb, -⟩ := hk s b hs
  exact ⟨[], h b hb, List.nil_prefix⟩

theorem Opens.textToEnd {k : List Char → Option β} (h : ∀ s b, k s = some b → H b []) :
    Opens p (Text.textToEnd k) H := by
  intro s b hs
  cases s with
  | nil => cases hs
  | cons c s => exact ⟨[], h _ b hs, List.nil_prefix⟩

/-- What is known of the text behind a piece is known of the whole text. -/
theorem Opens.append {taken rest : List Char} {k : Reading β} {b : β}
    (h : Opens (p.afterAll taken) k fun b o => H b (outlineFrom p taken ++ o))
    (hk : k rest = some b) : ∃ o, H b o ∧ o <+: outlineFrom p (taken ++ rest) := by
  obtain ⟨o, ho, hprefix⟩ := h rest b hk
  refine ⟨outlineFrom p taken ++ o, ho, ?_⟩
  rw [outlineFrom_append]
  exact (List.prefix_append_right_inj _).mpr hprefix

theorem Opens.map {k : Reading γ} {f : γ → β} (h : Opens p k fun c o => H (f c) o) :
    Opens p (fun s => (k s).map f) H := by
  intro s b hs
  obtain ⟨c, hc, rfl⟩ := Option.map_eq_some_iff.mp hs
  exact h s c hc

/-! ### Words -/

/-- The characters that were read for a word are the word but for their case. -/
theorem afterWord_eq_some {word s taken rest : List Char}
    (h : afterWord word s = some (taken, rest)) : s = taken ++ rest ∧ taken.map fold = word := by
  induction word generalizing s taken with
  | nil =>
      obtain ⟨rfl, rfl⟩ := Prod.mk.inj (Option.some.inj h)
      exact ⟨rfl, rfl⟩
  | cons w word ih =>
      cases s with
      | nil => cases h
      | cons c s =>
          rw [afterWord] at h
          split at h
          · next hc =>
              obtain ⟨⟨taken', rest'⟩, hafter, heq⟩ := Option.map_eq_some_iff.mp h
              obtain ⟨rfl, rfl⟩ := Prod.mk.inj heq
              obtain ⟨rfl, rfl⟩ := ih hafter
              exact ⟨rfl, by rw [List.map_cons, hc]⟩
          · cases h

theorem Opens.keyword {word : String} {k : Reading β}
    (h : Opens (p.afterAll word.toList) k fun b o => H b (outlineFrom p word.toList ++ o)) :
    Opens p (Text.keyword word k) H := by
  intro s b hs
  obtain ⟨⟨taken, rest⟩, hafter, hk⟩ := Option.bind_eq_some_iff.mp hs
  obtain ⟨rfl, hfold⟩ := afterWord_eq_some hafter
  rw [← hfold, outlineFrom_map_fold, Spot.afterAll_map_fold] at h
  exact h.append hk

theorem Opens.firstOf_nil : Opens p (Text.firstOf []) H :=
  fun _ _ hs => by cases hs

theorem Opens.firstOf_cons {way : Reading β} {ways : List (Reading β)} (h : Opens p way H)
    (hways : Opens p (Text.firstOf ways) H) : Opens p (Text.firstOf (way :: ways)) H := by
  intro s b hs
  rw [Text.firstOf, List.findSome?_cons] at hs
  split at hs
  · next heq =>
      cases hs
      exact h s b heq
  · exact hways s b hs

theorem Opens.keywordAmong {wordList : List String} {k : List Char → Reading β}
    (h : ∀ word ∈ wordList, ∀ taken,
      Opens (p.afterAll word.toList) (k taken) fun b o => H b (outlineFrom p word.toList ++ o)) :
    Opens p (Text.keywordAmong wordList k) H := by
  intro s b hs
  obtain ⟨word, hword, hb⟩ := List.exists_of_findSome?_eq_some hs
  obtain ⟨⟨taken, rest⟩, hafter, hk⟩ := Option.bind_eq_some_iff.mp hb
  obtain ⟨rfl, hfold⟩ := afterWord_eq_some hafter
  have hopens := h word hword taken
  rw [← hfold, outlineFrom_map_fold, Spot.afterAll_map_fold] at hopens
  exact hopens.append hk

theorem Opens.char {c : Char} {k : Reading β}
    (h : Opens (p.afterAll [c]) k fun b o => H b (outlineFrom p [c] ++ o)) :
    Opens p (Text.char c k) H := by
  intro s b hs
  cases s with
  | nil => cases hs
  | cons d s =>
      rw [Text.char] at hs
      split at hs
      · next hd =>
          subst hd
          exact h.append hs
      · cases hs

theorem Opens.optionally {piece : Reading β → Reading β} {k : Reading β}
    (hpiece : Opens p (piece k) H) (h : Opens p k H) : Opens p (Text.optionally piece k) H := by
  intro s b hs
  rw [Text.optionally, Option.orElse_eq_orElse, Option.orElse_eq_or, Option.or_eq_some_iff] at hs
  rcases hs with hs | ⟨-, hs⟩
  · exact hpiece s b hs
  · exact h s b hs

/-! ### Blanks -/

theorem blanks_eq_some {k : Reading β} {s : List Char} {b : β} (h : blanks k s = some b) :
    ∃ ws rest, (∀ c ∈ ws, isBlank c = true) ∧ ws ≠ [] ∧ s = ws ++ rest ∧ k rest = some b := by
  induction s with
  | nil => cases h
  | cons c s ih =>
      rw [blanks] at h
      split at h
      · next hc =>
          rw [Option.orElse_eq_orElse, Option.orElse_eq_or, Option.or_eq_some_iff] at h
          rcases h with h | ⟨-, h⟩
          · obtain ⟨ws, rest, hws, -, rfl, hk⟩ := ih h
            exact ⟨c :: ws, rest, List.forall_mem_cons.mpr ⟨hc, hws⟩, by simp, rfl, hk⟩
          · exact ⟨[c], s, by simpa using hc, by simp, rfl, h⟩
      · cases h

theorem Opens.blanks {k : Reading β} (h : Opens .gap k fun b o => H b (p.space ++ o)) :
    Opens p (Text.blanks k) H := by
  intro s b hs
  obtain ⟨ws, rest, hws, hne, rfl, hk⟩ := blanks_eq_some hs
  obtain ⟨o, ho, hprefix⟩ := h rest b hk
  refine ⟨p.space ++ o, ho, ?_⟩
  rw [outlineFrom_blanks hws hne]
  exact (List.prefix_append_right_inj _).mpr hprefix

theorem Opens.maybeBlanks {k : Reading β} (hblanks : Opens .gap k fun b o => H b (p.space ++ o))
    (h : Opens p k H) : Opens p (Text.maybeBlanks k) H :=
  .optionally (.blanks hblanks) h

/-! ### Runs of characters -/

theorem Opens.exactly {n : Nat} {class_ : Char → Bool} {k : List Char → Reading β}
    (h : ∀ taken, taken.length = n → (∀ c ∈ taken, class_ c = true) →
      Opens (p.afterAll taken) (k taken) fun b o => H b (outlineFrom p taken ++ o)) :
    Opens p (Text.exactly n class_ k) H := by
  intro s b hs
  rw [Text.exactly] at hs
  split at hs
  · next hc =>
      have hopens := (h (s.take n) hc.1 (List.all_eq_true.mp hc.2)).append hs
      rwa [List.take_append_drop] at hopens
  · cases hs

theorem Opens.run {class_ : Char → Bool} {size : Nat → Bool} {k : List Char → Reading β}
    (h : ∀ taken, size taken.length = true → (∀ c ∈ taken, class_ c = true) →
      Opens (p.afterAll taken) (k taken) fun b o => H b (outlineFrom p taken ++ o)) :
    Opens p (Text.run class_ size k) H := by
  intro s b hs
  rw [Text.run] at hs
  split at hs
  · next hsize =>
      have hopens := (h _ hsize fun c hc => List.mem_takeWhile_imp hc).append hs
      rwa [List.takeWhile_append_dropWhile] at hopens
  · cases hs

theorem shortest_eq_some {class_ : Char → Bool} {tail : Reading γ} {s taken : List Char} {b : γ}
    (h : shortest class_ tail s = some (taken, b)) :
    (∀ c ∈ taken, class_ c = true) ∧ ∃ rest, s = taken ++ rest ∧ tail rest = some b := by
  induction s generalizing taken with
  | nil => cases h
  | cons c s ih =>
      rw [shortest] at h
      split at h
      · next hc =>
          split at h
          · next b' htail =>
              obtain ⟨rfl, rfl⟩ := Prod.mk.inj (Option.some.inj h)
              exact ⟨by simpa using hc, s, rfl, htail⟩
          · obtain ⟨⟨taken', b'⟩, hshortest, heq⟩ := Option.map_eq_some_iff.mp h
            obtain ⟨rfl, rfl⟩ := Prod.mk.inj heq
            obtain ⟨hclass, rest, rfl, htail⟩ := ih hshortest
            exact ⟨List.forall_mem_cons.mpr ⟨hc, hclass⟩, rest, rfl, htail⟩
      · cases h

theorem Opens.shortest {class_ : Char → Bool} {tail : Reading γ}
    {H : List Char × γ → List Char → Prop}
    (h : ∀ taken, (∀ c ∈ taken, class_ c = true) →
      Opens (p.afterAll taken) tail fun b o => H (taken, b) (outlineFrom p taken ++ o)) :
    Opens p (Text.shortest class_ tail) H := by
  rintro s ⟨taken, b⟩ hs
  obtain ⟨hclass, rest, rfl, htail⟩ := shortest_eq_some hs
  obtain ⟨o, ho, hprefix⟩ := h taken hclass rest b htail
  refine ⟨outlineFrom p taken ++ o, ho, ?_⟩
  rw [outlineFrom_append]
  exact (List.prefix_append_right_inj _).mpr hprefix

/-! ### Numbers -/

/-- No blank is a digit of any script. -/
theorem isDecimalDigit_of_isBlank {c : Char} (h : isBlank c = true) :
    isDecimalDigit c = false := by
  by_cases hc : c.toNat < 0x80
  · have hdigit : c.isDigit = false := by
      rw [Bool.eq_false_iff]
      intro hdigit
      simp only [isBlank, Bool.or_eq_true, Bool.and_eq_true, decide_eq_true_eq, beq_iff_eq] at h
      simp only [Char.isDigit, Bool.and_eq_true, decide_eq_true_eq, ge_iff_le,
        UInt32.le_iff_toNat_le] at hdigit
      have hbounds : 48 ≤ c.toNat ∧ c.toNat ≤ 57 := hdigit
      omega
    rw [isDecimalDigit, hdigit, Bool.false_or, decide_eq_false (by omega), Bool.false_and]
  · have hcode : c.toNat ∈ blankCodes := mem_blankCodes h (by omega)
    exact not_isDecimalDigit (by simp [phraseCodes, hcode])

theorem not_inNumber_of_isBlank {c : Char} (h : isBlank c = true) : inNumber c = false := by
  rw [inNumber, isDecimalDigit_of_isBlank h, Bool.false_or, Bool.or_eq_false_iff,
    decide_eq_false_iff_not, decide_eq_false_iff_not]
  constructor <;> rintro rfl <;> cases h

theorem Spot.of_inNumber {c : Char} (h : inNumber c = true) :
    after c = number ∧ ∀ p : Spot, p.trace c = p.nought := by
  -- Of the kinds of characters only numbers are left.
  have hne {d : Char} (hd : inNumber d = false) : c ≠ d := by
    rintro rfl
    rw [h] at hd
    cases hd
  have harrow : isArrow c = false := by
    have hto : inNumber '→' = false := by
      rw [inNumber, not_isDecimalDigit (by decide)]
      decide
    simp [isArrow, hne hto, hne (show inNumber '>' = false by decide)]
  have hseparator : isSeparator c = false := by
    have hblank : isBlank c = false := by
      rw [Bool.eq_false_iff]
      intro hblank
      exact hne (not_inNumber_of_isBlank hblank) rfl
    simp [isSeparator, hblank, hne (show inNumber '-' = false by decide),
      hne (show inNumber '=' = false by decide)]
  have hletter : isKeywordLetter c = false := by
    rw [Bool.eq_false_iff]
    intro hletter
    rw [(of_isKeywordLetter hletter).2.2] at h
    cases h
  exact ⟨by simp [after, hletter, harrow, hseparator, h],
    fun p => by simp [trace, hletter, harrow, hseparator, h]⟩

/-- A number of any length is a nought. -/
theorem outlineFrom_number {ds : List Char} (h : ∀ c ∈ ds, inNumber c = true) (hne : ds ≠ [])
    (p : Spot) :
    outlineFrom p ds = p.nought ∧ p.afterAll ds = .number := by
  induction ds generalizing p with
  | nil => exact absurd rfl hne
  | cons d ds ih =>
      obtain ⟨hafter, htrace⟩ := Spot.of_inNumber (h d List.mem_cons_self)
      rw [outlineFrom_cons, Spot.afterAll, hafter, htrace]
      cases ds with
      | nil => exact ⟨by rw [outlineFrom_nil, List.append_nil], rfl⟩
      | cons e ds =>
          obtain ⟨ho, hp⟩ := ih (fun c hc => h c (List.mem_cons_of_mem d hc)) (by simp) .number
          exact ⟨by rw [ho]; exact List.append_nil _, hp⟩

/-- What is known of the text behind a number is known of the whole text. -/
theorem Opens.appendNumber {ds rest : List Char} {k : Reading β} {b : β}
    (h : Opens .number k fun b o => H b (p.nought ++ o)) (hds : ∀ c ∈ ds, inNumber c = true)
    (hne : ds ≠ []) (hk : k rest = some b) :
    ∃ o, H b o ∧ o <+: outlineFrom p (ds ++ rest) := by
  obtain ⟨ho, hafter⟩ := outlineFrom_number hds hne p
  refine Opens.append ?_ hk
  rw [ho, hafter]
  exact h

theorem inNumber_of_isDecimalDigit {c : Char} (h : isDecimalDigit c = true) :
    inNumber c = true := by
  simp [inNumber, h]

/-- Digits, of which there may be none. -/
theorem Opens.digits {least most : Nat} {k : List Char → Reading β}
    (hnone : least = 0 → Opens p (k []) H)
    (h : ∀ ds, Opens .number (k ds) fun b o => H b (p.nought ++ o)) :
    Opens p (Text.digits least most k) H := by
  refine .run fun ds hsize hds => ?_
  by_cases hne : ds = []
  · subst hne
    exact hnone (by simpa using hsize)
  · obtain ⟨ho, hafter⟩ :=
      outlineFrom_number (fun c hc => inNumber_of_isDecimalDigit (hds c hc)) hne p
    rw [ho, hafter]
    exact h ds

/-- A numeral with a point or without. -/
theorem Opens.numeral {least most : Nat} {k : List Char → Reading β} (hleast : least ≠ 0)
    (h : ∀ ds, Opens .number (k ds) fun b o => H b (p.nought ++ o)) :
    Opens p (Text.numeral least most k) H := by
  refine .digits (fun h0 => absurd h0 hleast) fun whole s b hs => ?_
  split at hs
  · next r =>
      split at hs
      · cases hs
      · next part hne _ =>
          have hsplit : '.' :: r =
              ('.' :: r.takeWhile isDecimalDigit) ++ r.dropWhile isDecimalDigit := by
            rw [List.cons_append, List.takeWhile_append_dropWhile]
          rw [hsplit]
          -- The point goes on with the number that the digits before it have begun.
          refine Opens.appendNumber (p := .number) (H := fun b o => H b (p.nought ++ o)) (h _)
            (fun c hc => ?_) (by simp) hs
          rcases List.mem_cons.mp hc with rfl | hc
          · rfl
          · exact inNumber_of_isDecimalDigit (List.mem_takeWhile_imp hc)
  · exact h _ _ _ hs

end Composer.Text
