import Composer.Proofs.Arithmetic.Words
import Composer.Proofs.Detection.Names
/-!
# Composer.Proofs.Detection.Apart

**No text belongs to two tools.** Marks of different tools do not begin the same text
(`HasMark.unique`), no name of a color and no calculation has a mark of another tool, and no name
of a color is a calculation. What has to be compared are finite tables; the marks are compared
letter by letter, all at once.
-/

namespace Composer.Detection

open Text Arithmetic

/-! ### Marks -/

/-- The marks with their tools. -/
def labelled : List (Tool × List Char) :=
  order.flatMap fun t => (marks t).map (t, ·)

/-- What is left of the marks that begin with a character. -/
def behind (c : Char) (ms : List (Tool × List Char)) : List (Tool × List Char) :=
  ms.filterMap fun (t, m) => match m with
    | d :: m => if d = c then some (t, m) else none
    | [] => none

/-- Whether marks that begin the same text have the same tool. Unless all of them have one, none may
be read to its end, and those that begin like the first one are compared without the others. -/
def apart : (fuel : Nat) → List (Tool × List Char) → Bool
  | 0, _ => false
  | _, [] => true
  | fuel + 1, (t, m) :: ms =>
    ms.all (·.1 = t) ||
      match m with
      | [] => false
      | c :: m => ms.all (!·.2.isEmpty) && apart fuel ((t, m) :: behind c ms) &&
          apart fuel (ms.filter (·.2.head? != some c))

theorem mem_behind {c : Char} {ms : List (Tool × List Char)} {t : Tool} {m : List Char}
    (h : (t, c :: m) ∈ ms) : (t, m) ∈ behind c ms :=
  List.mem_filterMap.mpr ⟨_, h, if_pos rfl⟩

theorem tool_unique_of_apart {fuel : Nat} {ms : List (Tool × List Char)} (h : apart fuel ms = true)
    {t t' : Tool} {m m' o : List Char} (hm : (t, m) ∈ ms) (hm' : (t', m') ∈ ms) (ho : m <+: o)
    (ho' : m' <+: o) : t = t' := by
  induction fuel generalizing ms m m' o with
  | zero => cases h
  | succ fuel ih =>
      cases ms with
      | nil => cases hm
      | cons first ms =>
          obtain ⟨t₁, m₁⟩ := first
          unfold apart at h
          rw [Bool.or_eq_true] at h
          -- Marks of one tool need no look at the text; else both have a first character.
          rcases h with hsame | h
          · have htool : ∀ p ∈ (t₁, m₁) :: ms, p.1 = t₁ := List.forall_mem_cons.mpr
              ⟨rfl, fun p hp => of_decide_eq_true (List.all_eq_true.mp hsame p hp)⟩
            exact (htool _ hm).trans (htool _ hm').symm
          · cases m₁ with
            | nil => cases h
            | cons c r =>
                rw [Bool.and_eq_true, Bool.and_eq_true] at h
                obtain ⟨⟨hopen, hbehind⟩, hothers⟩ := h
                have hne : ∀ p ∈ (t₁, c :: r) :: ms, p.2 ≠ [] := List.forall_mem_cons.mpr
                  ⟨List.cons_ne_nil c r, fun p hp hnil => by
                    simpa [hnil] using List.all_eq_true.mp hopen p hp⟩
                obtain ⟨d, s, rfl⟩ := List.exists_cons_of_ne_nil (hne _ hm)
                obtain ⟨d', s', rfl⟩ := List.exists_cons_of_ne_nil (hne _ hm')
                obtain ⟨o, rfl⟩ := ho
                obtain ⟨rfl, hs'⟩ := List.cons_prefix_cons.mp ho'
                -- The text begins like the first mark, or neither mark does.
                by_cases hd : d' = c
                · subst hd
                  have hlist : (t₁, r) :: behind d' ms = behind d' ((t₁, d' :: r) :: ms) := by
                    simp [behind]
                  rw [hlist] at hbehind
                  exact ih hbehind (mem_behind hm) (mem_behind hm') (List.prefix_append _ _) hs'
                · have hother {t : Tool} {s : List Char} (h : (t, d' :: s) ∈ (t₁, c :: r) :: ms) :
                      (t, d' :: s) ∈ ms.filter (·.2.head? != some c) := by
                    rcases List.mem_cons.mp h with heq | h
                    · exact absurd (List.cons.inj (Prod.mk.inj heq).2).1 hd
                    · exact List.mem_filter.mpr ⟨h, by simpa using hd⟩
                  exact ih hothers (hother hm) (hother hm') (List.prefix_append _ _) ho'

/-- Marks that begin the same text have the same tool, a calculation begins with none but those of
the calculator, and no name of a color with one without its spaces, except those of colors. Marks
that begin with a number need no look at the names, since no name does. The three are checked on one
computed table. -/
theorem labelled_spec : apart 40 labelled = true ∧
    labelled.all (fun m => m.1 = .calculator || bars m.2) = true ∧
    labelled.all (fun m => m.1 = .color || m.2.head? = some '0' ||
      (Color.named.map (·.1.toList)).all fun color =>
        !(m.2.filter (· ≠ ' ')).isPrefixOf color) = true := by
  simp only [labelled, order, marks, Clock.zones, Measure.units, Measure.unit, unitNames,
    Money.currencies, Money.signs, Language.languages, List.map_cons, List.map_nil,
    String.reduceToList, List.flatMap_cons, List.flatMap_nil, spans, Measure.connectors,
    List.append_nil, bars, openings, names, Color.named]
  decide +kernel

theorem mem_labelled {t : Tool} (ht : t ∈ order) {m : List Char} (hm : m ∈ marks t) :
    (t, m) ∈ labelled :=
  List.mem_flatMap.mpr ⟨t, ht, List.mem_map.mpr ⟨m, hm, rfl⟩⟩

/-- A text has marks of one tool only. -/
theorem HasMark.unique {t t' : Tool} (ht : t ∈ order) (ht' : t' ∈ order) {o : List Char}
    (h : HasMark t o) (h' : HasMark t' o) : t = t' := by
  obtain ⟨m, hm, ho⟩ := h
  obtain ⟨m', hm', ho'⟩ := h'
  exact tool_unique_of_apart labelled_spec.1 (mem_labelled ht hm) (mem_labelled ht' hm') ho ho'

/-! ### Calculations -/

/-- A text with a value, or with one before its last operator. -/
def Computes (s : List Char) : Prop :=
  (evaluate s).isSome = true ∨ (beforeOperator s).isSome = true

theorem Computes.looksComputable {s : List Char} (h : Computes s) : LooksComputable s := by
  rcases h with h | h
  · obtain ⟨v, hv⟩ := Option.isSome_iff_exists.mp h
    exact looksComputable_of_evaluate hv
  · obtain ⟨a, ha⟩ := Option.isSome_iff_exists.mp h
    exact looksComputable_of_beforeOperator ha

/-- A calculation has marks of the calculator only. -/
theorem Computes.tool_of_hasMark {s : List Char} (h : Computes s) {t : Tool} (ht : t ∈ order)
    (hmark : HasMark t (outline s)) : t = .calculator := by
  obtain ⟨m, hm, ho⟩ := hmark
  have hbars := List.all_eq_true.mp labelled_spec.2.1 _ (mem_labelled ht hm)
  rw [h.looksComputable.not_bars ho, Bool.or_false] at hbars
  exact of_decide_eq_true hbars

/-! ### Names of colors -/

/-- The name of a color has marks of colors only. -/
theorem IsColorName.tool_of_hasMark {s : List Char} (h : IsColorName s) {t : Tool} (ht : t ∈ order)
    (hmark : HasMark t (outline s)) : t = .color := by
  obtain ⟨m, hm, ho⟩ := hmark
  obtain ⟨color, hcolor, hname⟩ := List.mem_map.mp h.letters
  have hbegins : m.filter (· ≠ ' ') <+: color.1.toList := by
    rw [hname, ← filter_outlineFrom h.chars .gap]
    exact ho.filter _
  have hspec := List.all_eq_true.mp labelled_spec.2.2 _ (mem_labelled ht hm)
  rw [Bool.or_eq_true, Bool.or_eq_true, decide_eq_true_eq, decide_eq_true_eq] at hspec
  rcases hspec with (hspec | hspec) | hspec
  · exact hspec
  · -- The mark begins with a nought, and the name does not.
    obtain ⟨m, rfl⟩ := List.head?_eq_some_iff.mp hspec
    have hnought : '0' ∈ color.1.toList := hbegins.subset (by simp)
    exact absurd (isLower_of_mem_named hcolor hnought) (by decide)
  · have hnone := List.all_eq_true.mp hspec _ (List.mem_map_of_mem hcolor)
    rw [List.isPrefixOf_iff_prefix.mpr hbegins] at hnone
    cases hnone

/-- Only one name of a color is the name of a function, and none is made of two names of constants
or functions. -/
theorem names_spec : (Color.named.map (·.1.toList)).all (fun color =>
    (names.map String.toList).all fun w => !w.isPrefixOf color ||
      (w ≠ color || w = "tan".toList) &&
        (names.map String.toList).all fun w' => !(w ++ w').isPrefixOf color) = true := by
  simp only [Color.named, names, List.map_cons, List.map_nil, String.reduceToList]
  decide +kernel

/-- Names that make up the name of a color are no expression. -/
theorem parse?_eq_none_of_named {color : List Char} (hcolor : color ∈ Color.named.map (·.1.toList))
    {ws : List (List Char)} (hws : ws.flatten = color) {n : Nat}
    (hn : openAfter 0 (ws.map fun w => .name (String.ofList w)) = some n) :
    parse? (ws.map (fun w => .name (String.ofList w)) ++ List.replicate n .closing) = none := by
  rw [Option.eq_none_iff_forall_not_mem]
  intro e he
  have hnames : ∀ w ∈ ws, w ∈ names.map String.toList := by
    intro w hw
    refine List.mem_map.mpr ⟨String.ofList w, mem_names_of_parse? he ?_, String.toList_ofList⟩
    exact List.mem_append_left _ (List.mem_map_of_mem hw)
  have hspec := List.all_eq_true.mp names_spec color hcolor
  -- No color begins with two names, and *tan* by itself is a function without an argument.
  cases ws with
  | nil =>
      obtain rfl : n = 0 := (Option.some.inj hn).symm
      have hnone : parse? [] = none := by decide
      cases hnone.symm.trans he
  | cons w ws =>
      have hw := List.all_eq_true.mp hspec w (hnames w List.mem_cons_self)
      have hbegins : w <+: color := by
        rw [← hws]
        exact List.prefix_append _ _
      rw [List.isPrefixOf_iff_prefix.mpr hbegins, Bool.not_true, Bool.false_or,
        Bool.and_eq_true] at hw
      cases ws with
      | nil =>
          have htan : w = "tan".toList := by
            have hself : w = color := by simpa using hws
            simpa [hself] using hw.1
          subst htan
          obtain rfl : n = 0 := (Option.some.inj hn).symm
          have hnone : parse? [.name (String.ofList "tan".toList)] = none := by decide
          cases hnone.symm.trans he
      | cons w' ws =>
          have hw' := List.all_eq_true.mp hw.2 w' (hnames w' (by simp))
          have hboth : w ++ w' <+: color := by
            rw [← hws, List.flatten_cons, List.flatten_cons, ← List.append_assoc]
            exact List.prefix_append _ _
          rw [List.isPrefixOf_iff_prefix.mpr hboth] at hw'
          cases hw'

theorem isAlpha_of_isKeywordLetter {c : Char} (hletter : isKeywordLetter c = true)
    (h : isTokenChar c = true) : c.isAlpha = true := by
  rw [← isAlpha_fold h]
  exact (Bool.or_eq_true _ _).mpr (Or.inr hletter)

theorem IsColorName.evaluate_eq_none {s : List Char} (h : IsColorName s) : evaluate s = none := by
  rw [Option.eq_none_iff_forall_not_mem]
  intro v hv
  have htoken := (looksComputable_of_evaluate hv).chars
  have hchars : ∀ c ∈ s, c.isAlpha = true ∨ c = ' ' := fun c hc =>
    (h.chars c hc).imp_left fun hletter => isAlpha_of_isKeywordLetter hletter (htoken c hc)
  rw [Option.mem_def] at hv
  simp only [evaluate, Option.bind_eq_bind, Option.bind_eq_some_iff] at hv
  obtain ⟨ts, hts, n, hn, e, hparse, -⟩ := hv
  obtain ⟨ws, rfl, hws⟩ := (spells_of_tokensAfter hts).letters (fun _ h => by cases h) hchars
  have hletters : ws.flatten = (s.map fold).filter (· ≠ ' ') := by
    have hspace : ∀ c ∈ s, decide (c ≠ ' ') = ((fun c => decide (c ≠ ' ')) ∘ fold) c := by
      intro c _
      by_cases hc : c = ' '
      · subst hc
        rfl
      · have hfold : fold c ≠ ' ' := fun hfold => hc (eq_space_of_fold hfold)
        simp [hc, hfold]
    rw [hws, List.filter_map, ← List.filter_congr hspace]
    refine List.map_congr_left fun c hc => ?_
    obtain ⟨hmem, hne⟩ := List.mem_filter.mp hc
    exact (fold_of_isAlpha ((hchars c hmem).resolve_right (of_decide_eq_true hne))).2.symm
  rw [parse?_eq_none_of_named h.letters hletters hn] at hparse
  cases hparse

theorem IsColorName.beforeOperator_eq_none {s : List Char} (h : IsColorName s) :
    beforeOperator s = none := by
  rw [Option.eq_none_iff_forall_not_mem]
  intro a ha
  rw [Option.mem_def] at ha
  simp only [beforeOperator, Option.bind_eq_bind, Option.bind_eq_some_iff] at ha
  obtain ⟨c, hlast, ha⟩ := ha
  split at ha
  · next hc =>
      obtain ⟨htoken, halpha⟩ := of_announcesOperand hc
      rcases h.chars c (List.mem_of_getLast? hlast) with hletter | rfl
      · rw [isAlpha_of_isKeywordLetter hletter htoken] at halpha
        cases halpha
      · exact absurd hc (by decide)
  · cases ha

end Composer.Detection
