import Composer.Proofs.Detection
import Composer.Proofs.Detection.Amounts
import Composer.Proofs.Detection.Apart
/-!
# Composer.Proofs.Detection.Exclusive

**At most one tool answers a text.** Whatever a tool answers can be told by the text alone
(`Tells`), and no text tells of two tools. So the order in which the tools are asked does not
matter, and a tool that reads no more when it is open answers exactly those texts that are found
to be its own.
-/

namespace Composer.Detection

open Text Arithmetic

/-! ### What the texts of a tool look like -/

/-- What can be said of a text that the tool answers. -/
def Tells (t : Tool) (s : List Char) : Prop :=
  HasMark t (outline s) ∨ (t = .color ∧ IsColorName s) ∨ (t = .calculator ∧ Computes s)

theorem tells_calculator {text : List Char} {a : Calculation} (h : Arithmetic.detect text = some a) :
    Tells .calculator (trim text) := by
  unfold Arithmetic.detect at h
  dsimp only at h
  split at h
  · next hpercent => exact Or.inl (hasMark_percentOf hpercent)
  · refine Or.inr (Or.inr ⟨rfl, ?_⟩)
    split at h
    · next e he => exact Or.inl (Option.isSome_iff_exists.mpr ⟨e, he⟩)
    · exact Or.inr (Option.isSome_iff_exists.mpr ⟨a, h⟩)

theorem tells_of_ofTool {t : Tool} (ht : t ∈ order) {text : List Char} {ctx : Context} {a : Answer}
    (h : ofTool t text ctx = some a) : Tells t (trim text) := by
  cases t with
  | calculator =>
      obtain ⟨x, hx, -⟩ := Option.map_eq_some_iff.mp h
      exact tells_calculator hx
  | units =>
      obtain ⟨x, hx, -⟩ := Option.map_eq_some_iff.mp h
      exact Or.inl (hasMark_units hx)
  | currency =>
      obtain ⟨x, hx, -⟩ := Option.map_eq_some_iff.mp h
      exact Or.inl (hasMark_currency hx)
  | timezone =>
      obtain ⟨x, hx, -⟩ := Option.map_eq_some_iff.mp h
      exact Or.inl (hasMark_timezone hx)
  | color =>
      obtain ⟨x, hx, -⟩ := Option.map_eq_some_iff.mp h
      exact (hasMark_color hx).imp_right fun hname => Or.inl ⟨rfl, hname⟩
  | date =>
      simp only [ofTool, Option.bind_eq_bind, Option.bind_eq_some_iff, Option.map_eq_some_iff] at h
      obtain ⟨today, -, r, hr, -⟩ := h
      exact Or.inl (hasMark_date hr)
  | timer => exact absurd ht (by decide)
  | random =>
      obtain ⟨x, hx, -⟩ := Option.map_eq_some_iff.mp h
      exact Or.inl (hasMark_random hx)
  | wordCount =>
      obtain ⟨x, hx, -⟩ := Option.map_eq_some_iff.mp h
      exact Or.inl (hasMark_wordCount hx)
  | translator =>
      obtain ⟨x, hx, -⟩ := Option.map_eq_some_iff.mp h
      exact Or.inl (hasMark_translator hx)
  | dictionary =>
      obtain ⟨x, hx, -⟩ := Option.map_eq_some_iff.mp h
      exact Or.inl (hasMark_dictionary hx)

/-- No name of a color is a calculation. -/
theorem IsColorName.not_computes {s : List Char} (h : IsColorName s) : ¬ Computes s := by
  rintro (hvalue | hvalue)
  · rw [h.evaluate_eq_none] at hvalue
    cases hvalue
  · rw [h.beforeOperator_eq_none] at hvalue
    cases hvalue

/-- No text tells of two tools. -/
theorem Tells.unique {t t' : Tool} (ht : t ∈ order) (ht' : t' ∈ order) {s : List Char}
    (h : Tells t s) (h' : Tells t' s) : t = t' := by
  rcases h with h | ⟨rfl, h⟩ | ⟨rfl, h⟩
  · rcases h' with h' | ⟨rfl, h'⟩ | ⟨rfl, h'⟩
    · exact h.unique ht ht' h'
    · exact h'.tool_of_hasMark ht h
    · exact h'.tool_of_hasMark ht h
  · rcases h' with h' | ⟨rfl, -⟩ | ⟨-, h'⟩
    · exact (h.tool_of_hasMark ht' h').symm
    · rfl
    · exact absurd h' h.not_computes
  · rcases h' with h' | ⟨-, h'⟩ | ⟨rfl, -⟩
    · exact (h.tool_of_hasMark ht' h').symm
    · exact absurd h h'.not_computes
    · rfl

/-- At most one tool answers a text. -/
theorem ofTool_unique {t t' : Tool} (ht : t ∈ order) (ht' : t' ∈ order) {text : List Char}
    {ctx : Context} (h : (ofTool t text ctx).isSome = true)
    (h' : (ofTool t' text ctx).isSome = true) : t = t' := by
  obtain ⟨a, ha⟩ := Option.isSome_iff_exists.mp h
  obtain ⟨a', ha'⟩ := Option.isSome_iff_exists.mp h'
  exact (tells_of_ofTool ht ha).unique ht ht' (tells_of_ofTool ht' ha')

/-! ### The order of the tools -/

/-- The first answer to a text when the tools are asked in the order of a list. -/
def autoBy (tools : List Tool) (text : List Char) (ctx : Context) : Option Answer :=
  let text := trim text
  if text.isEmpty then none else tools.findSome? fun t => ofTool t text ctx

/-- What is found in a text is the answer of any tool that has one. -/
theorem autoBy_eq_some_iff {tools : List Tool} (h : tools.Perm order) {text : List Char}
    {ctx : Context} {a : Answer} : autoBy tools text ctx = some a ↔
      trim text ≠ [] ∧ ∃ t ∈ order, ofTool t (trim text) ctx = some a := by
  unfold autoBy
  dsimp only
  split
  · next hempty =>
      rw [List.isEmpty_iff] at hempty
      simp [hempty]
  · next hne =>
      rw [List.isEmpty_iff] at hne
      constructor
      · intro hsome
        obtain ⟨t, ht, ha⟩ := List.exists_of_findSome?_eq_some hsome
        exact ⟨hne, t, h.mem_iff.mp ht, ha⟩
      · rintro ⟨-, t, ht, ha⟩
        have hsome : (tools.findSome? fun t => ofTool t (trim text) ctx).isSome = true :=
          List.findSome?_isSome_iff.mpr ⟨t, h.mem_iff.mpr ht, Option.isSome_of_eq_some ha⟩
        obtain ⟨a', ha'⟩ := Option.isSome_iff_exists.mp hsome
        obtain ⟨t', ht', hfirst⟩ := List.exists_of_findSome?_eq_some ha'
        -- Whichever tool with an answer comes first, there is no other one.
        obtain rfl : t = t' := ofTool_unique ht (h.mem_iff.mp ht') (Option.isSome_of_eq_some ha)
          (Option.isSome_of_eq_some hfirst)
        rw [ha', ← hfirst, ha]

/-- The tools that read no more when they are open. -/
def narrow : List Tool :=
  [.color, .units, .currency, .timezone, .date, .random, .calculator]

theorem focused_of_mem_narrow {t : Tool} (ht : t ∈ narrow) (text : List Char) (ctx : Context) :
    t ∈ order ∧ focused t text ctx =
      if (trim text).isEmpty then none else ofTool t (trim text) ctx := by
  simp only [narrow, List.mem_cons, List.not_mem_nil, or_false] at ht
  rcases ht with rfl | rfl | rfl | rfl | rfl | rfl | rfl
  all_goals exact ⟨by decide, rfl⟩

/-- **At most one tool answers a text.** Hence the order in which the tools are asked does not
matter, and a narrow tool that is open answers a text exactly when it answers the text unasked, and
in the same way. -/
theorem one_tool_answers (text : List Char) (ctx : Context) :
    (∀ t ∈ order, ∀ t' ∈ order, (ofTool t text ctx).isSome = true →
      (ofTool t' text ctx).isSome = true → t = t') ∧
    (∀ tools : List Tool, tools.Perm order → autoBy tools text ctx = auto text ctx) ∧
    ∀ t ∈ narrow, ∀ a, focused t text ctx = some a ↔ auto text ctx = some a ∧ a.tool = t := by
  have hauto : auto text ctx = autoBy order text ctx := rfl
  refine ⟨fun t ht t' ht' => ofTool_unique ht ht', fun tools h => ?_, fun t ht a => ?_⟩
  · refine Option.ext fun a => ?_
    rw [hauto, autoBy_eq_some_iff h, autoBy_eq_some_iff (List.Perm.refl _)]
  · obtain ⟨horder, hfocused⟩ := focused_of_mem_narrow ht text ctx
    have hasked : focused t text ctx = some a ↔
        trim text ≠ [] ∧ ofTool t (trim text) ctx = some a := by
      rw [hfocused]
      by_cases hempty : trim text = []
      · simp [hempty]
      · simp [hempty]
    rw [hasked, hauto, autoBy_eq_some_iff (List.Perm.refl _)]
    constructor
    · rintro ⟨hne, ha⟩
      exact ⟨⟨hne, t, horder, ha⟩, (ofTool_eq_some ha).1⟩
    · rintro ⟨⟨hne, t', -, ha⟩, rfl⟩
      rw [(ofTool_eq_some ha).1]
      exact ⟨hne, ha⟩

end Composer.Detection
