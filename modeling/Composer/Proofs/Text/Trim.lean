import Composer.Proofs.Text.Outline
/-!
# Composer.Proofs.Text.Trim

**Texts without the blanks around them.** A text with a character that is no blank has a first one
and a last one, and these are its ends when it is trimmed. So trimming is done once for all, and
blanks that are added at the ends make no difference.
-/

namespace Composer.Text

/-! ### Taking characters up to a stop -/

theorem takeWhile_append_of_stop {p : Char → Bool} {ds r : List Char} (hds : ∀ c ∈ ds, p c = true)
    (hr : ∀ c ∈ r.head?, p c = false) :
    (ds ++ r).takeWhile p = ds ∧ (ds ++ r).dropWhile p = r := by
  rw [List.takeWhile_append_of_pos hds, List.dropWhile_append_of_pos hds]
  cases r with
  | nil => exact ⟨List.append_nil ds, rfl⟩
  | cons c r => simp [hr c rfl]

section

variable {p : Char → Bool} {c : Char}

theorem takeWhile_append_cons_of_neg {s : List Char} (h : p c = false ∨ ¬ ∀ d ∈ s, p d = true)
    (r : List Char) : (s ++ c :: r).takeWhile p = s.takeWhile p := by
  rw [List.takeWhile_append]
  split
  · next hlength =>
      have hself : s.takeWhile p = s := (List.takeWhile_prefix p).eq_of_length hlength
      have hc : p c = false := h.resolve_right fun hne => hne (List.takeWhile_eq_self_iff.mp hself)
      rw [List.takeWhile_cons_of_neg (by simp [hc]), List.append_nil, hself]
  · rfl

theorem dropWhile_append_cons_of_neg {s : List Char} (h : p c = false ∨ ¬ ∀ d ∈ s, p d = true)
    (r : List Char) : (s ++ c :: r).dropWhile p = s.dropWhile p ++ c :: r := by
  rw [List.dropWhile_append]
  split
  · next hempty =>
      have hnil : s.dropWhile p = [] := List.isEmpty_iff.mp hempty
      have hc : p c = false := h.resolve_right fun hne => hne (List.dropWhile_eq_nil_iff.mp hnil)
      rw [List.dropWhile_cons_of_neg (by simp [hc]), hnil, List.nil_append]
  · rfl

/-- Nothing is dropped off a text that ends in another character. -/
theorem dropEndWhile_of_getLast? {s : List Char} (h : ∀ c ∈ s.getLast?, p c = false) :
    dropEndWhile p s = s := by
  have hstop : ∀ c ∈ s.reverse.head?, p c = false := by
    rw [List.head?_reverse]
    exact h
  obtain ⟨-, hdrop⟩ := takeWhile_append_of_stop (List.forall_mem_nil _) hstop
  rw [dropEndWhile, ← List.nil_append s.reverse, hdrop, List.reverse_reverse]

theorem dropEndWhile_concat (h : p c = true) (s : List Char) :
    dropEndWhile p (s ++ [c]) = dropEndWhile p s := by
  rw [dropEndWhile, List.reverse_append, List.reverse_singleton, List.singleton_append,
    List.dropWhile_cons_of_pos h]
  rfl

/-- If something is left of a text, then what stands before it is left too. -/
theorem dropEndWhile_append {s : List Char} (h : dropEndWhile p s ≠ []) (r : List Char) :
    dropEndWhile p (r ++ s) = r ++ dropEndWhile p s := by
  have hleft : (s.reverse.dropWhile p).isEmpty = false := by
    rw [List.isEmpty_eq_false_iff]
    exact fun hnil => h (congrArg List.reverse hnil)
  rw [dropEndWhile, List.reverse_append, List.dropWhile_append, hleft]
  simp [dropEndWhile]

theorem dropEndWhile_singleton : dropEndWhile p [c] = if p c then [] else [c] := by
  by_cases h : p c = true
  · simp [dropEndWhile, h]
  · simp [dropEndWhile, h]

/-- It does not matter which end is taken off first. -/
theorem dropEndWhile_dropWhile (p q : Char → Bool) (s : List Char) :
    dropEndWhile q (s.dropWhile p) = (dropEndWhile q s).dropWhile p := by
  induction s with
  | nil => rfl
  | cons c s ih =>
      by_cases hnil : dropEndWhile q s = []
      · have hall : dropEndWhile q (c :: s) = dropEndWhile q [c] := by
          have hs : ∀ d ∈ s.reverse, q d = true :=
            List.dropWhile_eq_nil_iff.mp (List.reverse_eq_nil_iff.mp hnil)
          rw [dropEndWhile, List.reverse_cons, List.dropWhile_append_of_pos hs]
          rfl
        rw [hnil] at ih
        by_cases hc : p c = true
        · rw [List.dropWhile_cons_of_pos hc, ih, hall, dropEndWhile_singleton]
          split
          · rfl
          · rw [List.dropWhile_cons_of_pos hc]
        · rw [List.dropWhile_cons_of_neg hc, hall, dropEndWhile_singleton]
          split
          · rfl
          · rw [List.dropWhile_cons_of_neg hc]
      · have hcons : dropEndWhile q (c :: s) = c :: dropEndWhile q s :=
          dropEndWhile_append hnil [c]
        by_cases hc : p c = true
        · rw [List.dropWhile_cons_of_pos hc, ih, hcons, List.dropWhile_cons_of_pos hc]
        · rw [List.dropWhile_cons_of_neg hc, hcons, List.dropWhile_cons_of_neg hc]

end

/-! ### Blanks around a text -/

theorem allBlank_eq_true_iff {s : List Char} : allBlank s = true ↔ ∀ c ∈ s, isBlank c = true :=
  List.all_eq_true

theorem allBlank_eq_false_iff {s : List Char} :
    allBlank s = false ↔ ¬ ∀ c ∈ s, isBlank c = true := by
  rw [← allBlank_eq_true_iff, Bool.not_eq_true]

theorem isBlank_of_mem_nil : ∀ c ∈ ([] : List Char), isBlank c = true :=
  List.forall_mem_nil _

theorem isBlank_of_mem_space : ∀ c ∈ [' '], isBlank c = true :=
  List.forall_mem_singleton.mpr rfl

/-! ### The ends of a text -/

/-- The first character that is no blank. -/
theorem exists_first {s : List Char} (h : ¬ ∀ c ∈ s, isBlank c = true) :
    ∃ ws c r, s = ws ++ c :: r ∧ (∀ d ∈ ws, isBlank d = true) ∧ isBlank c = false := by
  induction s with
  | nil => exact absurd (by simp) h
  | cons c s ih =>
      by_cases hc : isBlank c = true
      · obtain ⟨ws, d, r, rfl, hws, hd⟩ := ih fun hs => h (List.forall_mem_cons.mpr ⟨hc, hs⟩)
        exact ⟨c :: ws, d, r, rfl, List.forall_mem_cons.mpr ⟨hc, hws⟩, hd⟩
      · exact ⟨[], c, s, rfl, by simp, by simpa using hc⟩

/-- The last character that is no blank. -/
theorem exists_last {s : List Char} (h : ¬ ∀ c ∈ s, isBlank c = true) :
    ∃ r c ws, s = r ++ c :: ws ∧ isBlank c = false ∧ ∀ d ∈ ws, isBlank d = true := by
  induction s with
  | nil => exact absurd (by simp) h
  | cons c s ih =>
      by_cases hs : ∀ d ∈ s, isBlank d = true
      · refine ⟨[], c, s, rfl, ?_, hs⟩
        rw [Bool.eq_false_iff]
        intro hc
        exact h (List.forall_mem_cons.mpr ⟨hc, hs⟩)
      · obtain ⟨r, d, ws, rfl, hd, hws⟩ := ih hs
        exact ⟨c :: r, d, ws, rfl, hd, hws⟩

/-- A text that does not end in a blank has something else behind the blanks in it. -/
theorem not_forall_isBlank_of_append {ws s : List Char} (hws : ∀ c ∈ ws, isBlank c = true)
    (hne : ws ≠ []) (hlast : ∀ c ∈ (ws ++ s).getLast?, isBlank c = false) :
    ¬ ∀ c ∈ s, isBlank c = true := by
  intro hs
  have hfull : ws ++ s ≠ [] := List.append_ne_nil_of_left_ne_nil hne s
  have hblank : isBlank ((ws ++ s).getLast hfull) = true :=
    List.forall_mem_append.mpr ⟨hws, hs⟩ _ (List.getLast_mem hfull)
  rw [hlast _ (List.getLast?_eq_some_getLast hfull)] at hblank
  cases hblank

/-- Trimming ends at the last character that is no blank. -/
theorem trim_append_cons {c : Char} (hc : isBlank c = false) {ws : List Char}
    (hws : ∀ d ∈ ws, isBlank d = true) (s : List Char) :
    trim (s ++ c :: ws) = trimStart s ++ [c] := by
  have hend : trimEnd ((trimStart s ++ [c]) ++ ws) = trimStart s ++ [c] := by
    rw [trimEnd, dropEndWhile, List.reverse_append,
      List.dropWhile_append_of_pos fun d hd => hws d (List.mem_reverse.mp hd), List.reverse_append,
      List.reverse_singleton, List.singleton_append, List.dropWhile_cons_of_neg (by simp [hc]),
      List.reverse_cons, List.reverse_reverse]
  rw [trim, trimStart, dropWhile_append_cons_of_neg (Or.inl hc)]
  rw [List.append_assoc] at hend
  exact hend

theorem trim_of_isBlank {s : List Char} (h : ∀ c ∈ s, isBlank c = true) : trim s = [] := by
  have hstart : trimStart s = [] := List.dropWhile_eq_nil_iff.mpr h
  rw [trim, hstart]
  rfl

/-- Something is left of any other text. -/
theorem trim_ne_nil {s : List Char} (h : ¬ ∀ c ∈ s, isBlank c = true) : trim s ≠ [] := by
  obtain ⟨r, c, ws, rfl, hc, hws⟩ := exists_last h
  rw [trim_append_cons hc hws]
  exact List.append_ne_nil_of_right_ne_nil _ (List.cons_ne_nil c [])

/-- A trimmed text does not end in a blank. -/
theorem not_isBlank_of_getLast?_trim {s : List Char} :
    ∀ c ∈ (trim s).getLast?, isBlank c = false := by
  intro c hlast
  by_cases hblank : ∀ d ∈ s, isBlank d = true
  · rw [trim_of_isBlank hblank] at hlast
    cases hlast
  · obtain ⟨r, d, ws, rfl, hd, hws⟩ := exists_last hblank
    rw [trim_append_cons hd hws, List.getLast?_concat] at hlast
    obtain rfl := Option.some.inj hlast
    exact hd

/-- Nor does it begin with one. -/
theorem not_isBlank_of_head?_trim {s : List Char} : ∀ c ∈ (trim s).head?, isBlank c = false := by
  intro c hc
  obtain ⟨r, -, hr⟩ := dropEndWhile_eq isBlank (trimStart s)
  have hhead : (trimStart s).head? = some c := by
    rw [hr, List.head?_append]
    show (trim s).head?.or _ = _
    rw [Option.mem_def.mp hc]
    rfl
  have hstop := List.head?_dropWhile_not isBlank s
  rw [show (s.dropWhile isBlank).head? = some c from hhead] at hstop
  exact hstop

/-- The blanks at the end of a text. -/
def blanksAtEnd (s : List Char) : List Char :=
  (s.reverse.takeWhile isBlank).reverse

theorem blanksAtEnd_append_cons {c : Char} (hc : isBlank c = false) {ws : List Char}
    (hws : ∀ d ∈ ws, isBlank d = true) (s : List Char) : blanksAtEnd (s ++ c :: ws) = ws := by
  have hstop : (c :: s.reverse).takeWhile isBlank = [] :=
    List.takeWhile_cons_of_neg (by simp [hc])
  rw [blanksAtEnd, List.reverse_append, List.reverse_cons, List.append_assoc,
    List.singleton_append, List.takeWhile_append_of_pos fun d hd => hws d (List.mem_reverse.mp hd),
    hstop, List.append_nil, List.reverse_reverse]

theorem isBlank_of_mem_blanksAtEnd (s : List Char) : ∀ c ∈ blanksAtEnd s, isBlank c = true :=
  fun _ hc => List.mem_takeWhile_imp (List.mem_reverse.mp hc)

/-! ### What trimming leaves -/

theorem trim_blanks_append {ws : List Char} (h : ∀ c ∈ ws, isBlank c = true) (s : List Char) :
    trim (ws ++ s) = trim s := by
  rw [trim, trimStart, List.dropWhile_append_of_pos h]
  rfl

theorem trim_append_blanks {ws : List Char} (h : ∀ c ∈ ws, isBlank c = true) (s : List Char) :
    trim (s ++ ws) = trim s := by
  by_cases hblank : ∀ c ∈ s, isBlank c = true
  · rw [trim_of_isBlank hblank, trim_of_isBlank]
    exact fun c hc => (List.mem_append.mp hc).elim (hblank c) (h c)
  · obtain ⟨r, c, ws', rfl, hc, hws'⟩ := exists_last hblank
    rw [List.append_assoc, List.cons_append, trim_append_cons hc hws', trim_append_cons hc]
    exact fun d hd => (List.mem_append.mp hd).elim (hws' d) (h d)

/-- More text at the end leaves what a text is without its blanks at the front. -/
theorem trim_isPrefix_append (s r : List Char) : trim s <+: trim (s ++ r) := by
  by_cases hs : ∀ c ∈ s, isBlank c = true
  · rw [trim_of_isBlank hs]
    exact List.nil_prefix
  · obtain ⟨s, c, ws, rfl, hc, hws⟩ := exists_last hs
    rw [List.append_assoc, List.cons_append, trim_append_cons hc hws]
    by_cases hr : ∀ d ∈ ws ++ r, isBlank d = true
    · exact ⟨[], by rw [List.append_nil, trim_append_cons hc hr]⟩
    · -- What is added brings a last character of its own.
      obtain ⟨r', d, ws', hsplit, hd, hws'⟩ := exists_last hr
      have hstart : trimStart (s ++ c :: r') = trimStart s ++ [c] ++ r' := by
        rw [List.append_assoc]
        exact dropWhile_append_cons_of_neg (Or.inl hc) r'
      rw [hsplit, ← List.cons_append, ← List.append_assoc, trim_append_cons hd hws', hstart,
        List.append_assoc]
      exact List.prefix_append _ _

theorem trim_trim (s : List Char) : trim (trim s) = trim s := by
  obtain ⟨ws, ws', hws, hws', hs⟩ := trim_eq s
  calc trim (trim s) = trim (ws ++ trim s ++ ws') := by
        rw [trim_append_blanks hws', trim_blanks_append hws]
    _ = trim s := by rw [← hs]

/-- Trimming leaves the count of every character that is no blank. -/
theorem count_trim {c : Char} (hc : isBlank c = false) (s : List Char) :
    (trim s).count c = s.count c := by
  obtain ⟨ws, ws', hws, hws', hs⟩ := trim_eq s
  have hnone {r : List Char} (hr : ∀ d ∈ r, isBlank d = true) : r.count c = 0 := by
    rw [List.count_eq_zero]
    intro hmem
    rw [hr c hmem] at hc
    cases hc
  calc (trim s).count c = (ws ++ trim s ++ ws').count c := by
        rw [List.count_append, List.count_append, hnone hws, hnone hws', Nat.zero_add, Nat.add_zero]
    _ = s.count c := by rw [← hs]

end Composer.Text
