import Composer.Proofs.Countdown.Duration
import Composer.Proofs.Text.Words
/-!
# Composer.Proofs.Countdown.Label

**Every typed word belongs to the duration or to the label.** The words of a text are those of its
duration and, before or after them, those of its label (`typed?_parts`). A duration in front is taken
as long as it can, and a sum may have the word *and* behind its last unit; so this word never begins
a label behind a sum, even where it was meant to.
-/

namespace Composer.Countdown

open Text

/-! ### Where the duration is found -/

/-- A duration in front is the longest one. -/
theorem durationFirst?_eq_some {ws ls : List (List Char)} {n seconds : Nat} (hn : n ≤ ws.length)
    (h : durationFirst? ws n = some (seconds, ls)) :
    ∃ ds, ws = ds ++ ls ∧ duration? (spaced ds) = some seconds ∧
      ∀ us vs, ls = us ++ vs → us ≠ [] → (ds ++ us).length ≤ n →
        duration? (spaced (ds ++ us)) = none := by
  induction n with
  | zero => cases h
  | succ n ih =>
      rw [durationFirst?] at h
      split at h
      · next hread =>
        obtain ⟨rfl, rfl⟩ := Prod.mk.inj (Option.some.inj h)
        refine ⟨_, (List.take_append_drop (n + 1) ws).symm, hread, fun us _ _ hne hle => ?_⟩
        have hpos := List.length_pos_iff.mpr hne
        rw [List.length_append, List.length_take_of_le hn] at hle
        omega
      · next hnone =>
        obtain ⟨ds, hds, hread, hlonger⟩ := ih (Nat.le_of_succ_le hn) h
        refine ⟨ds, hds, hread, fun us vs hus hne hle => ?_⟩
        rcases Nat.lt_or_eq_of_le hle with hle | hlength
        · exact hlonger us vs hus hne (Nat.le_of_lt_succ hle)
        · rw [hds, hus, ← List.append_assoc, List.take_left' hlength] at hnone
          exact hnone

/-- A duration at the end has the label before it. -/
theorem durationLast?_eq_some {before ws ls : List (List Char)} {seconds : Nat}
    (h : durationLast? before ws = some (seconds, ls)) :
    ∃ ds, before ++ ws = ls ++ ds ∧ duration? (spaced ds) = some seconds := by
  induction ws generalizing before with
  | nil => cases h
  | cons w ws ih =>
      rw [durationLast?] at h
      split at h
      · next hread =>
        obtain ⟨rfl, rfl⟩ := Prod.mk.inj (Option.some.inj h)
        refine ⟨ws, by rw [List.append_assoc, List.singleton_append], ?_⟩
        split at hread
        · cases hread
        · exact hread
      · obtain ⟨ds, hds, hread⟩ := ih h
        exact ⟨ds, by rw [← hds, List.append_assoc, List.singleton_append], hread⟩

/-- What a typed text says: some words are the duration and the others are the label. With the
duration in front, no longer part of the text is a duration. -/
theorem typed?_eq_some {text : List Char} {seconds : Nat} {label : Option String}
    (h : typed? text = some (seconds, label)) :
    (1 ≤ seconds ∧ seconds ≤ maxSeconds) ∧ ∃ ds ls : List (List Char),
      label = (if ls = [] then none else some (String.ofList (spaced ls))) ∧
        duration? (spaced ds) = some seconds ∧
        (words text = ls ++ ds ∨ words text = ds ++ ls ∧
          ∀ us vs, ls = us ++ vs → us ≠ [] → duration? (spaced (ds ++ us)) = none) := by
  obtain ⟨⟨n, ls⟩, hfound, h⟩ := Option.bind_eq_some_iff.mp h
  dsimp only at h
  rw [labelled?] at h
  split at h
  · cases h
  · next hbounds =>
    obtain ⟨rfl, rfl⟩ := Prod.mk.inj (Option.some.inj h)
    refine ⟨by omega, ?_⟩
    rw [Option.orElse_eq_orElse, Option.orElse_eq_or, Option.or_eq_some_iff] at hfound
    rcases hfound with hfirst | ⟨-, hlast⟩
    · obtain ⟨ds, hds, hread, hlonger⟩ := durationFirst?_eq_some (Nat.le_refl _) hfirst
      refine ⟨ds, ls, by simp, hread, Or.inr ⟨hds, fun us vs hus hne => ?_⟩⟩
      refine hlonger us vs hus hne ?_
      rw [hds, hus, ← List.append_assoc]
      exact (List.prefix_append _ vs).length_le
    · obtain ⟨ds, hds, hread⟩ := durationLast?_eq_some hlast
      exact ⟨ds, ls, by simp, hread, Or.inl hds⟩

/-! ### The word *and* behind a sum -/

theorem isPlain_of_inSum {c : Char} (h : inSum c = true) : isPlain c = true := by
  rw [inSum, isGap, inNumber] at h
  simp only [Bool.or_eq_true, decide_eq_true_eq] at h
  rcases h with ((h | rfl) | h) | (h | rfl)
  · exact isPlain_of_isBlank h
  · rfl
  · exact forall_alpha (P := fun c => isPlain c = true) (by decide) (by decide) h
  · exact isPlain_of_isDigit h
  · rfl

/-- Behind a joint there may stand the word *and* once more. -/
theorem IsJoint.concat_and {j ws : List Char} (hj : IsJoint j) (hws : ∀ c ∈ ws, isGap c = true)
    (hne : ws ≠ []) : IsJoint (j ++ (ws ++ "and".toList)) := by
  have hlast : IsJoint ([] : List Char) := .gap (List.forall_mem_nil _)
  induction hj with
  | @gap gap hgap =>
      have hall : ∀ c ∈ gap ++ ws, isGap c = true := fun c hc =>
        (List.mem_append.mp hc).elim (hgap c) (hws c)
      have hjoint := IsJoint.and hall (by simp [hne]) hlast
      rw [List.append_nil, List.append_assoc] at hjoint
      exact hjoint
  | and hgap hfull _ ih =>
      rw [List.append_assoc, List.append_assoc]
      exact .and hgap hfull ih

theorem WritesSum.concat_and {n : Nat} {s ws : List Char} (h : WritesSum n s)
    (hws : ∀ c ∈ ws, isGap c = true) (hne : ws ≠ []) : WritesSum n (s ++ (ws ++ "and".toList)) := by
  cases h with
  | of hlead hbody htail =>
      rw [List.append_assoc, List.append_assoc]
      exact .of hlead hbody (htail.concat_and hws hne)

/-- With the word *and* behind it, a sum in front is longer. -/
theorem duration?_concat_and {ds : List (List Char)} {w : List Char} {n : Nat}
    (hds : ∀ v ∈ ds, IsWord v) (hw : IsWord w) (h : WritesSum n (lower (spaced ds)))
    (hand : lower w = "and".toList) : duration? (spaced (ds ++ [w])) = some n := by
  have hne : ds ≠ [] := by
    intro hnil
    subst hnil
    exact (Writes.sum h).ne_nil rfl
  have hgap : ∀ c ∈ [' '], isGap c = true := List.forall_mem_singleton.mpr rfl
  have hspace : lower [' '] = [' '] := by decide
  have hspacePlain : ∀ c ∈ lower [' '], isPlain c = true := List.all_eq_true.mp rfl
  have hwordPlain : ∀ c ∈ lower w, isPlain c = true := by
    rw [hand]
    exact List.all_eq_true.mp rfl
  have htail : lower ([' '] ++ w) = [' '] ++ "and".toList := by
    rw [lower_append hspacePlain hwordPlain, hspace, hand]
  have htailPlain : ∀ c ∈ lower ([' '] ++ w), isPlain c = true := by
    rw [htail]
    exact List.all_eq_true.mp rfl
  have hwords : ∀ v ∈ ds ++ [w], IsWord v := by
    intro v hv
    rcases List.mem_append.mp hv with hv | hv
    · exact hds v hv
    · rw [List.mem_singleton.mp hv]
      exact hw
  have hlower : lower (spaced (ds ++ [w])) = lower (spaced ds) ++ ([' '] ++ "and".toList) := by
    rw [spaced, joinWith_concat [' '] hne w, ← spaced,
      lower_append (fun c hc => isPlain_of_inSum (h.inSum c hc)) htailPlain, htail]
  rw [duration?_eq_some_iff, spaced, trim_joinWith hwords, ← spaced, hlower]
  exact .sum (h.concat_and hgap (by decide))

/-- **The words of a text are those of its duration and those of its label.** The label stands on one
side of the duration, and it is all the words there. Behind a sum it never begins with the word *and*:
this word belongs to the duration, whatever follows it. -/
theorem typed?_parts {text : List Char} {seconds : Nat} {label : Option String}
    (h : typed? text = some (seconds, label)) :
    ∃ ds ls : List (List Char),
      (words text = ls ++ ds ∨ words text = ds ++ ls ∧
        (WritesSum seconds (lower (spaced ds)) → ∀ w ∈ ls.head?, lower w ≠ "and".toList)) ∧
      label = (if ls = [] then none else some (String.ofList (spaced ls))) ∧
      Writes seconds (lower (spaced ds)) := by
  obtain ⟨-, ds, ls, hlabel, hread, hwords⟩ := typed?_eq_some h
  have hds : ∀ w ∈ ds, IsWord w := by
    intro w hw
    refine isWord_of_mem_words (s := text) ?_
    rcases hwords with hwords | ⟨hwords, -⟩
    · rw [hwords]
      exact List.mem_append_right ls hw
    · rw [hwords]
      exact List.mem_append_left ls hw
  have hwrites : Writes seconds (lower (spaced ds)) := by
    rw [duration?_eq_some_iff, spaced, trim_joinWith hds, ← spaced] at hread
    exact hread
  refine ⟨ds, ls, ?_, hlabel, hwrites⟩
  rcases hwords with hwords | ⟨hwords, hlonger⟩
  · exact Or.inl hwords
  · refine Or.inr ⟨hwords, fun hsum w hw hand => ?_⟩
    obtain ⟨vs, rfl⟩ := List.head?_eq_some_iff.mp hw
    have hword : IsWord w := by
      refine isWord_of_mem_words (s := text) ?_
      rw [hwords]
      exact List.mem_append_right ds List.mem_cons_self
    have hnone := hlonger [w] vs rfl (List.cons_ne_nil w [])
    rw [duration?_concat_and hds hword hsum hand] at hnone
    cases hnone

/-- The label *and tea* loses its first word. -/
theorem typed?_parts_swallowed :
    typed? "5m and tea".toList = some (300, some "tea") ∧
      ∃ ds ls : List (List Char),
        (words "5m and tea".toList = ls ++ ds ∨ words "5m and tea".toList = ds ++ ls ∧
          (WritesSum 300 (lower (spaced ds)) → ∀ w ∈ ls.head?, lower w ≠ "and".toList)) ∧
        some "tea" = (if ls = [] then none else some (String.ofList (spaced ls))) ∧
        Writes 300 (lower (spaced ds)) := by
  have htyped : typed? "5m and tea".toList = some (300, some "tea") := by decide +kernel
  exact ⟨htyped, typed?_parts htyped⟩

end Composer.Countdown
