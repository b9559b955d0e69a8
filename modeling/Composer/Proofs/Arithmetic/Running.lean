import Composer.Proofs.Arithmetic.Answers
import Composer.Proofs.Arithmetic.Spelling
/-!
# Composer.Proofs.Arithmetic.Running

**An operator at the end.** Behind an expression with a value, an operator of one character shows
that value as long as the operand is awaited (`detect_operator_behind`). Two stars do not: what is
left without the last one ends in an operator itself and has no value.
-/

namespace Composer.Arithmetic

open Text

/-! ### Blanks and signs around a text -/

/-- Signs behind a text do not make it look different. -/
theorem LooksComputable.append {s r : List Char} (hs : LooksComputable s)
    (hr : ∀ c ∈ r, isTokenChar c = true ∧ c.isAlpha = false) : LooksComputable (s ++ r) := by
  have hword : firstWord (s ++ r) = firstWord s := firstWord_append_left (fun c hc => (hr c hc).2) s
  refine ⟨fun c hc => ?_, hword ▸ hs.word⟩
  rcases List.mem_append.mp hc with hc | hc
  · exact hs.chars c hc
  · exact (hr c hc).1

theorem LooksComputable.of_append {s r : List Char} (h : LooksComputable (s ++ r))
    (hr : ∀ c ∈ r, c.isAlpha = false) : LooksComputable s :=
  ⟨fun c hc => h.chars c (List.mem_append_left r hc), firstWord_append_left hr s ▸ h.word⟩

/-- Nor do blanks around it. -/
theorem looksComputable_trim {s : List Char} : LooksComputable (trim s) ↔ LooksComputable s := by
  obtain ⟨ws, ws', hws, hws', hs⟩ := trim_eq s
  have hletters {r : List Char} (hr : ∀ c ∈ r, isBlank c = true) : ∀ c ∈ r, c.isAlpha = false :=
    fun c hc => not_isAlpha_of_isBlank (hr c hc)
  have hword : firstWord s = firstWord (trim s) :=
    calc firstWord s = firstWord (ws ++ trim s ++ ws') := congrArg firstWord hs
      _ = firstWord (trim s) := by
        rw [firstWord_append_left (hletters hws'), firstWord_append_of_not_isAlpha (hletters hws)]
  have hblank {c : Char} (hc : isBlank c = true) : isTokenChar c = true := by
    simp [isTokenChar, hc]
  constructor
  · intro h
    refine ⟨fun c hc => ?_, hword ▸ h.word⟩
    rw [hs] at hc
    rcases List.mem_append.mp hc with hc | hc
    · exact (List.mem_append.mp hc).elim (fun hc => hblank (hws c hc)) (h.chars c)
    · exact hblank (hws' c hc)
  · intro h
    refine ⟨fun c hc => h.chars c ?_, hword ▸ h.word⟩
    rw [hs]
    exact List.mem_append_left _ (List.mem_append_right _ hc)

/-! ### Operators behind an expression -/

section

variable {a : List Char} {ts : List Token} {v : Evaluation} (ha : tokens? a = some ts)
  (hv : compute ts = some v)
include ha hv

theorem looksComputable_of_compute : LooksComputable a :=
  looksComputable_of_evaluate (v := v) (by rw [evaluate_eq, ha, Option.bind_some, hv])

/-- An operator of one character shows the value before it. -/
theorem runsTo_operator {o : Operator} (p : Typed o) {c : Char} (hp : p.word = [c])
    (hc : Token.ofChar? c = some (.operator o)) {b : List Char} (hb : ∀ d ∈ b, isBlank d = true) :
    RunsTo (a ++ p.text ++ b) v := by
  have htext : a ++ p.text ++ b = (a ++ p.before) ++ c :: (p.behind ++ b) := by
    simp [Typed.text, hp]
  have hbehind : ∀ d ∈ p.behind ++ b, isBlank d = true := fun d hd =>
    (List.mem_append.mp hd).elim (p.behind_blank d) (hb d)
  refine ⟨trimStart (a ++ p.before), c, o, ts, ?_, hc, ?_, hv⟩
  · rw [htext, trim_append_cons (Token.of_ofChar?_eq_some hc).1 hbehind]
  · rw [tokens?_trimStart, tokens?, tokensAfter_append_blanks p.before_blank]
    exact ha

section

variable {p : Typed .power} (hp : p.word = ['*', '*']) {b : List Char}
  (hb : ∀ d ∈ b, isBlank d = true)
include hp hb

theorem looksComputable_stars : LooksComputable (a ++ p.text ++ b) := by
  rw [List.append_assoc]
  refine (looksComputable_of_compute ha hv).append fun c hc => ?_
  have hcases : isBlank c = true ∨ c = '*' := by
    simp only [Typed.text, hp, List.mem_append, List.mem_cons, List.not_mem_nil, or_false] at hc
    rcases hc with ((hc | hc) | hc) | hc
    · exact Or.inl (p.before_blank c hc)
    · exact Or.inr (or_self_iff.mp hc)
    · exact Or.inl (p.behind_blank c hc)
    · exact Or.inl (hb c hc)
  rcases hcases with hblank | rfl
  · exact ⟨by simp [isTokenChar, hblank], not_isAlpha_of_isBlank hblank⟩
  · decide

/-- With both stars there is an operator without its operand. -/
theorem evaluate_stars : evaluate (a ++ p.text ++ b) = none := by
  have hstate : awaiting true (ts ++ [.operator .power]) = some true := by
    rw [awaiting_append, awaiting_of_compute hv]
    rfl
  have hletter : ¬ p.IsLetter := by
    rw [Typed.IsLetter, hp]
    decide
  rw [evaluate_eq, p.tokens?_eq ha (tokensAfter_of_isBlank hb none) hstate
    (fun h => absurd h hletter) fun h => hletter h.1]
  exact compute_concat_operator ts .power

/-- Without the last one the other one is left. -/
theorem beforeOperator_stars : beforeOperator (trim (a ++ p.text ++ b)) = none := by
  have htext : a ++ p.text ++ b = (a ++ p.before ++ ['*']) ++ '*' :: (p.behind ++ b) := by
    simp [Typed.text, hp]
  have hbehind : ∀ d ∈ p.behind ++ b, isBlank d = true := fun d hd =>
    (List.mem_append.mp hd).elim (p.behind_blank d) (hb d)
  have htrim : trim (a ++ p.text ++ b) = trimStart (a ++ p.before ++ ['*']) ++ ['*'] := by
    rw [htext, trim_append_cons rfl hbehind]
  have hfront : tokens? (a ++ p.before) = some ts := by
    rw [tokens?, tokensAfter_append_blanks p.before_blank]
    exact ha
  have hstar : tokens? (trimStart (a ++ p.before ++ ['*'])) = some (ts ++ [.operator .times]) := by
    rw [tokens?_trimStart]
    exact tokens?_concat_operator rfl hfront hv
  rw [htrim, beforeOperator_concat rfl, evaluate_eq, hstar, Option.bind_some,
    compute_concat_operator]
  rfl

/-- Two stars at the end leave nothing that has a value. -/
theorem detect_stars : detect (a ++ p.text ++ b) = none := by
  have hpercent : percentOf (trim (a ++ p.text ++ b)) = none :=
    (looksComputable_trim.mpr (looksComputable_stars ha hv hp hb)).percentOf_eq_none
  have hevaluate : evaluate (trim (a ++ p.text ++ b)) = none := by
    rw [evaluate_eq, tokens?_trim, ← evaluate_eq]
    exact evaluate_stars ha hv hp hb
  simp only [detect, hpercent, hevaluate, beforeOperator_stars ha hv hp hb]

end

end

/-- An operator with one space before it. -/
def Typed.behindSpace {o : Operator} {w : List Char} (h : w ∈ o.signs) : Typed o where
  before := [' ']
  word := w
  behind := []
  spells := Operator.mem_spellings.mpr (Or.inl h)
  before_blank := isBlank_of_mem_space
  behind_blank := isBlank_of_mem_nil

/-- **An operator at the end shows the value before it**, except for two stars. -/
theorem detect_operator_behind {s : List Char} {v : Evaluation} (hs : evaluate s = some v)
    (hfinite : v.value.isFinite = true) {o : Operator} {w : List Char} (hw : w ∈ o.signs) :
    (w ≠ ['*', '*'] → ∃ a, detect (s ++ ' ' :: w) = some a ∧ a.isPartial = true ∧
      a.value = v.value) ∧
    (w = ['*', '*'] → detect (s ++ ' ' :: w) = none) := by
  rw [evaluate_eq, Option.bind_eq_some_iff] at hs
  obtain ⟨ts, hts, hv⟩ := hs
  have htext : s ++ (Typed.behindSpace hw).text ++ [] = s ++ ' ' :: w := by
    simp [Typed.text, Typed.behindSpace]
  constructor
  · intro hne
    rcases Operator.sign_cases hw with ⟨c, hword, hc⟩ | ⟨hword, -⟩
    · have hruns : RunsTo (s ++ (Typed.behindSpace hw).text ++ []) v :=
        runsTo_operator hts hv _ hword hc isBlank_of_mem_nil
      obtain ⟨a, ha, hvalue, hpartial⟩ := detect_of_running hruns hfinite
      rw [htext] at ha
      exact ⟨a, ha, hpartial, hvalue⟩
    · exact absurd hword hne
  · intro hword
    rcases Operator.sign_cases hw with ⟨c, hone, -⟩ | ⟨-, rfl⟩
    · rw [hone] at hword
      cases hword
    · have hnone : detect (s ++ (Typed.behindSpace hw).text ++ []) = none :=
        detect_stars hts hv hword isBlank_of_mem_nil
      rwa [htext] at hnone

/-- A minus sign of its own behind an open parenthesis shows the value, two stars do not. -/
theorem detect_operator_behind_open :
    (∃ a, detect "(2 + 3 −".toList = some a ∧ a.isPartial = true ∧ a.value = 2 + 3) ∧
      detect "(2 + 3 **".toList = none := by
  have htokens : tokens? "(2 + 3".toList =
      some [.opening, .number 2, .operator .plus, .number 3] := by decide +kernel
  have hvalue : evaluate "(2 + 3".toList = some ⟨2 + 3, true, 1⟩ := by
    rw [evaluate_eq, htokens]
    rfl
  have hfinite : (2 + 3 : Float).isFinite = true := by decide +kernel
  exact ⟨(detect_operator_behind hvalue hfinite (o := .minus) (w := ['−']) (by decide)).1 (by decide),
    (detect_operator_behind hvalue hfinite (o := .power) (w := ['*', '*']) (by decide)).2 rfl⟩

end Composer.Arithmetic
