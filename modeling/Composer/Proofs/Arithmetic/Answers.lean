import Composer.Proofs.Arithmetic.Operands
import Composer.Proofs.Arithmetic.Signs
/-!
# Composer.Proofs.Arithmetic.Answers

**Answers depend on tokens.** A text that is no percentage of an expression is answered in two ways:
its tokens are an expression that computes something, or they are an expression and one operator
more (`detect_cases`). The ways exclude each other, and neither can be taken for a percentage, so a
text that fits one of them has the answer that belongs to it (`detect_of_compute`,
`detect_of_running`).
-/

namespace Composer.Arithmetic

open Text

/-! ### What tokens evaluate to -/

/-- What tokens evaluate to when the parentheses that they leave open are closed behind them. -/
def compute (ts : List Token) : Option Evaluation := do
  let missing ← openAfter 0 ts
  let e ← parse? (ts ++ List.replicate missing .closing)
  let value ← e.eval
  some ⟨value, e.hasOperation, missing⟩

theorem evaluate_eq (s : List Char) : evaluate s = (tokens? s).bind compute := rfl

theorem compute_eq_some_iff {ts : List Token} {v : Evaluation} :
    compute ts = some v ↔ ∃ e, openAfter 0 ts = some v.missing ∧
      parse? (ts ++ List.replicate v.missing .closing) = some e ∧ e.eval = some v.value ∧
      e.hasOperation = v.hasOperation := by
  obtain ⟨value, hasOperation, missing⟩ := v
  simp only [compute, Option.bind_eq_bind, Option.bind_eq_some_iff, Option.some.injEq,
    Evaluation.mk.injEq]
  constructor
  · rintro ⟨_, hopen, e, hparse, _, heval, rfl, rfl, rfl⟩
    exact ⟨e, hopen, hparse, heval, rfl⟩
  · rintro ⟨e, hopen, hparse, heval, rfl⟩
    exact ⟨missing, hopen, e, hparse, value, heval, rfl, rfl, rfl⟩

/-- Tokens with a value do not end where an operand is awaited. -/
theorem awaiting_of_compute {ts : List Token} {v : Evaluation} (h : compute ts = some v) :
    awaiting true ts = some false := by
  obtain ⟨e, -, hparse, -⟩ := compute_eq_some_iff.mp h
  have hwhole := (parse?_eq_some_iff.mp hparse).1.awaiting_eq
  rw [awaiting_append, Option.bind_eq_some_iff] at hwhole
  obtain ⟨b, hts, hclosed⟩ := hwhole
  rw [hts]
  -- What is closed first is closed in the state behind the tokens.
  cases hmissing : v.missing with
  | zero =>
      rw [hmissing] at hclosed
      exact hclosed
  | succ n =>
      rw [hmissing, List.replicate_succ, awaiting_cons] at hclosed
      cases b with
      | false => rfl
      | true => cases hclosed

/-- One operator more leaves no expression. -/
theorem compute_concat_operator (ts : List Token) (o : Operator) :
    compute (ts ++ [.operator o]) = none := by
  rw [Option.eq_none_iff_forall_ne_some]
  intro v h
  have hend := awaiting_of_compute h
  rw [awaiting_append, Option.bind_eq_some_iff] at hend
  obtain ⟨b, -, hb⟩ := hend
  cases b with
  | false => cases hb
  | true =>
      have hcases : (Token.operator o).awaits true = some true ∨
          (Token.operator o).awaits true = none := by
        cases o <;> simp [Token.awaits, Operator.isAdditive]
      rcases hcases with h | h <;> simp [h] at hb

/-! ### Percentages -/

theorem opens_percentOf (n : Nat) (sign : List Char) : Opens .gap
    (numeral 1 n fun percent => maybeBlanks <| Text.char '%' <| maybeBlanks <| keyword "of" <|
      blanks <| lineToEnd fun base => some (sign ++ percent, base))
    fun _ o => o = "0%of ".toList ∨ o = "0% of ".toList := by
  refine .numeral (by decide) fun _ => .maybeBlanks (.char ?_) (.char ?_)
  · refine .maybeBlanks (.keyword <| .blanks <| .stop fun _ => ?_)
      (.keyword <| .blanks <| .stop fun _ => ?_)
    · decide
    · decide
  · refine .maybeBlanks (.keyword <| .blanks <| .stop fun _ => ?_)
      (.keyword <| .blanks <| .stop fun _ => ?_)
    · decide
    · decide

/-- A percentage has the word *of*, which no expression has. -/
theorem LooksComputable.percentOf_eq_none {s : List Char} (h : LooksComputable s) :
    percentOf s = none := by
  rw [Option.eq_none_iff_forall_ne_some]
  intro b hb
  have hopens : ∃ o, (o = "0%of ".toList ∨ o = "0% of ".toList) ∧ o <+: outline s := by
    unfold percentOf at hb
    dsimp only at hb
    split at hb
    · rw [outline_minus]
      exact opens_percentOf _ _ _ b hb
    · exact opens_percentOf _ _ _ b hb
  obtain ⟨o, ho, hprefix⟩ := hopens
  have hbars : bars o = true := by
    rcases ho with rfl | rfl <;> decide
  rw [h.not_bars hprefix] at hbars
  cases hbars

/-! ### Answers -/

theorem Calculation.of?_eq_some {s : List Char} {v : Float} {p : Bool} {a : Calculation}
    (h : Calculation.of? s v p = some a) : v.isFinite = true ∧ a.value = v ∧ a.isPartial = p := by
  unfold Calculation.of? at h
  split at h
  · next hfinite =>
      cases h
      exact ⟨hfinite, rfl, rfl⟩
  · cases h

theorem Calculation.exists_of? {v : Float} (h : v.isFinite = true) (s : List Char) (p : Bool) :
    ∃ a, Calculation.of? s v p = some a ∧ a.value = v ∧ a.isPartial = p :=
  ⟨_, if_pos h, rfl, rfl⟩

/-- A text that ends in an operator behind an expression with the value `v`. -/
def RunsTo (s : List Char) (v : Evaluation) : Prop :=
  ∃ r c o ts, trim s = r ++ [c] ∧ Token.ofChar? c = some (.operator o) ∧ tokens? r = some ts ∧
    compute ts = some v

theorem announcesOperand_iff {c : Char} :
    announcesOperand c = true ↔ ∃ o, Token.ofChar? c = some (.operator o) := by
  unfold announcesOperand
  split
  · next o h => exact iff_of_true rfl ⟨o, h⟩
  · next hne => exact iff_of_false (by simp) fun ⟨o, h⟩ => hne o h

/-- The value before an operator is shown exactly if there is one and it is finite. -/
theorem beforeOperator_concat {r : List Char} {c : Char} {o : Operator}
    (h : Token.ofChar? c = some (.operator o)) :
    beforeOperator (r ++ [c]) = (evaluate r).bind fun v =>
      (Calculation.of? (r ++ [c]) v.value true).map fun a => { a with
        display := String.ofList (Decimal.displayChars v.value ++ [' ', c, ' ', '…']) } := by
  have hsign : announcesOperand c = true := announcesOperand_iff.mpr ⟨o, h⟩
  have hvalue : evaluate (trimEnd r) = evaluate r := by
    rw [evaluate_eq, evaluate_eq, tokens?_trimEnd]
  simp only [beforeOperator, List.getLast?_concat, List.dropLast_concat, hsign, hvalue, if_true,
    Option.bind_eq_bind, Option.bind_some]
  refine Option.bind_congr fun v _ => ?_
  cases Calculation.of? (r ++ [c]) v.value true <;> rfl

/-- What a running value is the value of. -/
theorem beforeOperator_eq_some {s : List Char} {a : Calculation}
    (h : beforeOperator s = some a) : ∃ r c o v, s = r ++ [c] ∧
      Token.ofChar? c = some (.operator o) ∧ evaluate r = some v ∧ v.value.isFinite = true ∧
      a.value = v.value ∧ a.isPartial = true := by
  -- There is a last character, and it announces an operand.
  obtain ⟨r, c, o, rfl, ho⟩ : ∃ r c o, s = r ++ [c] ∧ Token.ofChar? c = some (.operator o) := by
    simp only [beforeOperator, Option.bind_eq_bind, Option.bind_eq_some_iff] at h
    obtain ⟨c, hc, h⟩ := h
    obtain ⟨r, hr⟩ := List.getLast?_eq_some_iff.mp hc
    split at h
    · next hsign =>
        obtain ⟨o, ho⟩ := announcesOperand_iff.mp hsign
        exact ⟨r, c, o, hr, ho⟩
    · cases h
  rw [beforeOperator_concat ho, Option.bind_eq_some_iff] at h
  obtain ⟨v, hv, h⟩ := h
  obtain ⟨a', ha', rfl⟩ := Option.map_eq_some_iff.mp h
  obtain ⟨hfinite, hvalue, hpartial⟩ := Calculation.of?_eq_some ha'
  exact ⟨r, c, o, v, rfl, ho, hv, hfinite, hvalue, hpartial⟩

/-- The two ways to answer a text that is no percentage. -/
theorem detect_cases {s : List Char} {a : Calculation} (h : detect s = some a)
    (hpercent : percentOf (trim s) = none) :
    (∃ ts v, tokens? s = some ts ∧ compute ts = some v ∧ v.hasOperation = true ∧
      v.value.isFinite = true ∧ a.value = v.value ∧ a.isPartial = decide (v.missing ≠ 0)) ∨
    ∃ v, RunsTo s v ∧ v.value.isFinite = true ∧ a.value = v.value ∧ a.isPartial = true := by
  simp only [detect, hpercent] at h
  split at h
  · next v hv =>
      rw [evaluate_eq, tokens?_trim, Option.bind_eq_some_iff] at hv
      obtain ⟨ts, hts, hv⟩ := hv
      split at h
      · next hoperation =>
          obtain ⟨hfinite, hvalue, hpartial⟩ := Calculation.of?_eq_some h
          exact Or.inl ⟨ts, v, hts, hv, hoperation, hfinite, hvalue, hpartial⟩
      · cases h
  · obtain ⟨r, c, o, v, htrim, ho, hv, hfinite, hvalue, hpartial⟩ := beforeOperator_eq_some h
    obtain ⟨ts, hts, hv⟩ := Option.bind_eq_some_iff.mp hv
    exact Or.inr ⟨v, ⟨r, c, o, ts, htrim, ho, hts, hv⟩, hfinite, hvalue, hpartial⟩

/-- An expression that computes something is answered. -/
theorem detect_of_compute {s : List Char} {ts : List Token} {v : Evaluation}
    (hts : tokens? s = some ts) (hv : compute ts = some v) (hoperation : v.hasOperation = true)
    (hfinite : v.value.isFinite = true) :
    ∃ a, detect s = some a ∧ a.value = v.value ∧ a.isPartial = decide (v.missing ≠ 0) := by
  have hevaluate : evaluate (trim s) = some v := by
    rw [evaluate_eq, tokens?_trim, hts, Option.bind_some, hv]
  have hpercent : percentOf (trim s) = none :=
    (looksComputable_of_evaluate hevaluate).percentOf_eq_none
  simp only [detect, hpercent, hevaluate, if_pos hoperation]
  exact Calculation.exists_of? hfinite _ _

/-- The tokens before an operator at the end, if they have a value. -/
theorem tokens?_concat_operator {r : List Char} {c : Char} {o : Operator} {ts : List Token}
    {v : Evaluation} (hc : Token.ofChar? c = some (.operator o)) (hts : tokens? r = some ts)
    (hv : compute ts = some v) : tokens? (r ++ [c]) = some (ts ++ [.operator o]) := by
  obtain ⟨-, hnumeral, hname⟩ := Token.of_ofChar?_eq_some hc
  have hstar : c = '*' → ¬ ['*'] <:+ r := by
    intro _ hr
    obtain ⟨us, o', rfl⟩ := exists_operator_of_star hts hr
    rw [compute_concat_operator] at hv
    cases hv
  have hts : tokensAfter none r = some ts := hts
  rw [tokens?, tokensAfter_append hnumeral hname hstar, hts, Option.bind_some,
    tokensAfter_sign_end hc (List.forall_mem_nil _), Option.map_some]

/-- An expression in front of an operator is shown as long as the operand is awaited. -/
theorem detect_of_running {s : List Char} {v : Evaluation} (h : RunsTo s v)
    (hfinite : v.value.isFinite = true) :
    ∃ a, detect s = some a ∧ a.value = v.value ∧ a.isPartial = true := by
  obtain ⟨r, c, o, ts, htrim, hc, hts, hv⟩ := h
  have hnone : evaluate (trim s) = none := by
    rw [evaluate_eq, htrim, tokens?_concat_operator hc hts hv]
    exact compute_concat_operator ts o
  have hbefore : ∃ a, beforeOperator (trim s) = some a ∧ a.value = v.value ∧
      a.isPartial = true := by
    obtain ⟨a, ha, hvalue, hpartial⟩ := Calculation.exists_of? hfinite (r ++ [c]) true
    have hevaluate : evaluate r = some v := by rw [evaluate_eq, hts, Option.bind_some, hv]
    rw [htrim, beforeOperator_concat hc, hevaluate, Option.bind_some, ha]
    exact ⟨_, rfl, hvalue, hpartial⟩
  obtain ⟨a, ha, hanswer⟩ := hbefore
  have hpercent : percentOf (trim s) = none :=
    (looksComputable_of_beforeOperator ha).percentOf_eq_none
  simp only [detect, hpercent, hnone]
  exact ⟨a, ha, hanswer⟩

end Composer.Arithmetic
