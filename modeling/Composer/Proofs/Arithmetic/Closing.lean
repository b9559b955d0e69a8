import Composer.Proofs.Arithmetic.Arguments
import Composer.Proofs.Arithmetic.Percentages
import Composer.Proofs.Arithmetic.Running
/-!
# Composer.Proofs.Arithmetic.Closing

**Closing what is open.** A text with open parentheses has the value that it has with all of them
closed at its end (`detect_closed`). The answer says that the text is not complete, but for a
percentage it does not: whatever is open in the base of a percentage is closed without a word. A
base has to stand on one line, so a percentage that ends in a line break has no answer any more when
something is typed behind the break.
-/

namespace Composer.Arithmetic

open Text

/-! ### Tokens that are closed -/

/-- What is open is what is missing. -/
theorem count_of_compute {s : List Char} {ts : List Token} {v : Evaluation}
    (hts : tokens? s = some ts) (hv : compute ts = some v) :
    s.count '(' = s.count ')' + v.missing := by
  obtain ⟨e, hopen, -⟩ := compute_eq_some_iff.mp hv
  have hcount := (openAfter_eq_some_iff.mp hopen).2
  rw [count_opening hts, count_closing hts] at hcount
  omega

theorem openAfter_append (depth : Nat) (ts us : List Token) :
    openAfter depth (ts ++ us) = (openAfter depth ts).bind fun n => openAfter n us := by
  induction ts generalizing depth with
  | nil => rfl
  | cons t ts ih =>
      cases t with
      | opening => exact ih (depth + 1)
      | closing =>
          cases depth with
          | zero => rfl
          | succ depth => exact ih depth
      | number _ | operator _ | bang | name _ =>
          rw [List.cons_append, openAfter_cons (by simp) (by simp),
            openAfter_cons (by simp) (by simp), ih]

@[simp] theorem openAfter_replicate_closing (n : Nat) :
    openAfter n (List.replicate n .closing) = some 0 := by
  induction n with
  | zero => rfl
  | succ n ih => rw [List.replicate_succ, openAfter, ih]

/-- Closing what is open changes only how much is missing. -/
theorem compute_closed {ts : List Token} {v : Evaluation} (h : compute ts = some v) :
    compute (ts ++ List.replicate v.missing .closing) = some { v with missing := 0 } := by
  obtain ⟨e, hopen, hparse, heval, hoperation⟩ := compute_eq_some_iff.mp h
  refine compute_eq_some_iff.mpr ⟨e, ?_, ?_, heval, hoperation⟩
  · rw [openAfter_append, hopen, Option.bind_some, openAfter_replicate_closing]
  · rw [List.replicate_zero, List.append_nil, hparse]

/-- A closing parenthesis at the end is a token of its own. -/
theorem tokens?_closings {s : List Char} {ts : List Token} (h : tokens? s = some ts) (k : Nat) :
    tokens? (s ++ List.replicate k ')') = some (ts ++ List.replicate k .closing) := by
  induction k with
  | zero => simpa using h
  | succ k ih =>
      rw [List.replicate_succ', List.replicate_succ', ← List.append_assoc, ← List.append_assoc]
      have hclosing : tokens? [')'] = some [.closing] := by
        rw [tokens?, tokensAfter_cons_of_sign rfl (by decide), tokensAfter]
        rfl
      exact tokens?_append_sign rfl (by decide) ih hclosing

/-- A text with its parentheses closed behind some blanks. -/
theorem evaluate_closed {s gap : List Char} {v : Evaluation} (h : evaluate s = some v)
    (hgap : ∀ c ∈ gap, isBlank c = true) :
    evaluate (s ++ gap ++ List.replicate v.missing ')') = some { v with missing := 0 } := by
  rw [evaluate_eq, Option.bind_eq_some_iff] at h
  obtain ⟨ts, hts, hv⟩ := h
  have hfront : tokens? (s ++ gap) = some ts := by
    rw [tokens?, tokensAfter_append_blanks hgap]
    exact hts
  rw [evaluate_eq, tokens?_closings hfront, Option.bind_some, compute_closed hv]

/-! ### Texts that are closed -/

theorem trim_closings {c : Char} (hc : isBlank c = false) {ws : List Char}
    (hws : ∀ d ∈ ws, isBlank d = true) (s : List Char) {k : Nat} (hk : 0 < k) :
    trim (s ++ c :: ws ++ List.replicate k ')') =
      trim (s ++ c :: ws) ++ ws ++ List.replicate k ')' := by
  obtain ⟨k, rfl⟩ := Nat.exists_eq_add_one_of_ne_zero hk.ne'
  have htrim : trim (s ++ c :: (ws ++ List.replicate k ')') ++ [')']) =
      trimStart (s ++ c :: (ws ++ List.replicate k ')')) ++ [')'] :=
    trim_append_cons rfl (by simp) _
  have htext : s ++ c :: ws ++ List.replicate (k + 1) ')' =
      s ++ c :: (ws ++ List.replicate k ')') ++ [')'] := by
    rw [List.replicate_succ']
    simp
  rw [htext, htrim, trim_append_cons hc hws, trimStart, trimStart,
    dropWhile_append_cons_of_neg (Or.inl hc), List.replicate_succ']
  simp

theorem detect_eq_none_of_not_looksComputable {s : List Char} (hpercent : percentOf (trim s) = none)
    (h : ¬ LooksComputable (trim s)) : detect s = none := by
  have hevaluate : evaluate (trim s) = none := by
    rw [Option.eq_none_iff_forall_ne_some]
    exact fun v hv => h (looksComputable_of_evaluate hv)
  have hbefore : beforeOperator (trim s) = none := by
    rw [Option.eq_none_iff_forall_ne_some]
    exact fun a ha => h (looksComputable_of_beforeOperator ha)
  simp only [detect, hpercent, hevaluate, hbefore]

section

variable {s : List Char} {a : Calculation} {k : Nat} (h : detect s = some a)
  (hopen : s.count '(' = s.count ')' + k) (hk : 0 < k)
include h hopen hk

/-- An expression is complete when it is closed. -/
theorem detect_closed_expression (hpercent : percentOf (trim s) = none)
    (hlast : ∀ c ∈ (trim s).getLast?, announcesOperand c = false) :
    a.isPartial = true ∧ ∃ a', detect (s ++ List.replicate k ')') = some a' ∧
      a'.value = a.value ∧ a'.isPartial = false := by
  rcases detect_cases h hpercent with
    ⟨ts, v, hts, hv, hoperation, hfinite, hvalue, hpartial⟩ | ⟨v, hruns, -⟩
  · have hmissing : v.missing = k := by
      have hcount := count_of_compute hts hv
      omega
    refine ⟨?_, ?_⟩
    · rw [hpartial, hmissing]
      exact decide_eq_true hk.ne'
    · have hclosed := compute_closed hv
      rw [hmissing] at hclosed
      obtain ⟨a', ha', hsame, hwhole⟩ :=
        detect_of_compute (tokens?_closings hts k) hclosed hoperation hfinite
      exact ⟨a', ha', hsame.trans hvalue.symm, hwhole⟩
  · obtain ⟨r, c, o, ts, htrim, hc, -⟩ := hruns
    have hsign : announcesOperand c = true := announcesOperand_iff.mpr ⟨o, hc⟩
    rw [hlast c (by rw [htrim, List.getLast?_concat]; rfl)] at hsign
    cases hsign

end

/-! ### Percentages that are closed -/

/-- A percentage is closed in its base. -/
theorem trim_closed_percentage {s p base : List Char} {k : Nat} (hk : 0 < k)
    (hpercent : percentOf (trim s) = some (p, base)) :
    ∃ (q : Percentage) (c : Char) (r : List Char), q.percent = p ∧ base = c :: r ∧
      isBlank c = false ∧ '\n' ∉ c :: r ∧ trim s = q.text ++ c :: r ∧
      trim (s ++ List.replicate k ')') =
        q.text ++ c :: (r ++ blanksAtEnd s ++ List.replicate k ')') := by
  obtain ⟨q, c, r, hp, hbase, htrim, hc, hline⟩ :=
    exists_percentage hpercent not_isBlank_of_getLast?_trim
  refine ⟨q, c, r, hp, hbase, hc, hline, htrim, ?_⟩
  have hword : ¬ ∀ c ∈ s, isBlank c = true := by
    intro hall
    rw [trim_of_isBlank hall] at hpercent
    cases hpercent
  obtain ⟨l, d, gap, rfl, hd, hgap⟩ := exists_last hword
  rw [trim_closings hd hgap l hk, htrim, blanksAtEnd_append_cons hd hgap]
  simp

/-- The parentheses of a percentage are those of its base. -/
theorem Percentage.count_base {q : Percentage} {s base : List Char} (htrim : trim s = q.text ++ base)
    {c : Char} (hc : isParen c = true) : s.count c = base.count c := by
  rw [← count_trim (of_isParen hc).1, htrim, List.count_append,
    List.count_eq_zero.mpr (q.not_mem_text hc), Nat.zero_add]

section

variable {s p base : List Char} {a : Calculation} {k : Nat} (h : detect s = some a)
  (hopen : s.count '(' = s.count ')' + k) (hk : 0 < k)
  (hpercent : percentOf (trim s) = some (p, base))
include h hopen hk hpercent

/-- A percentage has the same value when its base is closed on the same line. -/
theorem detect_closed_percentage (hbreak : '\n' ∉ blanksAtEnd s) :
    ∃ a', detect (s ++ List.replicate k ')') = some a' ∧ a'.value = a.value ∧
      a'.isPartial = false := by
  obtain ⟨x, v, hx, hv, hfinite, hvalue, -⟩ := detect_percentage_eq_some hpercent h
  obtain ⟨q, c, r, rfl, rfl, hc, hline, htrim, hclosings⟩ := trim_closed_percentage hk hpercent
  have hmissing : v.missing = k := by
    obtain ⟨ts, hts, hcompute⟩ := Option.bind_eq_some_iff.mp hv
    have hbase := count_of_compute hts hcompute
    rw [q.count_base htrim rfl, q.count_base htrim rfl] at hopen
    omega
  have hclosed := evaluate_closed hv (isBlank_of_mem_blanksAtEnd s)
  rw [hmissing, List.cons_append, List.cons_append] at hclosed
  have hline' : '\n' ∉ c :: (r ++ blanksAtEnd s ++ List.replicate k ')') := by
    rw [← List.cons_append, ← List.cons_append, List.mem_append, List.mem_append]
    rintro ((hmem | hmem) | hmem)
    · exact hline hmem
    · exact hbreak hmem
    · cases (List.mem_replicate.mp hmem).2
  have hpercent' := q.percentOf_append hc hline'
  rw [← hclosings] at hpercent'
  obtain ⟨a', ha', hsame, hwhole⟩ := detect_of_percentage hpercent' hx hclosed hfinite
  exact ⟨a', ha', hsame.trans hvalue.symm, hwhole⟩

omit h in
/-- Behind a line break it has no base any more. -/
theorem detect_closed_line (hbreak : '\n' ∈ blanksAtEnd s) :
    detect (s ++ List.replicate k ')') = none := by
  obtain ⟨q, c, r, rfl, rfl, hc, hline, htrim, hclosings⟩ := trim_closed_percentage hk hpercent
  refine detect_eq_none_of_not_looksComputable ?_ fun hlooks => ?_
  · rw [Option.eq_none_iff_forall_ne_some]
    rintro ⟨p', base'⟩ hpercent'
    obtain ⟨q', c', r', -, -, htrim', -, hline'⟩ :=
      exists_percentage hpercent' not_isBlank_of_getLast?_trim
    -- The line break stands behind a parenthesis, and so in the base.
    obtain ⟨l, w, hbase⟩ : ∃ l w, c :: r = l ++ '(' :: w := by
      refine List.append_of_mem (List.count_pos_iff.mp ?_)
      rw [q.count_base htrim rfl] at hopen
      omega
    have hsplit : q'.text ++ c' :: r' =
        (q.text ++ l) ++ '(' :: (w ++ blanksAtEnd s ++ List.replicate k ')') := by
      rw [← htrim', hclosings, ← List.cons_append, ← List.cons_append, hbase]
      simp
    exact hline' ((q'.suffix_of_isParen rfl hsplit).subset (by simp [hbreak]))
  · rw [hclosings, List.append_assoc, ← List.cons_append, ← List.append_assoc, ← htrim] at hlooks
    have hfront : LooksComputable (trim s) := by
      refine hlooks.of_append fun e he => ?_
      rcases List.mem_append.mp he with he | he
      · exact not_isAlpha_of_isBlank (isBlank_of_mem_blanksAtEnd s e he)
      · rw [(List.mem_replicate.mp he).2]
        rfl
    rw [hfront.percentOf_eq_none] at hpercent
    cases hpercent

end

/-- **Closing what is open keeps the value.** An expression with open parentheses is incomplete, and
with all of them closed at its end it is complete and has the same value. A percentage is complete
as it is. It has the same value closed, unless a line break comes before the parentheses: then it
has none. -/
theorem detect_closed {s : List Char} {a : Calculation} {k : Nat} (h : detect s = some a)
    (hopen : s.count '(' = s.count ')' + k) (hk : 0 < k)
    (hlast : ∀ c ∈ (trim s).getLast?, announcesOperand c = false) :
    a.isPartial = (percentOf (trim s)).isNone ∧
    ((percentOf (trim s)).isNone = true ∨ '\n' ∉ blanksAtEnd s →
      ∃ a', detect (s ++ List.replicate k ')') = some a' ∧ a'.value = a.value ∧
        a'.isPartial = false) ∧
    ((percentOf (trim s)).isSome = true → '\n' ∈ blanksAtEnd s →
      detect (s ++ List.replicate k ')') = none) := by
  cases hpercent : percentOf (trim s) with
  | none =>
      obtain ⟨hpartial, hclosed⟩ := detect_closed_expression h hopen hk hpercent hlast
      exact ⟨hpartial, fun _ => hclosed, fun hsome => by cases hsome⟩
  | some b =>
      obtain ⟨x, v, -, -, -, -, hwhole⟩ := detect_percentage_eq_some hpercent h
      refine ⟨hwhole, ?_, fun _ => detect_closed_line hopen hk hpercent⟩
      rintro (hnone | hbreak)
      · cases hnone
      · exact detect_closed_percentage h hopen hk hpercent hbreak

/-- An open sum, and a percentage of it. -/
theorem detect_closed_sum :
    (∃ a a', detect "(2 + 3".toList = some a ∧ a.isPartial = true ∧
      detect "(2 + 3)".toList = some a' ∧ a'.value = a.value ∧ a'.isPartial = false) ∧
    ∃ a a', detect "10% of (2 + 3".toList = some a ∧ a.isPartial = false ∧
      detect "10% of (2 + 3)".toList = some a' ∧ a'.value = a.value ∧ a'.isPartial = false := by
  have htokens : tokens? "(2 + 3".toList =
      some [.opening, .number 2, .operator .plus, .number 3] := by decide +kernel
  have hcompute : compute [.opening, .number 2, .operator .plus, .number 3] =
      some ⟨2 + 3, true, 1⟩ := rfl
  have hsum : (2 + 3 : Float).isFinite = true := by decide +kernel
  have hten : Decimal.ofText? "10".toList = some 10 := by decide +kernel
  have hvalue : evaluate "(2 + 3".toList = some ⟨2 + 3, true, 1⟩ := by
    rw [evaluate_eq, htokens, Option.bind_some, hcompute]
  have hshare : (10 / 100 * (2 + 3) : Float).isFinite = true := by decide +kernel
  have hfront : percentOf (trim "(2 + 3".toList) = none := by decide +kernel
  have hfront' : percentOf (trim "10% of (2 + 3".toList) = some ("10".toList, "(2 + 3".toList) := by
    decide +kernel
  obtain ⟨a, ha, -⟩ := detect_of_compute htokens hcompute rfl hsum
  obtain ⟨b, hb, -⟩ := detect_of_percentage hfront' hten hvalue hshare
  have hlast {s : List Char} (h : (trim s).getLast? = some '3') :
      ∀ c ∈ (trim s).getLast?, announcesOperand c = false := by
    rw [h]
    intro c hc
    obtain rfl := Option.some.inj hc
    decide
  obtain ⟨hpartial, hclosed, -⟩ :=
    detect_closed (k := 1) ha (by decide) Nat.one_pos (hlast (by decide))
  obtain ⟨hpartial', hclosed', -⟩ :=
    detect_closed (k := 1) hb (by decide) Nat.one_pos (hlast (by decide))
  rw [hfront] at hpartial hclosed
  rw [hfront'] at hpartial'
  obtain ⟨a', ha', hsame⟩ := hclosed (Or.inl rfl)
  obtain ⟨b', hb', hsame'⟩ := hclosed' (Or.inr (by decide))
  exact ⟨⟨a, a', ha, hpartial, ha', hsame⟩, b, b', hb, hpartial', hb', hsame'⟩

end Composer.Arithmetic
