import Composer.Arithmetic.Calculation
import Composer.Proofs.Arithmetic.Completeness
import Mathlib.Logic.ExistsUnique
/-!
# Composer.Proofs.Arithmetic.Evaluation

**What a text evaluates to.** A text has a value exactly if its tokens, with the parentheses that
are still open closed at the end, are an expression of the grammar that is not nested too deep and
whose factorials exist; the value is that of the derivation, which is unique as far as arguments
take in the factorial signs and exponents behind them (`evaluate_eq_some_iff`). Without that
condition the grammar also has derivations that are nested less deep and are not read
(`evaluate_cutShort`).
-/

namespace Composer.Arithmetic

/-! ### Open parentheses -/

/-- So many parentheses are left open: none is closed that was not opened, and the numbers of both
kinds tell how many are missing. -/
theorem openAfter_eq_some_iff {depth k : Nat} {ts : List Token} :
    openAfter depth ts = some k ↔
      (∀ us, us <+: ts → us.count .closing ≤ depth + us.count .opening) ∧
        depth + ts.count .opening = ts.count .closing + k := by
  induction ts generalizing depth with
  | nil => simp [openAfter, eq_comm]
  | cons t ts ih =>
      -- The empty prefix closes nothing, and every other one starts with `t`.
      have hnever : (∀ us, us <+: t :: ts → us.count .closing ≤ depth + us.count .opening) ↔
          ∀ us, us <+: ts → (t :: us).count .closing ≤ depth + (t :: us).count .opening := by
        constructor
        · exact fun h us hus => h (t :: us) (List.prefix_cons_inj t |>.mpr hus)
        · intro h us hus
          rcases List.prefix_cons_iff.mp hus with rfl | ⟨vs, rfl, hvs⟩
          · simp
          · exact h vs hvs
      rw [hnever]
      cases t with
      | opening =>
          rw [openAfter, ih]
          refine and_congr (forall₂_congr fun us _ => ?_) ?_
          · simp only [List.count_cons]
            simp
            omega
          · simp only [List.count_cons]
            simp
            omega
      | closing =>
          cases depth with
          | zero =>
              -- Here the first token alone closes too much.
              refine iff_of_false (by simp [openAfter]) fun h => ?_
              exact absurd (h.1 [] (List.nil_prefix)) (by simp)
          | succ depth =>
              rw [openAfter, ih]
              refine and_congr (forall₂_congr fun us _ => ?_) ?_
              · simp
                omega
              · simp
                omega
      | number _ | operator _ | bang | name _ =>
          rw [openAfter, ih]
          · simp
          all_goals simp

/-! ### What a derivation uses -/

namespace Expr

/-- A derivation with all its parts. -/
def parts : Expr → List Expr
  | number x => [number x]
  | constant c => [constant c]
  | group e => group e :: e.parts
  | call f arg => call f arg :: arg.parts
  | factorial e => factorial e :: e.parts
  | negate e => negate e :: e.parts
  | keep e => keep e :: e.parts
  | binary o l r => binary o l r :: (l.parts ++ r.parts)
  | juxtaposed l r => juxtaposed l r :: (l.parts ++ r.parts)

/-- A function, a factorial, an operator between operands or an implied multiplication. -/
def IsOperation : Expr → Prop
  | call _ _ | factorial _ | binary _ _ _ | juxtaposed _ _ => True
  | _ => False

/-- Something is computed exactly if some part of the derivation is an operation. -/
theorem hasOperation_iff (e : Expr) :
    e.hasOperation = true ↔ ∃ d ∈ e.parts, d.IsOperation := by
  induction e with
  | number _ | constant _ => simp [hasOperation, parts, IsOperation]
  | group _ ih | negate _ ih | keep _ ih =>
      rw [hasOperation, ih]
      simp [parts, IsOperation]
  | call _ _ _ | factorial _ _ | binary _ _ _ _ _ | juxtaposed _ _ _ _ =>
      exact iff_of_true rfl ⟨_, List.mem_cons_self, trivial⟩

end Expr

/-! ### Values -/

/-- **A text has a value exactly if it is an expression.** The parentheses that are open at its end
are closed; then its tokens have a derivation in which arguments take in what is behind them, of at
most 64 levels and with a value. Of any number of levels, more only let more texts be read: tokens
that have a derivation have one of that kind, and only one. -/
theorem evaluate_eq_some_iff :
    (∀ (s : List Char) (v : Evaluation), evaluate s = some v ↔
      ∃ ts e, tokens? s = some ts ∧
        (∀ us, us <+: ts → us.count .closing ≤ us.count .opening) ∧
        ts.count .opening = ts.count .closing + v.missing ∧
        Derives .expr (ts ++ List.replicate v.missing .closing) e ∧ e.Reaching ∧
        e.levels ≤ 64 ∧ e.eval = some v.value ∧
        (v.hasOperation = true ↔ ∃ d ∈ e.parts, d.IsOperation)) ∧
    (∀ ts, (∃ e, Derives .expr ts e) ↔ ∃! e, Derives .expr ts e ∧ e.Reaching) ∧
    ∀ n ts e, (rules n).expr ts = some (e, []) ↔
      Derives .expr ts e ∧ e.Reaching ∧ e.levels ≤ n := by
  refine ⟨fun s v => ?_, fun ts => ?_, fun _ _ _ => rules_expr_eq_some_iff⟩
  · have hopen : ∀ ts k, openAfter 0 ts = some k ↔
        (∀ us, us <+: ts → us.count .closing ≤ us.count .opening) ∧
          ts.count .opening = ts.count .closing + k := by
      intro ts k
      simp only [openAfter_eq_some_iff, Nat.zero_add]
    obtain ⟨value, hasOperation, missing⟩ := v
    simp only [evaluate, Option.bind_eq_bind, Option.bind_eq_some_iff, Option.some.injEq,
      Evaluation.mk.injEq]
    constructor
    · rintro ⟨ts, hts, k, hk, e, he, x, hx, rfl, rfl, rfl⟩
      obtain ⟨hclosed, hcount⟩ := (hopen ts k).mp hk
      obtain ⟨hderives, hreaching, hlevels⟩ := parse?_eq_some_iff.mp he
      exact ⟨ts, e, hts, hclosed, hcount, hderives, hreaching, hlevels, hx, e.hasOperation_iff⟩
    · rintro ⟨ts, e, hts, hclosed, hcount, hderives, hreaching, hlevels, hx, hoperation⟩
      refine ⟨ts, hts, missing, (hopen ts missing).mpr ⟨hclosed, hcount⟩, e,
        parse?_eq_some_iff.mpr ⟨hderives, hreaching, hlevels⟩, value, hx, rfl, ?_, rfl⟩
      rw [Bool.eq_iff_iff, e.hasOperation_iff, hoperation]
  · constructor
    · rintro ⟨e, he⟩
      obtain ⟨d, hd, hreaching⟩ := he.exists_reaching
      exact ⟨d, ⟨hd, hreaching⟩, fun d' hd' => hd'.1.unique hd'.2 hd hreaching⟩
    · rintro ⟨e, he, -⟩
      exact ⟨e, he.1⟩

/-! ### Arguments that are cut short -/

/-- An exponent in many parentheses behind the argument of a function. -/
def cutShort : List Char :=
  "abs 1 ^ ".toList ++ List.replicate 63 '(' ++ '1' :: List.replicate 63 ')'

/-- Its tokens. -/
def cutShortTokens : List Token :=
  [.name "abs", .number 1, .operator .power] ++ List.replicate 63 .opening ++
    .number 1 :: List.replicate 63 .closing

/-- A derivation in parentheses. -/
def grouped (e : Expr) : Nat → Expr
  | 0 => e
  | n + 1 => .group (grouped e n)

theorem reaching_grouped {e : Expr} (h : e.Reaching) (n : Nat) : (grouped e n).Reaching := by
  induction n with
  | zero => exact h
  | succ n ih => exact ih

theorem derives_grouped {ts : List Token} {e : Expr} (h : Derives .unary ts e) (n : Nat) :
    Derives .unary (List.replicate n .opening ++ ts ++ List.replicate n .closing)
      (grouped e n) := by
  induction n with
  | zero =>
      rw [List.replicate_zero, List.replicate_zero, List.nil_append, List.append_nil]
      exact h
  | succ n ih =>
      have hgroup := Derives.group (.term (.unary ih))
      have heq : List.replicate (n + 1) Token.opening ++ ts ++
            List.replicate (n + 1) Token.closing =
          .opening :: (List.replicate n .opening ++ ts ++ List.replicate n .closing) ++
            [.closing] := by
        rw [List.replicate_succ, List.replicate_succ']
        simp
      rw [heq]
      exact .power (.suffixed (.primary hgroup))

/-- The exponent in its parentheses. -/
def cutShortExponent : Expr :=
  grouped (.number 1) 63

theorem derives_cutShortExponent :
    Derives .unary (List.replicate 63 .opening ++ [.number 1] ++ List.replicate 63 .closing)
      cutShortExponent :=
  derives_grouped (.power (.suffixed (.primary .number))) 63

/-- The exponent put on the value of the function. -/
theorem derives_cutShort : Derives .expr cutShortTokens
    (.binary .power (.call .abs (.number 1)) cutShortExponent) :=
  .term (.unary (.power (.raised
    (.primary (.call rfl (.suffixed (.primary .number)))) derives_cutShortExponent)))

/-- The exponent taken in by the argument. -/
theorem derives_cutShort_reaching : Derives .expr cutShortTokens
    (.call .abs (.binary .power (.number 1) cutShortExponent)) :=
  .term (.unary (.power (.suffixed (.primary (.call rfl
    (.raised (.primary .number) derives_cutShortExponent))))))

/-- The derivation in which the argument takes the exponent in has a level too many. -/
theorem parse?_cutShortTokens : parse? cutShortTokens = none := by
  rw [Option.eq_none_iff_forall_ne_some]
  intro e he
  obtain ⟨hderives, hreaching, hlevels⟩ := parse?_eq_some_iff.mp he
  have hnumber : (Expr.number 1).Reaching := trivial
  have heq := hderives.unique hreaching derives_cutShort_reaching
    ⟨fun _ => rfl, hnumber, reaching_grouped hnumber 63⟩
  rw [heq] at hlevels
  revert hlevels
  decide

/-- The grammar alone promises too much: here it has a derivation of 64 levels with a value, beside
the one that is read and needs a level more, and the text has no value. -/
theorem evaluate_cutShort :
    ∃ (v : Evaluation) (ts : List Token) (e : Expr), tokens? cutShort = some ts ∧
      (∀ us, us <+: ts → us.count .closing ≤ us.count .opening) ∧
      ts.count .opening = ts.count .closing + v.missing ∧
      Derives .expr (ts ++ List.replicate v.missing .closing) e ∧
      (∃ d, Derives .expr (ts ++ List.replicate v.missing .closing) d ∧ d ≠ e) ∧
      e.levels ≤ 64 ∧ e.eval = some v.value ∧
      (v.hasOperation = true ↔ ∃ d ∈ e.parts, d.IsOperation) ∧
      evaluate cutShort = none := by
  have htokens : tokens? cutShort = some cutShortTokens := by decide +kernel
  have hopen : openAfter 0 cutShortTokens = some 0 := by decide
  have hnone : evaluate cutShort = none := by
    simp [evaluate, htokens, hopen, parse?_cutShortTokens]
  obtain ⟨hclosed, hcount⟩ := openAfter_eq_some_iff.mp hopen
  simp only [Nat.zero_add] at hclosed hcount
  have hlist : cutShortTokens ++ List.replicate 0 .closing = cutShortTokens := List.append_nil _
  refine ⟨⟨Operator.power.apply (Function.abs.apply 1) 1, true, 0⟩, cutShortTokens,
    .binary .power (.call .abs (.number 1)) cutShortExponent, htokens, hclosed, hcount, ?_, ?_,
    ?_, rfl, iff_of_true rfl ?_, hnone⟩
  · rw [hlist]
    exact derives_cutShort
  · rw [hlist]
    exact ⟨_, derives_cutShort_reaching, nofun⟩
  · decide
  · exact ⟨_, List.mem_cons_self, trivial⟩

end Composer.Arithmetic
