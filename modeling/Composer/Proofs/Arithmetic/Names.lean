import Composer.Arithmetic.Calculation
/-!
# Composer.Proofs.Arithmetic.Names

**The names in an expression.** Tokens are an expression only if every name among them is that of
a constant or a function (`mem_names_of_parse?`). The grammar is followed once: what a rule takes
off the tokens holds no other names.
-/

namespace Composer.Arithmetic

/-! ### Names in derivations -/

/-- The names that an expression may hold. -/
def names : List String :=
  ["pi", "e", "tau", "sin", "cos", "tan", "asin", "acos", "atan", "sqrt", "cbrt", "abs", "ln",
    "log", "log2", "exp", "floor", "ceil", "round"]

theorem mem_names_of_constant {w : String} {c : Constant} (h : Constant.named? w = some c) :
    w ∈ names := by
  unfold Constant.named? at h
  split at h <;> first | decide | cases h

theorem mem_names_of_function {w : String} {f : Function} (h : Function.named? w = some f) :
    w ∈ names := by
  unfold Function.named? at h
  split at h <;> first | decide | cases h

/-- What the rule takes off the tokens holds known names only. -/
def Rule.Knows (r : Rule) : Prop :=
  ∀ ⦃ts e rest⦄, r ts = some (e, rest) → ∀ w, .name w ∈ ts → w ∈ names ∨ .name w ∈ rest

/-- The rules of a level take known names only. -/
structure Rules.Knows (r : Rules) : Prop where
  /-- So does a whole expression. -/
  expr : r.expr.Knows
  /-- So does a factor with its signs. -/
  unary : r.unary.Knows
  /-- So does a factor without signs. -/
  power : r.power.Knows

/-- What is left behind a first derivation is what a second one starts with. -/
theorem Rule.Knows.trans {r : Rule} {w : String} {ts rest rest' : List Token} {e : Expr}
    (h : r.Knows) (hr : r ts = some (e, rest)) (hw : .name w ∈ ts)
    (hrest : .name w ∈ rest → w ∈ names ∨ .name w ∈ rest') : w ∈ names ∨ .name w ∈ rest' := by
  rcases h hr w hw with hw | hw
  · exact Or.inl hw
  · exact hrest hw

/-- Two rules in a row take known names only. -/
theorem Rule.Knows.bind {r : Rule} {k : Expr → Rule} (h : r.Knows) (hk : ∀ e, (k e).Knows) :
    Rule.Knows fun ts => (r ts).bind fun p => k p.1 p.2 := by
  intro ts e rest hbind w hw
  obtain ⟨⟨e', ts'⟩, hfirst, hsecond⟩ := Option.bind_eq_some_iff.mp hbind
  exact h.trans hfirst hw fun hw => hk e' hsecond w hw

theorem Rules.knows_none : Rules.none.Knows :=
  ⟨fun _ _ _ h => (by cases h), fun _ _ _ h => (by cases h), fun _ _ _ h => (by cases h)⟩

section

variable {inner : Rules} (hinner : inner.Knows)
include hinner

theorem knows_primary : (primary inner).Knows := by
  intro ts e rest h w hw
  unfold primary at h
  split at h
  · obtain ⟨-, rfl⟩ := Prod.mk.inj (Option.some.inj h)
    exact Or.inr (by simpa using hw)
  · split at h
    · next he =>
        obtain ⟨-, rfl⟩ := Prod.mk.inj (Option.some.inj h)
        refine hinner.expr.trans he (by simpa using hw) fun hw => ?_
        exact Or.inr (by simpa using hw)
    · cases h
  · next v ts =>
      -- The name itself is known in both cases that succeed.
      have hmem : w = v ∨ .name w ∈ ts := by simpa using hw
      split at h
      · next c hc =>
          obtain ⟨-, rfl⟩ := Prod.mk.inj (Option.some.inj h)
          rcases hmem with rfl | hw
          · exact Or.inl (mem_names_of_constant hc)
          · exact Or.inr hw
      · next f _ hf =>
          obtain ⟨⟨arg, rest'⟩, hpower, heq⟩ := Option.map_eq_some_iff.mp h
          obtain ⟨-, rfl⟩ := Prod.mk.inj heq
          rcases hmem with rfl | hw
          · exact Or.inl (mem_names_of_function hf)
          · exact hinner.power hpower w hw
      · cases h
  · cases h

omit hinner in
theorem mem_bangs {w : String} {ts : List Token} (e : Expr) (h : .name w ∈ ts) :
    .name w ∈ (bangs e ts).2 := by
  induction e, ts using bangs.induct with
  | case1 e ts ih => exact ih (by simpa using h)
  | case2 e ts hne =>
      rw [bangs]
      · exact h
      · exact hne

theorem knows_power : (power inner).Knows := by
  intro ts e rest h w hw
  simp only [power, Option.bind_eq_bind, Option.bind_eq_some_iff] at h
  obtain ⟨⟨e', ts'⟩, hprimary, h⟩ := h
  refine (knows_primary hinner).trans hprimary hw fun hw => ?_
  have hbangs := mem_bangs e' hw
  dsimp only at h
  split at h
  · next heq =>
      obtain ⟨⟨exponent, rest'⟩, hunary, hpair⟩ := Option.map_eq_some_iff.mp h
      obtain ⟨-, rfl⟩ := Prod.mk.inj hpair
      rw [heq] at hbangs
      exact hinner.unary hunary w (by simpa using hbangs)
  · next heq =>
      obtain ⟨-, rfl⟩ := Prod.mk.inj (Option.some.inj h)
      rw [heq] at hbangs
      exact Or.inr hbangs

theorem knows_unary : (unary inner).Knows := by
  intro ts e rest h w hw
  unfold unary at h
  split at h
  · obtain ⟨⟨e', rest'⟩, hunary, hpair⟩ := Option.map_eq_some_iff.mp h
    obtain ⟨-, rfl⟩ := Prod.mk.inj hpair
    exact hinner.unary hunary w (by simpa using hw)
  · obtain ⟨⟨e', rest'⟩, hunary, hpair⟩ := Option.map_eq_some_iff.mp h
    obtain ⟨-, rfl⟩ := Prod.mk.inj hpair
    exact hinner.unary hunary w (by simpa using hw)
  · exact knows_power hinner h w hw

theorem knows_factors (fuel : Nat) (left : Expr) : (factors inner fuel left).Knows := by
  induction fuel generalizing left with
  | zero => exact fun _ _ _ h => (by cases h)
  | succ fuel ih =>
      intro ts e rest h w hw
      have next (o : Expr → Expr) := (knows_unary hinner).bind fun right => ih (o right)
      unfold factors at h
      split at h
      · exact next _ h w (by simpa using hw)
      · exact next _ h w (by simpa using hw)
      · exact next _ h w (by simpa using hw)
      · exact next _ h w hw
      · exact next _ h w hw
      · obtain ⟨-, rfl⟩ := Prod.mk.inj (Option.some.inj h)
        exact Or.inr hw

theorem knows_term : (term inner).Knows :=
  (knows_unary hinner).bind (k := fun e ts => factors inner (ts.length + 1) e ts)
    fun e _ _ _ h => knows_factors hinner _ e h

theorem knows_terms (fuel : Nat) (left : Expr) : (terms inner fuel left).Knows := by
  induction fuel generalizing left with
  | zero => exact fun _ _ _ h => (by cases h)
  | succ fuel ih =>
      intro ts e rest h w hw
      have next (o : Operator) := (knows_term hinner).bind fun right => ih (.binary o left right)
      unfold terms at h
      split at h
      · exact next _ h w (by simpa using hw)
      · exact next _ h w (by simpa using hw)
      · obtain ⟨-, rfl⟩ := Prod.mk.inj (Option.some.inj h)
        exact Or.inr hw

theorem knows_expr : (expr inner).Knows :=
  (knows_term hinner).bind (k := fun e ts => terms inner (ts.length + 1) e ts)
    fun e _ _ _ h => knows_terms hinner _ e h

end

theorem Rules.knows (n : Nat) : (rules n).Knows := by
  induction n with
  | zero => exact ⟨knows_expr knows_none, knows_unary knows_none, knows_power knows_none⟩
  | succ n ih => exact ⟨knows_expr ih, knows_unary ih, knows_power ih⟩

/-- Every name in an expression is known. -/
theorem mem_names_of_parse? {ts : List Token} {e : Expr} (h : parse? ts = some e) {w : String}
    (hw : .name w ∈ ts) : w ∈ names := by
  unfold parse? at h
  split at h
  · next he =>
      rcases (Rules.knows maxLevels).expr he w hw with hw | hw
      · exact hw
      · cases hw
  · cases h

end Composer.Arithmetic
