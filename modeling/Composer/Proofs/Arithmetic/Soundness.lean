import Composer.Proofs.Arithmetic.Derivation
/-!
# Composer.Proofs.Arithmetic.Soundness

**Readers take nothing but what the grammar derives.** What a reader of a symbol takes off the
tokens has a derivation from the symbol, it is reaching, it opens no more levels than there are,
and what is left cannot go on with the symbol (`Rule.Sound`). The readers of a level only use those
of the next one, so each of them is followed on its own, under the hypothesis that the next level
is read correctly.
-/

namespace Composer.Arithmetic

/-! ### Where a symbol ends -/

/-- The tokens with which a reader of a symbol would go on. -/
def Symbol.continues : Symbol → Token → Bool
  | .expr, .number _ | .expr, .closing => false
  | .expr, _ => true
  | .term, .number _ | .term, .closing => false
  | .term, .operator o => !o.isAdditive
  | .term, _ => true
  | .unary, .operator o => o = .power
  | .unary, t => t = .bang
  | .power, .operator o => o = .power
  | .power, t => t = .bang
  | .suffixed, t => t = .bang
  | .primary, _ => false

/-- The tokens do not go on with a symbol. -/
def Stops (σ : Symbol) (ts : List Token) : Prop :=
  ∀ t ∈ ts.head?, σ.continues t = false

@[simp] theorem stops_nil (σ : Symbol) : Stops σ [] := by
  simp [Stops]

@[simp] theorem stops_cons {σ : Symbol} {t : Token} {ts : List Token} :
    Stops σ (t :: ts) ↔ σ.continues t = false := by
  simp [Stops]

/-- A sign before a factor does not change where it ends. -/
theorem stops_unary {ts : List Token} : Stops .unary ts ↔ Stops .power ts := by
  cases ts with
  | nil => simp
  | cons t ts =>
      rw [stops_cons, stops_cons]
      cases t <;> rfl

namespace Stops

variable {ts : List Token}

theorem term (h : Stops .expr ts) : Stops .term ts := by
  cases ts with
  | nil => simp
  | cons t ts =>
      rw [stops_cons] at h ⊢
      cases t with
      | number _ | closing => rfl
      | operator _ | opening | bang | name _ => cases h

theorem unary (h : Stops .term ts) : Stops .unary ts := by
  cases ts with
  | nil => simp
  | cons t ts =>
      rw [stops_cons] at h ⊢
      cases t with
      | number _ | closing => rfl
      | operator o => cases o <;> first | rfl | cases h
      | opening | bang | name _ => cases h

/-- Behind an operand only an exponent could follow that is no factorial sign. -/
theorem power_iff : Stops .power ts ↔
    Stops .suffixed ts ∧ ∀ us, ts ≠ .operator .power :: us := by
  cases ts with
  | nil => simp
  | cons t ts =>
      rw [stops_cons, stops_cons]
      cases t with
      | operator o => cases o <;> simp [Symbol.continues]
      | number _ | opening | closing | bang | name _ => simp [Symbol.continues]

end Stops

/-! ### What readers take -/

/-- A reaching derivation with fewer than `n` levels. -/
structure Admits (n : Nat) (σ : Symbol) (ts : List Token) (e : Expr) : Prop where
  /-- The symbol stands for the tokens. -/
  derives : Derives σ ts e
  /-- Arguments take in what they can. -/
  reaching : e.Reaching
  /-- How deep the derivation is nested. -/
  levels : e.levels < n

namespace Admits

variable {n : Nat} {ts us : List Token} {l r : Expr}

theorem sum {o : Operator} (ho : o.isAdditive = true) (hl : Admits n .expr ts l)
    (hr : Admits n .term us r) :
    Admits n .expr (ts ++ .operator o :: us) (.binary o l r) where
  derives := .sum ho hl.derives hr.derives
  reaching :=
    ⟨fun h => absurd h (Operator.ne_power_of_isAdditive ho), hl.reaching, hr.reaching⟩
  levels := by
    rw [Expr.levels_binary (Operator.ne_power_of_isAdditive ho)]
    exact Nat.max_lt.mpr ⟨hl.levels, hr.levels⟩

theorem product {o : Operator} (ho : o.isMultiplicative = true) (hl : Admits n .term ts l)
    (hr : Admits n .unary us r) :
    Admits n .term (ts ++ .operator o :: us) (.binary o l r) where
  derives := .product ho hl.derives hr.derives
  reaching :=
    ⟨fun h => absurd h (Operator.ne_power_of_isMultiplicative ho), hl.reaching, hr.reaching⟩
  levels := by
    rw [Expr.levels_binary (Operator.ne_power_of_isMultiplicative ho)]
    exact Nat.max_lt.mpr ⟨hl.levels, hr.levels⟩

theorem juxtaposed {t : Token} (ht : t.startsFactor = true) (hl : Admits n .term ts l)
    (hr : Admits n .power (t :: us) r) : Admits n .term (ts ++ t :: us) (.juxtaposed l r) where
  derives := .juxtaposed ht hl.derives hr.derives
  reaching := ⟨hl.reaching, hr.reaching⟩
  levels := Nat.max_lt.mpr ⟨hl.levels, hr.levels⟩

end Admits

/-- Where the argument of a function would go on, the operand is not the value of one. -/
theorem isCall_eq_false {e : Expr} {t : Token} {ts : List Token}
    (h : e.isCall = true → Stops .power (t :: ts)) (ht : Symbol.power.continues t = true) :
    e.isCall = false := by
  rw [Bool.eq_false_iff]
  intro hcall
  have hstops := stops_cons.mp (h hcall)
  rw [ht] at hstops
  cases hstops

/-- A reader takes nothing but derivations of a symbol, and as much as it can. -/
def Rule.Sound (r : Rule) (n : Nat) (σ : Symbol) : Prop :=
  ∀ ⦃ts e rest⦄, r ts = some (e, rest) → ∃ us, ts = us ++ rest ∧ Admits n σ us e ∧ Stops σ rest

/-- The readers of a level take nothing else. -/
structure Rules.Sound (r : Rules) (n : Nat) : Prop where
  expr : r.expr.Sound n .expr
  unary : r.unary.Sound n .unary
  power : r.power.Sound n .power

/-! ### Equations of the readers -/

theorem bangs_of_stops {ts : List Token} (h : Stops .suffixed ts) (e : Expr) :
    bangs e ts = (e, ts) := by
  rw [bangs]
  rintro us rfl
  cases stops_cons.mp h

section

variable (inner : Rules)

/-- An operand and its exponent. -/
theorem power_raised {ts us : List Token} {e : Expr}
    (h : (primary inner ts).map (fun p => bangs p.1 p.2) = some (e, .operator .power :: us)) :
    power inner ts = (inner.unary us).map fun p => (.binary .power e p.1, p.2) := by
  obtain ⟨p, hp, hbangs⟩ := Option.map_eq_some_iff.mp h
  simp only [power, hp, Option.bind_eq_bind, Option.bind_some, hbangs]

/-- An operand without an exponent. -/
theorem power_of_ne {ts us : List Token} {e : Expr}
    (h : (primary inner ts).map (fun p => bangs p.1 p.2) = some (e, us))
    (hne : ∀ vs, us ≠ .operator .power :: vs) : power inner ts = some (e, us) := by
  obtain ⟨p, hp, hbangs⟩ := Option.map_eq_some_iff.mp h
  simp only [power, hp, Option.bind_eq_bind, Option.bind_some, hbangs]

/-- Without a sign a factor is read as an operand and its exponent. -/
theorem unary_cons {t : Token} (ht : t.startsOperand = true) (ts : List Token) :
    unary inner (t :: ts) = power inner (t :: ts) := by
  cases t with
  | number _ | opening | name _ => rfl
  | operator _ | closing | bang => cases ht

/-- An operator between factors. -/
theorem factors_operator {o : Operator} (ho : o.isMultiplicative = true) (fuel : Nat) (left : Expr)
    (ts : List Token) :
    factors inner (fuel + 1) left (.operator o :: ts) =
      (unary inner ts).bind fun p => factors inner fuel (.binary o left p.1) p.2 := by
  cases o with
  | plus | minus | power => cases ho
  | _ => rfl

/-- A factor without an operator before it. -/
theorem factors_factor {t : Token} (ht : t.startsFactor = true) (fuel : Nat) (left : Expr)
    (ts : List Token) :
    factors inner (fuel + 1) left (t :: ts) =
      (unary inner (t :: ts)).bind fun p => factors inner fuel (.juxtaposed left p.1) p.2 := by
  cases t with
  | opening | name _ => rfl
  | number _ | operator _ | closing | bang => cases ht

theorem factors_of_stops {ts : List Token} (h : Stops .term ts) (fuel : Nat) (left : Expr) :
    factors inner (fuel + 1) left ts = some (left, ts) := by
  cases ts with
  | nil => rfl
  | cons t ts =>
      rw [stops_cons] at h
      cases t with
      | number _ | closing => rfl
      | operator o => cases o <;> first | rfl | cases h
      | opening | bang | name _ => cases h

/-- An operator between terms. -/
theorem terms_operator {o : Operator} (ho : o.isAdditive = true) (fuel : Nat) (left : Expr)
    (ts : List Token) :
    terms inner (fuel + 1) left (.operator o :: ts) =
      (term inner ts).bind fun p => terms inner fuel (.binary o left p.1) p.2 := by
  cases o with
  | plus | minus => rfl
  | _ => cases ho

theorem terms_of_stops {ts : List Token} (h : Stops .expr ts) (fuel : Nat) (left : Expr) :
    terms inner (fuel + 1) left ts = some (left, ts) := by
  cases ts with
  | nil => rfl
  | cons t ts =>
      rw [stops_cons] at h
      cases t with
      | number _ | closing => rfl
      | operator _ | opening | bang | name _ => cases h

end

/-! ### Readers take nothing else -/

section

variable {inner : Rules} {n : Nat} (hinner : inner.Sound n)
include hinner

/-- Behind the value of a function there is nothing that its argument could take in. -/
theorem sound_primary {ts : List Token} {e : Expr} {rest : List Token}
    (h : primary inner ts = some (e, rest)) :
    ∃ us, ts = us ++ rest ∧ Admits (n + 1) .primary us e ∧
      (e.isCall = true → Stops .power rest) := by
  unfold primary at h
  split at h
  · obtain ⟨rfl, rfl⟩ := Prod.mk.inj (Option.some.inj h)
    exact ⟨[_], rfl, ⟨.number, trivial, Nat.succ_pos n⟩, nofun⟩
  · split at h
    · next he =>
        obtain ⟨rfl, rfl⟩ := Prod.mk.inj (Option.some.inj h)
        obtain ⟨us, rfl, hus, -⟩ := hinner.expr he
        refine ⟨.opening :: us ++ [.closing], by simp, ⟨.group hus.derives, hus.reaching, ?_⟩,
          nofun⟩
        exact Nat.succ_lt_succ hus.levels
    · cases h
  · split at h
    · next hc =>
        obtain ⟨rfl, rfl⟩ := Prod.mk.inj (Option.some.inj h)
        exact ⟨[_], rfl, ⟨.constant hc, trivial, Nat.succ_pos n⟩, nofun⟩
    · next hf =>
        obtain ⟨⟨arg, rest'⟩, hpower, heq⟩ := Option.map_eq_some_iff.mp h
        obtain ⟨rfl, rfl⟩ := Prod.mk.inj heq
        obtain ⟨us, rfl, hus, hstops⟩ := hinner.power hpower
        exact ⟨_ :: us, rfl,
          ⟨.call hf hus.derives, hus.reaching, Nat.succ_lt_succ hus.levels⟩, fun _ => hstops⟩
    · cases h
  · cases h

omit hinner in
/-- Factorial signs are put on an operand as long as there are any. -/
theorem sound_bangs {us ts : List Token} {e : Expr} (he : Admits n .suffixed us e)
    (hcall : e.isCall = true → Stops .power ts) :
    ∃ vs, us ++ ts = vs ++ (bangs e ts).2 ∧ Admits n .suffixed vs (bangs e ts).1 ∧
      Stops .suffixed (bangs e ts).2 ∧
      ((bangs e ts).1.isCall = true → Stops .power (bangs e ts).2) := by
  -- Along the signs: each one goes over from what is left to what is taken.
  induction e, ts using bangs.induct generalizing us with
  | case1 e ts ih =>
      have hoperand : e.isCall = false := isCall_eq_false hcall rfl
      have hus : us ++ .bang :: ts = us ++ [.bang] ++ ts := by simp
      rw [bangs, hus]
      exact ih ⟨.factorial he.derives, ⟨hoperand, he.reaching⟩, he.levels⟩ nofun
  | case2 e ts hne =>
      have hstops : Stops .suffixed ts := by
        cases ts with
        | nil => simp
        | cons t ts =>
            rw [stops_cons]
            exact decide_eq_false fun ht => hne ts (ht ▸ rfl)
      rw [bangs_of_stops hstops]
      exact ⟨us, rfl, he, hstops, hcall⟩

/-- What is taken before an exponent could follow. -/
theorem sound_suffixed {ts us : List Token} {e : Expr}
    (h : (primary inner ts).map (fun p => bangs p.1 p.2) = some (e, us)) :
    ∃ vs, ts = vs ++ us ∧ Admits (n + 1) .suffixed vs e ∧ Stops .suffixed us ∧
      (e.isCall = true → Stops .power us) := by
  obtain ⟨⟨d, rest⟩, hprimary, hbangs⟩ := Option.map_eq_some_iff.mp h
  obtain ⟨vs, rfl, hvs, hcall⟩ := sound_primary hinner hprimary
  have hsound := sound_bangs ⟨.primary hvs.derives, hvs.reaching, hvs.levels⟩ hcall
  rwa [hbangs] at hsound

theorem sound_power : (power inner).Sound (n + 1) .power := by
  intro ts e rest h
  cases hsuffixed : (primary inner ts).map (fun p => bangs p.1 p.2) with
  | none =>
      rw [Option.map_eq_none_iff] at hsuffixed
      simp [power, hsuffixed] at h
  | some p =>
      obtain ⟨d, us⟩ := p
      obtain ⟨vs, rfl, hvs, hstops, hcall⟩ := sound_suffixed hinner hsuffixed
      by_cases hus : ∃ ws, us = .operator .power :: ws
      · obtain ⟨ws, rfl⟩ := hus
        rw [power_raised inner hsuffixed] at h
        obtain ⟨⟨x, rest'⟩, hunary, heq⟩ := Option.map_eq_some_iff.mp h
        obtain ⟨rfl, rfl⟩ := Prod.mk.inj heq
        obtain ⟨ws', rfl, hws, hrest⟩ := hinner.unary hunary
        have hoperand : d.isCall = false := isCall_eq_false hcall rfl
        refine ⟨vs ++ .operator .power :: ws', by simp, ⟨.raised hvs.derives hws.derives,
          ⟨fun _ => hoperand, hvs.reaching, hws.reaching⟩, ?_⟩, stops_unary.mp hrest⟩
        exact Nat.max_lt.mpr ⟨hvs.levels, Nat.succ_lt_succ hws.levels⟩
      · have hne : ∀ ws, us ≠ .operator .power :: ws := fun ws heq => hus ⟨ws, heq⟩
        rw [power_of_ne inner hsuffixed hne] at h
        obtain ⟨rfl, rfl⟩ := Prod.mk.inj (Option.some.inj h)
        exact ⟨vs, rfl, ⟨.suffixed hvs.derives, hvs.reaching, hvs.levels⟩,
          Stops.power_iff.mpr ⟨hstops, hne⟩⟩

theorem sound_unary : (unary inner).Sound (n + 1) .unary := by
  intro ts e rest h
  unfold unary at h
  split at h
  · obtain ⟨⟨d, rest'⟩, hunary, heq⟩ := Option.map_eq_some_iff.mp h
    obtain ⟨rfl, rfl⟩ := Prod.mk.inj heq
    obtain ⟨us, rfl, hus, hstops⟩ := hinner.unary hunary
    exact ⟨_ :: us, rfl, ⟨.negate hus.derives, hus.reaching, Nat.succ_lt_succ hus.levels⟩, hstops⟩
  · obtain ⟨⟨d, rest'⟩, hunary, heq⟩ := Option.map_eq_some_iff.mp h
    obtain ⟨rfl, rfl⟩ := Prod.mk.inj heq
    obtain ⟨us, rfl, hus, hstops⟩ := hinner.unary hunary
    exact ⟨_ :: us, rfl, ⟨.keep hus.derives, hus.reaching, Nat.succ_lt_succ hus.levels⟩, hstops⟩
  · obtain ⟨us, rfl, hus, hstops⟩ := sound_power hinner h
    exact ⟨us, rfl, ⟨.power hus.derives, hus.reaching, hus.levels⟩, stops_unary.mpr hstops⟩

omit hinner in
/-- How the tokens behind a factor go on. -/
theorem factors_cases {ts : List Token} (h : Stops .unary ts) :
    Stops .term ts ∨ (∃ o us, ts = .operator o :: us ∧ o.isMultiplicative = true) ∨
      ∃ t us, ts = t :: us ∧ t.startsFactor = true := by
  cases ts with
  | nil => exact Or.inl (stops_nil _)
  | cons t us =>
      cases t with
      | number _ | closing => exact Or.inl (stops_cons.mpr rfl)
      | opening | name _ => exact Or.inr (Or.inr ⟨_, us, rfl, rfl⟩)
      | bang => cases stops_cons.mp h
      | operator o =>
          cases o with
          | plus | minus => exact Or.inl (stops_cons.mpr rfl)
          | power => cases stops_cons.mp h
          | _ => exact Or.inr (Or.inl ⟨_, us, rfl, rfl⟩)

omit hinner in
/-- How the tokens behind a term go on. -/
theorem terms_cases {ts : List Token} (h : Stops .term ts) :
    Stops .expr ts ∨ ∃ o us, ts = .operator o :: us ∧ o.isAdditive = true := by
  cases ts with
  | nil => exact Or.inl (stops_nil _)
  | cons t us =>
      cases t with
      | number _ | closing => exact Or.inl (stops_cons.mpr rfl)
      | opening | bang | name _ => cases stops_cons.mp h
      | operator o =>
          cases o with
          | plus | minus => exact Or.inr ⟨_, us, rfl, rfl⟩
          | _ => cases stops_cons.mp h

omit hinner in
theorem startsOperand_of_startsFactor {t : Token} (h : t.startsFactor = true) :
    t.startsOperand = true := by
  cases t with
  | opening | name _ => rfl
  | number _ | operator _ | closing | bang => cases h

/-- A factor that starts with a parenthesis or a name has no sign, and takes that token. -/
theorem sound_factor {t : Token} {ts : List Token} {e : Expr} {rest : List Token}
    (ht : t.startsFactor = true) (h : unary inner (t :: ts) = some (e, rest)) :
    ∃ us, ts = us ++ rest ∧ Admits (n + 1) .power (t :: us) e ∧ Stops .unary rest := by
  rw [unary_cons inner (startsOperand_of_startsFactor ht)] at h
  obtain ⟨us, hts, hus, hstops⟩ := sound_power hinner h
  obtain ⟨t', us, rfl, -⟩ := hus.derives.exists_cons (by simp)
  obtain ⟨rfl, rfl⟩ := List.cons.inj hts
  exact ⟨us, rfl, hus, stops_unary.mpr hstops⟩

/-- What was taken before the repetition is a term, and stays one with each factor that follows. -/
theorem sound_factors (fuel : Nat) {us ts : List Token} {left : Expr}
    (hleft : Admits (n + 1) .term us left) (hts : Stops .unary ts) {e : Expr} {rest : List Token}
    (h : factors inner fuel left ts = some (e, rest)) :
    ∃ vs, us ++ ts = vs ++ rest ∧ Admits (n + 1) .term vs e ∧ Stops .term rest := by
  induction fuel generalizing us ts left with
  | zero => cases h
  | succ fuel ih =>
      rcases factors_cases hts with hstops | ⟨o, ts, rfl, ho⟩ | ⟨t, ts, rfl, ht⟩
      · rw [factors_of_stops inner hstops] at h
        obtain ⟨rfl, rfl⟩ := Prod.mk.inj (Option.some.inj h)
        exact ⟨us, rfl, hleft, hstops⟩
      · rw [factors_operator inner ho] at h
        obtain ⟨⟨right, rest'⟩, hright, hrest⟩ := Option.bind_eq_some_iff.mp h
        obtain ⟨ws, rfl, hws, hstops⟩ := sound_unary hinner hright
        rw [show us ++ .operator o :: (ws ++ rest') = us ++ .operator o :: ws ++ rest' by simp]
        exact ih (.product ho hleft hws) hstops hrest
      · rw [factors_factor inner ht] at h
        obtain ⟨⟨right, rest'⟩, hright, hrest⟩ := Option.bind_eq_some_iff.mp h
        obtain ⟨ws, rfl, hws, hstops⟩ := sound_factor hinner ht hright
        rw [show us ++ t :: (ws ++ rest') = us ++ t :: ws ++ rest' by simp]
        exact ih (.juxtaposed ht hleft hws) hstops hrest

theorem sound_term : (term inner).Sound (n + 1) .term := by
  intro ts e rest h
  simp only [term, Option.bind_eq_bind, Option.bind_eq_some_iff] at h
  obtain ⟨⟨d, ts'⟩, hunary, h⟩ := h
  obtain ⟨us, rfl, hus, hstops⟩ := sound_unary hinner hunary
  exact sound_factors hinner _ ⟨.unary hus.derives, hus.reaching, hus.levels⟩ hstops h

theorem sound_terms (fuel : Nat) {us ts : List Token} {left : Expr}
    (hleft : Admits (n + 1) .expr us left) (hts : Stops .term ts) {e : Expr} {rest : List Token}
    (h : terms inner fuel left ts = some (e, rest)) :
    ∃ vs, us ++ ts = vs ++ rest ∧ Admits (n + 1) .expr vs e ∧ Stops .expr rest := by
  induction fuel generalizing us ts left with
  | zero => cases h
  | succ fuel ih =>
      rcases terms_cases hts with hstops | ⟨o, ts, rfl, ho⟩
      · rw [terms_of_stops inner hstops] at h
        obtain ⟨rfl, rfl⟩ := Prod.mk.inj (Option.some.inj h)
        exact ⟨us, rfl, hleft, hstops⟩
      · rw [terms_operator inner ho] at h
        obtain ⟨⟨right, rest'⟩, hright, hrest⟩ := Option.bind_eq_some_iff.mp h
        obtain ⟨ws, rfl, hws, hstops⟩ := sound_term hinner hright
        rw [show us ++ .operator o :: (ws ++ rest') = us ++ .operator o :: ws ++ rest' by simp]
        exact ih (.sum ho hleft hws) hstops hrest

theorem sound_expr : (expr inner).Sound (n + 1) .expr := by
  intro ts e rest h
  simp only [expr, Option.bind_eq_bind, Option.bind_eq_some_iff] at h
  obtain ⟨⟨d, ts'⟩, hterm, h⟩ := h
  obtain ⟨us, rfl, hus, hstops⟩ := sound_term hinner hterm
  exact sound_terms hinner _ ⟨.term hus.derives, hus.reaching, hus.levels⟩ hstops h

end

theorem Rules.sound (n : Nat) : (rules n).Sound (n + 1) := by
  -- Below the last level nothing is read.
  have hnone : Rules.none.Sound 0 := ⟨nofun, nofun, nofun⟩
  induction n with
  | zero => exact ⟨sound_expr hnone, sound_unary hnone, sound_power hnone⟩
  | succ n ih => exact ⟨sound_expr ih, sound_unary ih, sound_power ih⟩

end Composer.Arithmetic
