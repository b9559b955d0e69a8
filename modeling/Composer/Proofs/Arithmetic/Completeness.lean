import Composer.Proofs.Arithmetic.Soundness
/-!
# Composer.Proofs.Arithmetic.Completeness

**Readers miss nothing that the grammar derives.** A reader of a symbol takes every reaching
derivation that opens no more levels than there are, if the tokens behind it cannot go on with the
symbol (`Rule.Complete`). A repetition is met in the middle: behind a derivation of a term or an
expression it goes on as if it had started there (`term_append`, `expr_append`). Main statement
(`rules_expr_eq_some_iff`): with `n` levels exactly the reaching derivations of at most `n` levels
are read, so no text has two of them (`Derives.unique`).
-/

namespace Composer.Arithmetic

/-- A reader takes every derivation of a symbol that ends where the tokens do not go on. -/
def Rule.Complete (r : Rule) (n : Nat) (σ : Symbol) : Prop :=
  ∀ ⦃us e rest⦄, Admits n σ us e → Stops σ rest → r (us ++ rest) = some (e, rest)

/-- The readers of a level miss nothing. -/
structure Rules.Complete (r : Rules) (n : Nat) : Prop where
  expr : r.expr.Complete n .expr
  unary : r.unary.Complete n .unary
  power : r.power.Complete n .power

/-- No name is that of a constant and of a function. -/
theorem constant_named?_eq_none {w : String} {f : Function} (h : Function.named? w = some f) :
    Constant.named? w = none := by
  unfold Function.named? at h
  split at h <;> first | rfl | cases h

section

variable {inner : Rules} {n : Nat}

/-! ### Operands -/

theorem complete_primary (hinner : inner.Complete n) {us rest : List Token} {e : Expr}
    (h : Admits (n + 1) .primary us e) (hrest : e.isCall = true → Stops .power rest) :
    primary inner (us ++ rest) = some (e, rest) := by
  obtain ⟨hderives, hreaching, hlevels⟩ := h
  cases hderives with
  | number => rfl
  | constant hc => simp [primary, hc]
  | @group ts e he =>
      have hexpr : inner.expr (ts ++ .closing :: rest) = some (e, .closing :: rest) :=
        hinner.expr ⟨he, hreaching, Nat.lt_of_succ_lt_succ hlevels⟩ (stops_cons.mpr rfl)
      simp [primary, hexpr]
  | call hf harg =>
      have hpower := hinner.power ⟨harg, hreaching, Nat.lt_of_succ_lt_succ hlevels⟩ (hrest rfl)
      simp [primary, constant_named?_eq_none hf, hf, hpower]

/-- In front of a factorial sign and behind it, reading goes on in the same way. -/
theorem complete_suffixed (hinner : inner.Complete n) {us rest : List Token} {e : Expr}
    (h : Admits (n + 1) .suffixed us e) (hrest : e.isCall = true → Stops .power rest) :
    (primary inner (us ++ rest)).map (fun p => bangs p.1 p.2) = some (bangs e rest) := by
  obtain ⟨hderives, hreaching, hlevels⟩ := h
  generalize hσ : Symbol.suffixed = σ at hderives
  induction hderives generalizing rest with
  | primary h =>
      rw [complete_primary hinner ⟨h, hreaching, hlevels⟩ hrest]
      rfl
  | @factorial ts e _ ih =>
      have hoperand : ¬ e.isCall = true := by simp [hreaching.1]
      rw [List.append_assoc]
      exact ih (fun hcall => absurd hcall hoperand) hreaching.2 hlevels rfl
  | _ => cases hσ

theorem complete_power (hinner : inner.Complete n) : (power inner).Complete (n + 1) .power := by
  intro us e rest h hrest
  obtain ⟨hderives, hreaching, hlevels⟩ := h
  obtain ⟨hsuffixed, hne⟩ := Stops.power_iff.mp hrest
  cases hderives with
  | suffixed h =>
      have := complete_suffixed hinner ⟨h, hreaching, hlevels⟩ fun _ => hrest
      rw [bangs_of_stops hsuffixed] at this
      exact power_of_ne inner this hne
  | @raised ts us l r hl hr =>
      obtain ⟨hcall, hlreaching, hrreaching⟩ := hreaching
      obtain ⟨hllevels, hrlevels⟩ := Nat.max_lt.mp hlevels
      have hoperand : ¬ l.isCall = true := by simp [hcall]
      have hbase : (primary inner (ts ++ .operator .power :: (us ++ rest))).map
          (fun p => bangs p.1 p.2) = some (l, .operator .power :: (us ++ rest)) := by
        rw [complete_suffixed hinner ⟨hl, hlreaching, hllevels⟩ fun h => absurd h hoperand,
          bangs_of_stops (stops_cons.mpr rfl)]
      have hexponent := hinner.unary ⟨hr, hrreaching, Nat.lt_of_succ_lt_succ hrlevels⟩
        (stops_unary.mpr hrest)
      rw [List.append_assoc, List.cons_append, power_raised inner hbase, hexponent]
      rfl

theorem complete_unary (hinner : inner.Complete n) : (unary inner).Complete (n + 1) .unary := by
  intro us e rest h hrest
  obtain ⟨hderives, hreaching, hlevels⟩ := h
  cases hderives with
  | negate h =>
      have hunary := hinner.unary ⟨h, hreaching, Nat.lt_of_succ_lt_succ hlevels⟩ hrest
      simp [unary, hunary]
  | keep h =>
      have hunary := hinner.unary ⟨h, hreaching, Nat.lt_of_succ_lt_succ hlevels⟩ hrest
      simp [unary, hunary]
  | power h =>
      obtain ⟨t, us, rfl, ht⟩ := h.exists_cons (by simp)
      rw [List.cons_append, unary_cons inner ht]
      exact complete_power hinner ⟨h, hreaching, hlevels⟩ (stops_unary.mp hrest)

/-! ### Repetitions -/

/-- A repetition has fuel enough as soon as it has more than tokens. -/
theorem factors_fuel (hsound : inner.Sound n) {fuel fuel' : Nat} {ts : List Token}
    (h : ts.length < fuel) (h' : ts.length < fuel') (hts : Stops .unary ts) (left : Expr) :
    factors inner fuel left ts = factors inner fuel' left ts := by
  induction fuel generalizing fuel' ts left with
  | zero => cases h
  | succ fuel ih =>
      obtain ⟨fuel', rfl⟩ : ∃ m, fuel' = m + 1 := ⟨fuel' - 1, by omega⟩
      rcases factors_cases hts with hstops | ⟨o, ts, rfl, ho⟩ | ⟨t, ts, rfl, ht⟩
      · rw [factors_of_stops inner hstops, factors_of_stops inner hstops]
      · rw [factors_operator inner ho, factors_operator inner ho]
        refine Option.bind_congr fun p hp => ?_
        obtain ⟨ws, rfl, -, hstops⟩ := sound_unary hsound hp
        simp only [List.length_cons, List.length_append] at h h'
        exact ih (by omega) (by omega) hstops _
      · rw [factors_factor inner ht, factors_factor inner ht]
        refine Option.bind_congr fun p hp => ?_
        -- Without an operator it is the factor that has to take a token.
        obtain ⟨ws, rfl, -, hstops⟩ := sound_factor hsound ht hp
        simp only [List.length_cons, List.length_append] at h h'
        exact ih (by omega) (by omega) hstops _

theorem terms_fuel (hsound : inner.Sound n) {fuel fuel' : Nat} {ts : List Token}
    (h : ts.length < fuel) (h' : ts.length < fuel') (hts : Stops .term ts) (left : Expr) :
    terms inner fuel left ts = terms inner fuel' left ts := by
  induction fuel generalizing fuel' ts left with
  | zero => cases h
  | succ fuel ih =>
      obtain ⟨fuel', rfl⟩ : ∃ m, fuel' = m + 1 := ⟨fuel' - 1, by omega⟩
      rcases terms_cases hts with hstops | ⟨o, ts, rfl, ho⟩
      · rw [terms_of_stops inner hstops, terms_of_stops inner hstops]
      · rw [terms_operator inner ho, terms_operator inner ho]
        refine Option.bind_congr fun p hp => ?_
        obtain ⟨ws, rfl, -, hstops⟩ := sound_term hsound hp
        simp only [List.length_cons, List.length_append] at h h'
        exact ih (by omega) (by omega) hstops _

/-- Behind a derivation of a term, its reader goes on with what is left. -/
theorem term_append (hsound : inner.Sound n) (hinner : inner.Complete n) {us rest : List Token}
    {e : Expr} (h : Admits (n + 1) .term us e) (hrest : Stops .unary rest) :
    term inner (us ++ rest) = factors inner (rest.length + 1) e rest := by
  obtain ⟨hderives, hreaching, hlevels⟩ := h
  -- On the derivation, whose last factor is next to what is left: the term before it is followed
  -- by more tokens each time.
  generalize hσ : Symbol.term = σ at hderives
  induction hderives generalizing rest with
  | unary h =>
      simp [term, complete_unary hinner ⟨h, hreaching, hlevels⟩ hrest]
  | @product o ts us l r ho _ hr ih _ =>
      obtain ⟨-, hlreaching, hrreaching⟩ := hreaching
      rw [Expr.levels_binary (Operator.ne_power_of_isMultiplicative ho)] at hlevels
      obtain ⟨hllevels, hrlevels⟩ := Nat.max_lt.mp hlevels
      have hstops : Stops .unary (.operator o :: (us ++ rest)) := by
        cases o with
        | plus | minus | power => cases ho
        | _ => exact stops_cons.mpr rfl
      rw [List.append_assoc, List.cons_append, ih hstops hlreaching hllevels rfl,
        factors_operator inner ho, complete_unary hinner ⟨hr, hrreaching, hrlevels⟩ hrest]
      refine factors_fuel hsound ?_ (by omega) hrest _
      simp only [List.length_cons, List.length_append]
      omega
  | @juxtaposed t ts us l r ht _ hr ih _ =>
      obtain ⟨hlreaching, hrreaching⟩ := hreaching
      obtain ⟨hllevels, hrlevels⟩ := Nat.max_lt.mp hlevels
      have hstops : Stops .unary (t :: (us ++ rest)) := by
        cases t with
        | opening | name _ => exact stops_cons.mpr rfl
        | number _ | operator _ | closing | bang => cases ht
      have hright := complete_unary hinner ⟨.power hr, hrreaching, hrlevels⟩ hrest
      rw [List.append_assoc, List.cons_append, ih hstops hlreaching hllevels rfl,
        factors_factor inner ht, ← List.cons_append, hright]
      refine factors_fuel hsound ?_ (by omega) hrest _
      simp only [List.length_cons, List.length_append]
      omega
  | _ => cases hσ

theorem complete_term (hsound : inner.Sound n) (hinner : inner.Complete n) :
    (term inner).Complete (n + 1) .term := by
  intro us e rest h hrest
  rw [term_append hsound hinner h hrest.unary]
  exact factors_of_stops inner hrest _ e

/-- Behind a derivation of an expression, its reader goes on with what is left. -/
theorem expr_append (hsound : inner.Sound n) (hinner : inner.Complete n) {us rest : List Token}
    {e : Expr} (h : Admits (n + 1) .expr us e) (hrest : Stops .term rest) :
    expr inner (us ++ rest) = terms inner (rest.length + 1) e rest := by
  obtain ⟨hderives, hreaching, hlevels⟩ := h
  generalize hσ : Symbol.expr = σ at hderives
  induction hderives generalizing rest with
  | term h =>
      simp [expr, complete_term hsound hinner ⟨h, hreaching, hlevels⟩ hrest]
  | @sum o ts us l r ho _ hr ih _ =>
      obtain ⟨-, hlreaching, hrreaching⟩ := hreaching
      rw [Expr.levels_binary (Operator.ne_power_of_isAdditive ho)] at hlevels
      obtain ⟨hllevels, hrlevels⟩ := Nat.max_lt.mp hlevels
      have hstops : Stops .term (.operator o :: (us ++ rest)) := by
        rw [stops_cons, Symbol.continues, ho]
        rfl
      rw [List.append_assoc, List.cons_append, ih hstops hlreaching hllevels rfl,
        terms_operator inner ho, complete_term hsound hinner ⟨hr, hrreaching, hrlevels⟩ hrest]
      refine terms_fuel hsound ?_ (by omega) hrest _
      simp only [List.length_cons, List.length_append]
      omega
  | _ => cases hσ

theorem complete_expr (hsound : inner.Sound n) (hinner : inner.Complete n) :
    (expr inner).Complete (n + 1) .expr := by
  intro us e rest h hrest
  rw [expr_append hsound hinner h hrest.term]
  exact terms_of_stops inner hrest _ e

end

/-! ### All levels -/

theorem Rules.complete (n : Nat) : (rules n).Complete (n + 1) := by
  -- No derivation has fewer than no levels.
  have hnone : Rules.none.Complete 0 :=
    ⟨fun _ _ _ h => absurd h.levels (Nat.not_lt_zero _),
      fun _ _ _ h => absurd h.levels (Nat.not_lt_zero _),
      fun _ _ _ h => absurd h.levels (Nat.not_lt_zero _)⟩
  induction n with
  | zero =>
      have hsound : Rules.none.Sound 0 := ⟨nofun, nofun, nofun⟩
      exact ⟨complete_expr hsound hnone, complete_unary hnone, complete_power hnone⟩
  | succ n ih =>
      exact ⟨complete_expr (Rules.sound n) ih, complete_unary ih, complete_power ih⟩

/-- **Exactly the reaching derivations are read**, as far as the levels go. -/
theorem rules_expr_eq_some_iff {n : Nat} {ts : List Token} {e : Expr} :
    (rules n).expr ts = some (e, []) ↔ Derives .expr ts e ∧ e.Reaching ∧ e.levels ≤ n := by
  constructor
  · intro h
    obtain ⟨us, hts, hus, -⟩ := (Rules.sound n).expr h
    rw [List.append_nil] at hts
    subst hts
    exact ⟨hus.derives, hus.reaching, Nat.lt_succ_iff.mp hus.levels⟩
  · rintro ⟨hderives, hreaching, hlevels⟩
    have h := (Rules.complete n).expr ⟨hderives, hreaching, Nat.lt_succ_iff.mpr hlevels⟩
      (stops_nil _)
    rwa [List.append_nil] at h

/-- Tokens have one reaching derivation: it is what is read when there are levels enough. -/
theorem Derives.unique {ts : List Token} {d e : Expr} (hd : Derives .expr ts d)
    (hdreaching : d.Reaching) (he : Derives .expr ts e) (hereaching : e.Reaching) : d = e := by
  have hleft := rules_expr_eq_some_iff.mpr ⟨hd, hdreaching, Nat.le_max_left d.levels e.levels⟩
  have hright := rules_expr_eq_some_iff.mpr ⟨he, hereaching, Nat.le_max_right d.levels e.levels⟩
  exact (Prod.mk.inj (Option.some.inj (hleft.symm.trans hright))).1

/-- What is read with the levels that there are. -/
theorem parse?_eq_some_iff {ts : List Token} {e : Expr} :
    parse? ts = some e ↔ Derives .expr ts e ∧ e.Reaching ∧ e.levels ≤ maxLevels := by
  rw [← rules_expr_eq_some_iff, parse?]
  constructor
  · intro h
    split at h
    · next hread =>
        rw [hread, Option.some.inj h]
    · cases h
  · intro h
    rw [h]

end Composer.Arithmetic
