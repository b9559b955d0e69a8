import Composer.Arithmetic.Grammar
/-!
# Composer.Proofs.Arithmetic.Derivation

**The grammar of expressions.** `Derives` says which tokens a symbol of the grammar stands for and
with which derivation; it knows nothing of readers. The grammar leaves one choice: a `!` or `^`
behind the argument of a function belongs to the argument or to the value of the function. In a
derivation that is *reaching* it always belongs to the argument. Main statement
(`Derives.exists_reaching`): whatever has a derivation has a reaching one.
-/

namespace Composer.Arithmetic

/-! ### The grammar -/

/-- A symbol of the grammar. -/
inductive Symbol where
  /-- `term (('+' | '-') term)*`. -/
  | expr
  /-- `unary (('*' | '/' | '%') unary | power)*`. -/
  | term
  /-- `('-' | '+') unary | power`. -/
  | unary
  /-- `suffixed ('^' unary)?`. -/
  | power
  /-- `primary '!'*`. -/
  | suffixed
  /-- `number | constant | '(' expr ')' | function power`. -/
  | primary
deriving DecidableEq

/-- The operators between terms. -/
def Operator.isAdditive : Operator → Bool
  | .plus | .minus => true
  | _ => false

/-- The operators between factors. -/
def Operator.isMultiplicative : Operator → Bool
  | .times | .over | .modulo => true
  | _ => false

theorem Operator.ne_power_of_isAdditive {o : Operator} (h : o.isAdditive = true) : o ≠ .power := by
  rintro rfl
  cases h

theorem Operator.ne_power_of_isMultiplicative {o : Operator} (h : o.isMultiplicative = true) :
    o ≠ .power := by
  rintro rfl
  cases h

/-- Of all operators only the power opens a level. -/
theorem Expr.levels_binary {o : Operator} (h : o ≠ .power) (l r : Expr) :
    (binary o l r).levels = max l.levels r.levels := by
  cases o with
  | power => exact absurd rfl h
  | _ => rfl

/-- The tokens that a factor without an operator before it starts with. -/
def Token.startsFactor : Token → Bool
  | opening | name _ => true
  | _ => false

/-- The tokens that a factor without a sign starts with. -/
def Token.startsOperand : Token → Bool
  | number _ | opening | name _ => true
  | _ => false

/-- The tokens that a symbol stands for, with their derivation. -/
inductive Derives : Symbol → List Token → Expr → Prop
  /-- A term is an expression. -/
  | term {ts : List Token} {e : Expr} : Derives .term ts e → Derives .expr ts e
  /-- An expression goes on with a sign and a term. -/
  | sum {o : Operator} {ts us : List Token} {l r : Expr} : o.isAdditive = true →
      Derives .expr ts l → Derives .term us r →
      Derives .expr (ts ++ .operator o :: us) (.binary o l r)
  /-- A factor is a term. -/
  | unary {ts : List Token} {e : Expr} : Derives .unary ts e → Derives .term ts e
  /-- A term goes on with an operator and a factor. -/
  | product {o : Operator} {ts us : List Token} {l r : Expr} : o.isMultiplicative = true →
      Derives .term ts l → Derives .unary us r →
      Derives .term (ts ++ .operator o :: us) (.binary o l r)
  /-- A term goes on with a factor that starts with a parenthesis or a name. -/
  | juxtaposed {t : Token} {ts us : List Token} {l r : Expr} : t.startsFactor = true →
      Derives .term ts l → Derives .power (t :: us) r →
      Derives .term (ts ++ t :: us) (.juxtaposed l r)
  /-- A minus sign before a factor. -/
  | negate {ts : List Token} {e : Expr} : Derives .unary ts e →
      Derives .unary (.operator .minus :: ts) (.negate e)
  /-- A plus sign before a factor. -/
  | keep {ts : List Token} {e : Expr} : Derives .unary ts e →
      Derives .unary (.operator .plus :: ts) (.keep e)
  /-- A factor without a sign. -/
  | power {ts : List Token} {e : Expr} : Derives .power ts e → Derives .unary ts e
  /-- An operand without an exponent. -/
  | suffixed {ts : List Token} {e : Expr} : Derives .suffixed ts e → Derives .power ts e
  /-- An operand and its exponent. -/
  | raised {ts us : List Token} {l r : Expr} : Derives .suffixed ts l → Derives .unary us r →
      Derives .power (ts ++ .operator .power :: us) (.binary .power l r)
  /-- An operand without factorial signs. -/
  | primary {ts : List Token} {e : Expr} : Derives .primary ts e → Derives .suffixed ts e
  /-- One more factorial sign. -/
  | factorial {ts : List Token} {e : Expr} : Derives .suffixed ts e →
      Derives .suffixed (ts ++ [.bang]) (.factorial e)
  /-- A numeral. -/
  | number {x : Float} : Derives .primary [.number x] (.number x)
  /-- The name of a constant. -/
  | constant {w : String} {c : Constant} : Constant.named? w = some c →
      Derives .primary [.name w] (.constant c)
  /-- An expression in parentheses. -/
  | group {ts : List Token} {e : Expr} : Derives .expr ts e →
      Derives .primary (.opening :: ts ++ [.closing]) (.group e)
  /-- The name of a function and its argument. -/
  | call {w : String} {f : Function} {ts : List Token} {e : Expr} : Function.named? w = some f →
      Derives .power ts e → Derives .primary (.name w :: ts) (.call f e)

namespace Derives

/-- A factor without a sign starts with the first token of an operand. -/
theorem exists_cons {σ : Symbol} {ts : List Token} {e : Expr} (h : Derives σ ts e)
    (hσ : σ = .power ∨ σ = .suffixed ∨ σ = .primary) :
    ∃ t us, ts = t :: us ∧ t.startsOperand = true := by
  induction h with
  | suffixed _ ih => exact ih (by simp)
  | raised _ _ ih _ =>
      obtain ⟨t, us, rfl, ht⟩ := ih (by simp)
      exact ⟨t, _, rfl, ht⟩
  | primary _ ih => exact ih (by simp)
  | factorial _ ih =>
      obtain ⟨t, us, rfl, ht⟩ := ih (by simp)
      exact ⟨t, _, rfl, ht⟩
  | number => exact ⟨_, [], rfl, rfl⟩
  | constant _ => exact ⟨_, [], rfl, rfl⟩
  | group _ _ => exact ⟨_, _, rfl, rfl⟩
  | call _ _ _ => exact ⟨_, _, rfl, rfl⟩
  | term _ _ | sum _ _ _ _ _ | unary _ _ | product _ _ _ _ _ | juxtaposed _ _ _ _ _ | negate _ _
  | keep _ _ | power _ _ => simp at hσ

/-- The value of a function is an operand that starts with the name and goes on with the
argument. -/
theorem of_call {ts : List Token} {f : Function} {arg : Expr}
    (h : Derives .suffixed ts (.call f arg)) :
    ∃ w us, ts = .name w :: us ∧ Function.named? w = some f ∧ Derives .power us arg := by
  cases h with
  | primary h =>
      cases h with
      | call hf harg => exact ⟨_, _, rfl, hf, harg⟩

end Derives

/-! ### Arguments that reach as far as they can -/

namespace Expr

/-- The value of a function. -/
def isCall : Expr → Bool
  | call _ _ => true
  | _ => false

/-- No factorial sign and no exponent is put on the value of a function: they belong to its
argument. -/
def Reaching : Expr → Prop
  | number _ => True
  | constant _ => True
  | group e => e.Reaching
  | call _ arg => arg.Reaching
  | factorial e => e.isCall = false ∧ e.Reaching
  | negate e => e.Reaching
  | keep e => e.Reaching
  | binary o l r => (o = .power → l.isCall = false) ∧ l.Reaching ∧ r.Reaching
  | juxtaposed l r => l.Reaching ∧ r.Reaching

end Expr

namespace Derives

/-- What can be put behind every operand but the value of a function can be put behind every
factor: an argument or an exponent at its end takes it in. -/
theorem exists_append {suffix : List Token}
    (hoperand : ∀ ts e, Derives .suffixed ts e → e.Reaching → e.isCall = false →
      ∃ d, Derives .power (ts ++ suffix) d ∧ d.Reaching)
    {σ : Symbol} {ts : List Token} {e : Expr} (h : Derives σ ts e) (he : e.Reaching)
    (hσ : σ = .unary ∨ σ = .power ∨ (σ = .suffixed ∨ σ = .primary) ∧ e.isCall = true) :
    ∃ d, Derives σ (ts ++ suffix) d ∧ d.Reaching := by
  induction h with
  | negate _ ih =>
      obtain ⟨d, hd, hreaching⟩ := ih he (by simp)
      exact ⟨.negate d, .negate hd, hreaching⟩
  | keep _ ih =>
      obtain ⟨d, hd, hreaching⟩ := ih he (by simp)
      exact ⟨.keep d, .keep hd, hreaching⟩
  | power _ ih =>
      obtain ⟨d, hd, hreaching⟩ := ih he (by simp)
      exact ⟨d, .power hd, hreaching⟩
  | @suffixed ts e h ih =>
      -- Behind the value of a function it is the argument that goes on.
      cases hcall : e.isCall with
      | false => exact hoperand ts e h he hcall
      | true =>
          obtain ⟨d, hd, hreaching⟩ := ih he (by simp [hcall])
          exact ⟨d, .suffixed hd, hreaching⟩
  | @raised ts us l r hl _ _ ih =>
      obtain ⟨d, hd, hreaching⟩ := ih he.2.2 (by simp)
      refine ⟨.binary .power l d, ?_, he.1, he.2.1, hreaching⟩
      rw [List.append_assoc]
      exact .raised hl hd
  | primary _ ih =>
      obtain ⟨d, hd, hreaching⟩ := ih he (by simpa using hσ)
      exact ⟨d, .primary hd, hreaching⟩
  | @call w f ts e hf _ ih =>
      obtain ⟨d, hd, hreaching⟩ := ih he (by simp)
      exact ⟨.call f d, .call hf hd, hreaching⟩
  | term _ _ | sum _ _ _ _ _ | unary _ _ | product _ _ _ _ _ | juxtaposed _ _ _ _ _
  | factorial _ _ | number | constant _ | group _ _ => simp [Expr.isCall] at hσ

/-- A factorial sign can be put behind every factor. -/
theorem exists_bang {ts : List Token} {e : Expr} (h : Derives .power ts e) (he : e.Reaching) :
    ∃ d, Derives .power (ts ++ [.bang]) d ∧ d.Reaching :=
  h.exists_append (fun _ e h he hcall =>
    ⟨.factorial e, .suffixed (.factorial h), hcall, he⟩) he (by simp)

/-- An exponent can be put behind every factor. -/
theorem exists_exponent {ts us : List Token} {e x : Expr} (h : Derives .power ts e)
    (he : e.Reaching) (hx : Derives .unary us x) (hreaching : x.Reaching) :
    ∃ d, Derives .power (ts ++ .operator .power :: us) d ∧ d.Reaching :=
  h.exists_append (fun _ e h he hcall =>
    ⟨.binary .power e x, .raised h hx, fun _ => hcall, he, hreaching⟩) he (by simp)

/-- **Whatever has a derivation has a reaching one.** -/
theorem exists_reaching {σ : Symbol} {ts : List Token} {e : Expr} (h : Derives σ ts e) :
    ∃ d, Derives σ ts d ∧ d.Reaching := by
  induction h with
  | term _ ih =>
      obtain ⟨d, hd, hreaching⟩ := ih
      exact ⟨d, .term hd, hreaching⟩
  | @sum o _ _ _ _ ho _ _ ihl ihr =>
      obtain ⟨l, hl, hlreaching⟩ := ihl
      obtain ⟨r, hr, hrreaching⟩ := ihr
      have hpower := Operator.ne_power_of_isAdditive ho
      exact ⟨.binary o l r, .sum ho hl hr, fun h => absurd h hpower, hlreaching, hrreaching⟩
  | unary _ ih =>
      obtain ⟨d, hd, hreaching⟩ := ih
      exact ⟨d, .unary hd, hreaching⟩
  | @product o _ _ _ _ ho _ _ ihl ihr =>
      obtain ⟨l, hl, hlreaching⟩ := ihl
      obtain ⟨r, hr, hrreaching⟩ := ihr
      have hpower := Operator.ne_power_of_isMultiplicative ho
      exact ⟨.binary o l r, .product ho hl hr, fun h => absurd h hpower, hlreaching, hrreaching⟩
  | juxtaposed ht _ _ ihl ihr =>
      obtain ⟨l, hl, hlreaching⟩ := ihl
      obtain ⟨r, hr, hrreaching⟩ := ihr
      exact ⟨.juxtaposed l r, .juxtaposed ht hl hr, hlreaching, hrreaching⟩
  | negate _ ih =>
      obtain ⟨d, hd, hreaching⟩ := ih
      exact ⟨.negate d, .negate hd, hreaching⟩
  | keep _ ih =>
      obtain ⟨d, hd, hreaching⟩ := ih
      exact ⟨.keep d, .keep hd, hreaching⟩
  | power _ ih =>
      obtain ⟨d, hd, hreaching⟩ := ih
      exact ⟨d, .power hd, hreaching⟩
  | suffixed _ ih =>
      obtain ⟨d, hd, hreaching⟩ := ih
      exact ⟨d, .suffixed hd, hreaching⟩
  | raised _ _ ihl ihr =>
      obtain ⟨l, hl, hlreaching⟩ := ihl
      obtain ⟨r, hr, hrreaching⟩ := ihr
      -- The operand may have become the value of a function, which gives the exponent away.
      exact exists_exponent (.suffixed hl) hlreaching hr hrreaching
  | primary _ ih =>
      obtain ⟨d, hd, hreaching⟩ := ih
      exact ⟨d, .primary hd, hreaching⟩
  | factorial _ ih =>
      obtain ⟨d, hd, hreaching⟩ := ih
      cases hcall : d.isCall with
      | false => exact ⟨.factorial d, .factorial hd, hcall, hreaching⟩
      | true =>
          -- The argument takes the sign in.
          cases d with
          | call f arg =>
              obtain ⟨w, us, rfl, hf, harg⟩ := hd.of_call
              obtain ⟨d, hd, hreaching⟩ := harg.exists_bang hreaching
              exact ⟨.call f d, .primary (.call hf hd), hreaching⟩
          | _ => cases hcall
  | number => exact ⟨_, .number, trivial⟩
  | constant hc => exact ⟨_, .constant hc, trivial⟩
  | group _ ih =>
      obtain ⟨d, hd, hreaching⟩ := ih
      exact ⟨.group d, .group hd, hreaching⟩
  | @call _ f _ _ hf _ ih =>
      obtain ⟨d, hd, hreaching⟩ := ih
      exact ⟨.call f d, .call hf hd, hreaching⟩

end Derives

end Composer.Arithmetic
