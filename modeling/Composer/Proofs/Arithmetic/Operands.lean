import Composer.Proofs.Arithmetic.Completeness
/-!
# Composer.Proofs.Arithmetic.Operands

**Where an operand is awaited.** Read from left to right, the tokens of an expression alternate
between two states: an operand is awaited at the beginning, behind an operator and behind an opening
parenthesis, and nowhere else. A closing parenthesis or the end may not come while an operand is
awaited, and an operator only if it is a sign (`Derives.awaiting_eq`). So no expression ends in an
operator, whatever is closed behind it.
-/

namespace Composer.Arithmetic

/-- Whether an operand is awaited behind a token, if the token may stand where one is awaited or
not. -/
def Token.awaits (t : Token) : (awaited : Bool) → Option Bool
  | true =>
    match t with
    | number _ | name _ => some false
    | opening => some true
    | operator o => if o.isAdditive then some true else none
    | closing | bang => none
  | false =>
    match t with
    | operator _ | opening => some true
    | _ => some false

/-- Whether an operand is awaited behind all the tokens. -/
def awaiting (awaited : Bool) (ts : List Token) : Option Bool :=
  ts.foldlM (fun awaited t => t.awaits awaited) awaited

@[simp] theorem awaiting_nil (awaited : Bool) : awaiting awaited [] = some awaited := rfl

@[simp] theorem awaiting_cons (awaited : Bool) (t : Token) (ts : List Token) :
    awaiting awaited (t :: ts) = (t.awaits awaited).bind fun b => awaiting b ts := rfl

@[simp] theorem awaiting_append (awaited : Bool) (ts us : List Token) :
    awaiting awaited (ts ++ us) = (awaiting awaited ts).bind fun b => awaiting b us := by
  simp only [awaiting, List.foldlM_append]
  rfl

/-- Where no operand is awaited one may follow all the same. -/
theorem Token.awaits_of_startsOperand {t : Token} (h : t.startsOperand = true) :
    t.awaits false = t.awaits true := by
  cases t with
  | number _ | opening | name _ => rfl
  | operator _ | closing | bang => cases h

theorem awaiting_cons_of_startsOperand {t : Token} (h : t.startsOperand = true) (awaited : Bool)
    (ts : List Token) : awaiting awaited (t :: ts) = awaiting true (t :: ts) := by
  cases awaited with
  | true => rfl
  | false => rw [awaiting_cons, awaiting_cons, t.awaits_of_startsOperand h]

/-- **Behind an expression no operand is awaited.** -/
theorem Derives.awaiting_eq {σ : Symbol} {ts : List Token} {e : Expr} (h : Derives σ ts e) :
    awaiting true ts = some false := by
  induction h with
  | term _ ih | unary _ ih | power _ ih | suffixed _ ih | primary _ ih => exact ih
  | sum _ _ _ ihl ihr | product _ _ _ ihl ihr | raised _ _ ihl ihr =>
      rw [awaiting_append, ihl]
      exact ihr
  | juxtaposed ht _ _ ihl ihr =>
      rw [awaiting_append, ihl, Option.bind_some,
        awaiting_cons_of_startsOperand (startsOperand_of_startsFactor ht)]
      exact ihr
  | negate _ ih | keep _ ih => exact ih
  | factorial _ ih =>
      rw [awaiting_append, ih]
      rfl
  | number | constant _ => rfl
  | group _ ih =>
      rw [awaiting_append, awaiting_cons]
      show (awaiting true _).bind _ = some false
      rw [ih]
      rfl
  | @call w f ts e _ hpower ih =>
      -- The argument starts with an operand of its own.
      obtain ⟨t, us, rfl, ht⟩ := hpower.exists_cons (by simp)
      show awaiting false (t :: us) = some false
      rw [awaiting_cons_of_startsOperand ht]
      exact ih

end Composer.Arithmetic
