import Composer.Proofs.Arithmetic.Evaluation
import Composer.Proofs.Arithmetic.Pieces
/-!
# Composer.Proofs.Arithmetic.Arguments

**What the argument of a function takes in.** Texts are put together as the rules of the grammar
say, and what stands behind an argument in parentheses, a factorial sign or an exponent, goes into
the argument: the function is applied to its value. It is put on the value of the function only
when the application is in parentheses of its own (`detect_call_suffix`).
-/

namespace Composer.Arithmetic

open Text

/-! ### Balanced texts -/

theorem openAfter_cons {t : Token} (hopening : t ≠ .opening) (hclosing : t ≠ .closing)
    (depth : Nat) (ts : List Token) : openAfter depth (t :: ts) = openAfter depth ts := by
  cases t with
  | opening => exact absurd rfl hopening
  | closing => exact absurd rfl hclosing
  | _ => cases depth <;> rfl

/-- The parentheses of a derivation are balanced. -/
theorem Derives.openAfter_append {σ : Symbol} {ts : List Token} {e : Expr} (h : Derives σ ts e)
    (depth : Nat) (rest : List Token) : openAfter depth (ts ++ rest) = openAfter depth rest := by
  induction h generalizing depth rest with
  | term _ ih | unary _ ih | power _ ih | suffixed _ ih | primary _ ih => exact ih depth rest
  | sum _ _ _ ihl ihr | product _ _ _ ihl ihr | raised _ _ ihl ihr =>
      rw [List.append_assoc, ihl, List.cons_append, openAfter_cons (by simp) (by simp), ihr]
  | juxtaposed _ _ _ ihl ihr => rw [List.append_assoc, ihl, ihr]
  | negate _ ih | keep _ ih => rw [List.cons_append, openAfter_cons (by simp) (by simp), ih]
  | factorial _ ih =>
      rw [List.append_assoc, ih, List.singleton_append, openAfter_cons (by simp) (by simp)]
  | number => exact openAfter_cons (by simp) (by simp) depth rest
  | constant _ => exact openAfter_cons (by simp) (by simp) depth rest
  | group _ ih =>
      rw [List.append_assoc, List.cons_append, openAfter, ih, List.singleton_append, openAfter]
  | call _ _ ih => rw [List.cons_append, openAfter_cons (by simp) (by simp), ih]

/-! ### Texts of the grammar -/

/-- The tokens of a text are those of a symbol of the grammar, with a derivation that is read on
`n` levels. -/
def ReadsAs (σ : Symbol) (n : Nat) (s : List Char) (e : Expr) : Prop :=
  ∃ ts, tokens? s = some ts ∧ Derives σ ts e ∧ e.Reaching ∧ e.levels ≤ n

section

variable {w : List Char} {f : Function}

/-- The name of a function is a letter with letters and digits behind it. -/
theorem exists_cons_of_named? (h : Function.named? (String.ofList (w.map Char.toLower)) = some f) :
    ∃ c s, w = c :: s ∧ c.isAlpha = true ∧ ∀ d ∈ s, d.isAlphanum = true := by
  have hnames : ∀ v ∈ names, v.toList.head?.any Char.isAlpha = true ∧
      v.toList.all Char.isAlphanum = true := by decide
  obtain ⟨halpha, hall⟩ := hnames _ (mem_names_of_function h)
  rw [String.toList_ofList] at halpha hall
  cases w with
  | nil => cases halpha
  | cons c s =>
      simp only [List.map_cons, List.head?_cons, Option.any_some, isAlpha_toLower] at halpha
      simp only [List.map_cons, List.all_cons, List.all_map, Bool.and_eq_true, List.all_eq_true,
        Function.comp_apply, isAlphanum_toLower] at hall
      exact ⟨c, s, rfl, halpha, hall.2⟩

/-- It is one token. -/
theorem tokens?_of_named? (h : Function.named? (String.ofList (w.map Char.toLower)) = some f) :
    tokens? w = some [.name (String.ofList (w.map Char.toLower))] := by
  obtain ⟨c, s, rfl, hc, hs⟩ := exists_cons_of_named? h
  rw [tokens?_of_name hc hs, @Token.ofName_of_name none (by simp)]

end

namespace ReadsAs

variable {σ τ : Symbol} {m n : Nat} {s : List Char} {e : Expr}

theorem lift (h : ReadsAs σ n s e) (hsymbol : ∀ {ts}, Derives σ ts e → Derives τ ts e) :
    ReadsAs τ n s e := by
  obtain ⟨ts, hts, hderives, hreaching, hlevels⟩ := h
  exact ⟨ts, hts, hsymbol hderives, hreaching, hlevels⟩

theorem mono (h : ReadsAs σ m s e) (hmn : m ≤ n) : ReadsAs σ n s e := by
  obtain ⟨ts, hts, hderives, hreaching, hlevels⟩ := h
  exact ⟨ts, hts, hderives, hreaching, hlevels.trans hmn⟩

/-- A balanced text evaluates to its derivation. -/
theorem evaluate_eq (h : ReadsAs .expr maxLevels s e) :
    evaluate s = e.eval.map fun v => ⟨v, e.hasOperation, 0⟩ := by
  obtain ⟨ts, hts, hderives, hreaching, hlevels⟩ := h
  have hopen : openAfter 0 ts = some 0 := by
    have := hderives.openAfter_append 0 []
    rwa [List.append_nil] at this
  have hparse : parse? ts = some e := parse?_eq_some_iff.mpr ⟨hderives, hreaching, hlevels⟩
  simp only [evaluate, hts, hopen, List.replicate_zero, List.append_nil, hparse,
    Option.bind_eq_bind, Option.bind_some]
  cases e.eval <;> rfl

end ReadsAs

/-- A text in parentheses. -/
def parenthesized (s : List Char) : List Char :=
  '(' :: (s ++ [')'])

/-- A text with nought added to it. -/
def plusZero (s : List Char) : List Char :=
  s ++ [' ', '+', ' ', '0']

/-- What is typed behind an operand. -/
inductive Suffix where
  /-- A factorial sign. -/
  | bang
  /-- An exponent, with its derivation. -/
  | exponent (n : List Char) (x : Expr)

namespace Suffix

/-- Its characters. -/
def text : Suffix → List Char
  | bang => ['!']
  | exponent n _ => '^' :: n

/-- The exponent is read on `n` levels. -/
def IsRead (n : Nat) : Suffix → Prop
  | bang => True
  | exponent s x => ReadsAs .unary n s x

/-- The derivation of the operand with what stands behind it. -/
def on (e : Expr) : Suffix → Expr
  | bang => .factorial e
  | exponent _ x => .binary .power e x

/-- What becomes of the value of the operand. -/
def apply (v : Float) : Suffix → Option Float
  | bang => factorial? v
  | exponent _ x => x.eval.map v.pow

theorem eval_on (p : Suffix) (e : Expr) : (p.on e).eval = e.eval.bind p.apply := by
  cases p <;> rfl

end Suffix

namespace ReadsAs

variable {m n : Nat} {s : List Char} {e : Expr}

theorem parenthesized (h : ReadsAs .expr n s e) :
    ReadsAs .primary (n + 1) (Arithmetic.parenthesized s) (.group e) := by
  obtain ⟨ts, hts, hderives, hreaching, hlevels⟩ := h
  refine ⟨_, ?_, .group hderives, hreaching, Nat.succ_le_succ hlevels⟩
  have hclosing : tokens? [')'] = some [.closing] := by decide +kernel
  rw [tokens?, Arithmetic.parenthesized, tokensAfter_cons_of_sign rfl (by decide),
    tokensAfter_opening, tokens?_append_sign rfl (by decide) hts hclosing]
  rfl

theorem plusZero (h : ReadsAs .expr n s e) :
    ReadsAs .expr n (Arithmetic.plusZero s) (.binary .plus e (.number 0)) := by
  obtain ⟨ts, hts, hderives, hreaching, hlevels⟩ := h
  refine ⟨_, tokens?_append (by decide) (by decide) (by decide) hts fun last => ?_,
    .sum rfl hderives (.unary (.power (.suffixed (.primary .number)))),
    ⟨nofun, hreaching, trivial⟩, ?_⟩
  · have hzero : tokens? ['+', ' ', '0'] = some [.operator .plus, .number 0] := by
      decide +kernel
    rw [tokensAfter_cons_of_isBlank (by decide), tokensAfter_cons_eq_tokens? rfl (by decide),
      hzero]
  · simpa [Expr.levels] using hlevels

/-- A function and an argument that starts with a parenthesis. -/
theorem call {w : List Char} {f : Function}
    (hw : Function.named? (String.ofList (w.map Char.toLower)) = some f)
    (h : ReadsAs .power n ('(' :: s) e) :
    ReadsAs .primary (n + 1) (w ++ '(' :: s) (.call f e) := by
  obtain ⟨ts, hts, hderives, hreaching, hlevels⟩ := h
  exact ⟨_, tokens?_append_sign rfl (by decide) (tokens?_of_named? hw) hts, .call hw hderives,
    hreaching, Nat.succ_le_succ hlevels⟩

/-- An operand that is not the value of a function, and what stands behind it. -/
theorem suffix {p : Suffix} (h : ReadsAs .suffixed n s e) (hcall : e.isCall = false)
    (hp : p.IsRead m) (hmn : m ≤ n) : ReadsAs .power (n + 1) (s ++ p.text) (p.on e) := by
  obtain ⟨ts, hts, hderives, hreaching, hlevels⟩ := h
  cases p with
  | bang =>
      have hbang : tokens? ['!'] = some [.bang] := by decide +kernel
      exact ⟨_, tokens?_append_sign rfl (by decide) hts hbang, .suffixed (.factorial hderives),
        ⟨hcall, hreaching⟩, Nat.le_succ_of_le hlevels⟩
  | exponent n x =>
      obtain ⟨us, hus, hxderives, hxreaching, hxlevels⟩ := hp
      have hcaret : tokens? ('^' :: n) = some (.operator .power :: us) := by
        rw [tokens?, tokensAfter_cons_of_sign rfl (by decide), tokensAfter_operator, hus]
        rfl
      refine ⟨_, tokens?_append_sign rfl (by decide) hts hcaret, .raised hderives hxderives,
        ⟨fun _ => hcall, hreaching, hxreaching⟩, ?_⟩
      rw [Suffix.on, Expr.levels]
      omega

end ReadsAs

/-! ### Answers -/

/-- A percentage begins with a digit or a minus sign. -/
theorem percentOf_eq_none {s : List Char} {c : Char} (hhead : s.head? = some c)
    (hdigit : isDecimalDigit c = false) (hminus : c ≠ '-') : percentOf s = none := by
  obtain ⟨t, rfl⟩ := List.head?_eq_some_iff.mp hhead
  unfold percentOf
  split
  next heq =>
    split at heq
    · next h => exact absurd (List.cons.inj h).1 hminus
    · cases heq
      rw [numeral, digits, run, List.takeWhile_cons_of_neg (by simp [hdigit])]
      rfl

/-- A balanced expression that computes something is answered in full. -/
theorem ReadsAs.detect_eq {s : List Char} {e : Expr} {c d : Char}
    (h : ReadsAs .expr maxLevels s e) (hoperation : e.hasOperation = true)
    (hhead : s.head? = some c) (hblank : isBlank c = false) (hdigit : isDecimalDigit c = false)
    (hminus : c ≠ '-') (hlast : s.getLast? = some d) (hend : isBlank d = false)
    (hannounces : announcesOperand d = false) :
    detect s = e.eval.bind fun v => Calculation.of? s v false := by
  have htrim : trim s = s := trim_of_ends hhead hblank hlast hend
  have hbefore : beforeOperator s = none := by
    rw [beforeOperator, hlast]
    simp [hannounces]
  simp only [detect, htrim, percentOf_eq_none hhead hdigit hminus, h.evaluate_eq]
  cases e.eval with
  | none => exact hbefore
  | some v => simp [hoperation]

/-- A function or a parenthesis in front, and nought added at the end. -/
theorem ReadsAs.detect_plusZero {s : List Char} {e : Expr} {c : Char}
    (h : ReadsAs .power maxLevels s e) (hhead : s.head? = some c)
    (hc : c.isAlpha = true ∨ c = '(') :
    detect (Arithmetic.plusZero s) =
      e.eval.bind fun v => Calculation.of? (Arithmetic.plusZero s) (v + 0) false := by
  have hfront : isBlank c = false ∧ isDecimalDigit c = false ∧ c ≠ '-' := by
    rcases hc with hc | rfl
    · exact forall_alpha (P := fun c => isBlank c = false ∧ isDecimalDigit c = false ∧ c ≠ '-')
        (by decide) (by decide) hc
    · decide
  obtain ⟨hblank, hdigit, hminus⟩ := hfront
  have hexpr : ReadsAs .expr maxLevels s e := h.lift fun h => .term (.unary (.power h))
  have hdetect := hexpr.plusZero.detect_eq rfl
    (s := Arithmetic.plusZero s) (c := c) (d := '0') (by simp [Arithmetic.plusZero, hhead])
    hblank hdigit hminus (by simp [Arithmetic.plusZero]) (by decide) (by decide)
  rw [hdetect, Expr.eval]
  cases e.eval <;> rfl

/-! ### Arguments -/

/-- **An argument takes in what stands behind it.** Behind an argument in parentheses a factorial
sign or an exponent changes the argument before the function is applied; on the value of the
function they are put only when the application is in parentheses of its own. -/
theorem detect_call_suffix {w a : List Char} {f : Function} {e : Expr} {p : Suffix}
    (hw : Function.named? (String.ofList (w.map Char.toLower)) = some f)
    (ha : ReadsAs .expr 32 a e) (hp : p.IsRead 32) :
    (detect (plusZero (w ++ parenthesized a ++ p.text)) =
      ((e.eval.bind p.apply).map f.apply).bind fun v =>
        Calculation.of? (plusZero (w ++ parenthesized a ++ p.text)) (v + 0) false) ∧
    detect (plusZero (parenthesized (w ++ parenthesized a) ++ p.text)) =
      ((e.eval.map f.apply).bind p.apply).bind fun v =>
        Calculation.of? (plusZero (parenthesized (w ++ parenthesized a) ++ p.text)) (v + 0)
          false := by
  obtain ⟨c, t, hcons, hc, -⟩ := exists_cons_of_named? hw
  have hargument : ReadsAs .suffixed 33 (parenthesized a) (.group e) :=
    ha.parenthesized.lift .primary
  constructor
  · have hsuffix : ReadsAs .power 34 (parenthesized a ++ p.text) (p.on (.group e)) :=
      hargument.suffix rfl hp (by decide)
    have hcall : ReadsAs .primary 35 (w ++ (parenthesized a ++ p.text))
        (.call f (p.on (.group e))) :=
      hsuffix.call hw
    rw [← List.append_assoc] at hcall
    have hread : ReadsAs .power maxLevels _ _ := (hcall.lift fun h => .suffixed (.primary h)).mono
      (by decide)
    rw [hread.detect_plusZero (by simp [hcons]) (Or.inl hc), Expr.eval, p.eval_on, Expr.eval]
  · have hcall : ReadsAs .primary 34 (w ++ parenthesized a) (.call f (.group e)) :=
      (hargument.lift .suffixed).call hw
    have hgroup : ReadsAs .suffixed 35 (parenthesized (w ++ parenthesized a))
        (.group (.call f (.group e))) :=
      ReadsAs.lift (ReadsAs.parenthesized (hcall.lift fun h =>
        .term (.unary (.power (.suffixed (.primary h)))))) .primary
    have hread : ReadsAs .power maxLevels _ _ := (hgroup.suffix rfl hp (by decide)).mono (by decide)
    rw [hread.detect_plusZero rfl (Or.inr rfl), p.eval_on, Expr.eval, Expr.eval, Expr.eval]

/-- The exponent is put on the number that is rounded, not on the rounded one. -/
theorem detect_floor_raised :
    detect "floor(2.5)^2 + 0".toList =
        Calculation.of? "floor(2.5)^2 + 0".toList (Float.floor (Float.pow 2.5 2) + 0) false ∧
      detect "(floor(2.5))^2 + 0".toList =
        Calculation.of? "(floor(2.5))^2 + 0".toList (Float.pow (Float.floor 2.5) 2 + 0) false := by
  have hargument : ReadsAs .expr 32 "2.5".toList (.number 2.5) :=
    ⟨_, by decide +kernel, .term (.unary (.power (.suffixed (.primary .number)))), trivial,
      by decide⟩
  have hexponent : ReadsAs .unary 32 "2".toList (.number 2) :=
    ⟨_, by decide +kernel, .power (.suffixed (.primary .number)), trivial, by decide⟩
  have hinner : "floor(2.5)^2 + 0".toList =
      plusZero ("floor".toList ++ parenthesized "2.5".toList ++ '^' :: "2".toList) := by decide
  have houter : "(floor(2.5))^2 + 0".toList =
      plusZero (parenthesized ("floor".toList ++ parenthesized "2.5".toList) ++
        '^' :: "2".toList) := by decide
  have hboth := detect_call_suffix (w := "floor".toList) (f := .floor)
    (p := .exponent "2".toList (.number 2)) (by decide) hargument hexponent
  simp only [Suffix.text, Suffix.apply, Expr.eval, Option.bind_some, Option.map_some] at hboth
  rw [hinner, houter]
  exact hboth

-- A negative number has no factorial, though its absolute value has one.
example : detect "abs(-3)! + 0".toList = none := by decide +kernel

end Composer.Arithmetic
