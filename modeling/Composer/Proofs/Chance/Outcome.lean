import Composer.Proofs.Chance.Request
import Composer.Proofs.Chance.Stream
/-!
# Composer.Proofs.Chance.Outcome

**Chance stays within what was asked for.** The answer to a request has as many values as the request
says, each of them in its range, and a total that is their sum with what is added (`Request.Admits`).
A request within the limits of the game has an answer unless too few words of the stream are accepted
(`Request.RunsDry`).
-/

namespace Composer.Chance

open Text

variable {seed : UInt64} {o : Outcome}

/-! ### Dice -/

/-- No more dice than can be thrown at once, with as many sides as a die can have. -/
def Throw.InLimits (t : Throw) : Prop :=
  (1 ≤ t.count ∧ t.count ≤ maxDice) ∧ 2 ≤ t.sides ∧ t.sides ≤ maxSides

instance (t : Throw) : Decidable t.InLimits :=
  inferInstanceAs (Decidable (_ ∧ _))

/-- The answers that a throw can have. -/
structure Throw.Admits (t : Throw) (o : Outcome) : Prop where
  /-- The answer is about dice. -/
  kind : o.kind = .dice
  /-- There is a value for each die, -/
  count : o.values.length = t.count
  /-- for one die at least and for a hundred at most. -/
  few : 1 ≤ t.count ∧ t.count ≤ 100
  /-- Each value is one of the sides. -/
  sides : ∀ v ∈ o.values, 1 ≤ v ∧ v ≤ t.sides
  /-- The total is the sum of the values and what is added. -/
  total : o.total = o.values.sum + t.bonus
  /-- It is not less than if each die showed one, -/
  least : t.count + t.bonus ≤ o.total
  /-- and not more than if each die showed its last side. -/
  most : o.total ≤ t.count * t.sides + t.bonus

theorem Throw.not_inLimits_iff {t : Throw} : ¬ t.InLimits ↔
    t.count = 0 ∨ maxDice < t.count ∨ t.sides < 2 ∨ maxSides < t.sides := by
  rw [InLimits]
  omega

theorem Throw.outcome_eq_some {t : Throw} (h : t.outcome seed = some o) :
    t.InLimits ∧ rolls seed t.sides t.count 0 = some o.values ∧ o.kind = .dice ∧
      o.total = o.values.sum + t.bonus := by
  unfold outcome at h
  split at h
  · cases h
  · next hlimits =>
      obtain ⟨values, hrolls, h⟩ := Option.bind_eq_some_iff.mp h
      obtain rfl := Option.some.inj h
      exact ⟨not_not.mp fun hnot => hlimits (not_inLimits_iff.mp hnot), hrolls, rfl, rfl⟩

theorem Throw.outcome_eq_none_iff {t : Throw} : t.outcome seed = none ↔
    ¬ t.InLimits ∨ rolls seed t.sides t.count 0 = none := by
  rw [not_inLimits_iff]
  unfold outcome
  split
  · next hlimits => exact iff_of_true rfl (Or.inl hlimits)
  · next hlimits =>
      rw [or_iff_right hlimits]
      cases rolls seed t.sides t.count 0 <;> simp

/-- **The values and the total of dice are in range.** -/
theorem Throw.admits_of_outcome {t : Throw} (h : t.outcome seed = some o) : t.Admits o := by
  obtain ⟨hlimits, hrolls, hkind, htotal⟩ := outcome_eq_some h
  obtain ⟨hcount, hsides⟩ := rolls_eq_some hrolls
  obtain ⟨hleast, hmost⟩ := sum_bounds hsides
  rw [hcount] at hleast hmost
  exact {
    kind := hkind
    count := hcount
    few := hlimits.1
    sides := hsides
    total := htotal
    least := htotal ▸ Int.add_le_add_right hleast _
    most := htotal ▸ Int.add_le_add_right hmost _ }

/-! ### Requests -/

namespace Request

/-- The limits of a request. -/
def InLimits : Request → Prop
  | throw t => t.InLimits
  | coin => True
  | number _ _ => True

/-- The answers that a request can have. -/
def Admits : Request → Outcome → Prop
  | throw t, o => t.Admits o
  | coin, o => o.kind = .coin ∧ (o.total = 0 ∨ o.total = 1) ∧ o.values = [o.total]
  | number a b, o =>
    o.kind = .number ∧ (min a b ≤ o.total ∧ o.total ≤ max a b) ∧ o.values = [o.total]

/-- The stream of a seed has too few words for the request. -/
def RunsDry (seed : UInt64) : Request → Prop
  | throw t => Scarce 32 t.sides (word seed) 0 t.count
  | coin => False
  | number a b => Scarce 64 (max a b - min a b + 1).toNat (doubleWord seed) 0 1

/-- **An answer is one of those that the request can have.** -/
theorem admits_of_answer {r : Request} (h : r.answer seed = some o) : r.Admits o := by
  cases r with
  | throw t => exact Throw.admits_of_outcome h
  | coin =>
      rw [answer, tossed, Option.some_inj] at h
      subst h
      cases Chance.coin seed with
      | false => exact ⟨rfl, Or.inl rfl, rfl⟩
      | true => exact ⟨rfl, Or.inr rfl, rfl⟩
  | number a b =>
      obtain ⟨value, hvalue, rfl⟩ := Option.map_eq_some_iff.mp h
      exact ⟨rfl, between_eq_some hvalue, rfl⟩

/-- **A request within the limits has an answer unless the stream runs dry.** -/
theorem isSome_answer_iff (r : Request) (seed : UInt64) :
    (r.answer seed).isSome = true ↔ r.InLimits ∧ ¬ r.RunsDry seed := by
  cases r with
  | throw t =>
      rw [answer, Option.isSome_iff_ne_none, Ne, Throw.outcome_eq_none_iff, rolls_eq_none_iff, not_or,
        not_not]
      rfl
  | coin => exact iff_of_true rfl ⟨trivial, id⟩
  | number a b =>
      rw [answer, numbered, Option.isSome_map, Option.isSome_iff_ne_none, Ne, between_eq_none_iff]
      exact (and_iff_right trivial).symm

end Request

/-- **Every answer is within what the text asked for.** A text with an answer asks for one thing, and
the answer has the values and the total that this allows. A text that asks for something within the
limits has an answer, unless the stream of the seed runs dry. -/
theorem detect_within_request (seed : UInt64) (input : List Char) :
    (∀ o, detect seed input = some o →
      ∃ r, (∀ r', Asks (trim input) r' ↔ r' = r) ∧ r.Admits o) ∧
      ∀ r, Asks (trim input) r →
        ((detect seed input).isSome = true ↔ r.InLimits ∧ ¬ r.RunsDry seed) := by
  rw [detect_eq]
  constructor
  · intro o h
    obtain ⟨r, hread, hanswer⟩ := Option.bind_eq_some_iff.mp h
    have hasks : Asks (trim input) r := request?_eq_some_iff.mp hread
    refine ⟨r, fun r' => ⟨fun hasks' => hasks'.unique hasks, ?_⟩, Request.admits_of_answer hanswer⟩
    rintro rfl
    exact hasks
  · intro r hasks
    rw [request?_eq_some_iff.mpr hasks]
    exact r.isSome_answer_iff seed

/-- Two dice and one. -/
theorem detect_within_request_two_dice : ∃ o, detect 7 "roll 2d6+1".toList = some o ∧
    Throw.Admits ⟨2, 6, 1⟩ o := by
  have hread : request? (trim "roll 2d6+1".toList) = some (.throw ⟨2, 6, 1⟩) := by rfl
  have hasks := request?_eq_some_iff.mp hread
  have haccepted : Accepts 32 6 (word 7 0) ∧ Accepts 32 6 (word 7 1) := by
    unfold Accepts
    decide +kernel
  have hwords : ¬ Request.RunsDry 7 (.throw ⟨2, 6, 1⟩) := fun hdry =>
    absurd (hdry {0, 1} (by simp [haccepted])) (by decide)
  have hsome := ((detect_within_request 7 _).2 _ hasks).mpr ⟨(by decide : Throw.InLimits ⟨2, 6, 1⟩), hwords⟩
  obtain ⟨o, ho⟩ := Option.isSome_iff_exists.mp hsome
  obtain ⟨r, hr, hadmits⟩ := (detect_within_request 7 _).1 o ho
  obtain rfl := (hr _).mp hasks
  exact ⟨o, ho, hadmits⟩

end Composer.Chance
