import Composer.Chance.Stream
import Mathlib.Algebra.Order.Ring.Int
import Mathlib.Algebra.Ring.Periodic
import Mathlib.Data.Finset.Card
/-!
# Composer.Proofs.Chance.Stream

**Numbers drawn from a stream of words.** A word times the range is cut in two halves. The lower
half decides whether the word is accepted, and of the first word that is, the upper half is the
number (`draw_eq_some_iff`). It is below the range because the word is below the number of all
words. The stream repeats itself, so that it is enough to try each of its words once. Numbers are
missing only if too few words of the stream are accepted (`rolls_eq_none_iff`).
-/

namespace Composer.Chance

/-! ### Words -/

theorem word_lt (seed : UInt64) (i : Nat) : word seed i < 2 ^ 32 :=
  UInt32.toNat_lt _

theorem doubleWord_lt (seed : UInt64) (i : Nat) : doubleWord seed i < 2 ^ 64 := by
  have hlow := word_lt seed (2 * i)
  have hhigh := word_lt seed (2 * i + 1)
  rw [doubleWord, Nat.pow_eq]
  omega

/-- Blocks are numbered in 64 bits. -/
theorem start_add_pow (seed : UInt64) (n : Nat) : start seed (n + 2 ^ 64) = start seed n := by
  have hlow : (n + 2 ^ 64).toUInt32 = n.toUInt32 := by
    simp [Nat.toUInt32_eq]
  have hhigh : ((n + 2 ^ 64) / 2 ^ 32).toUInt32 = (n / 2 ^ 32).toUInt32 := by
    rw [← UInt32.toNat_inj, Nat.toUInt32_eq, Nat.toUInt32_eq, UInt32.toNat_ofNat',
      UInt32.toNat_ofNat']
    omega
  simp only [start, Nat.pow_eq, hlow, hhigh]

/-- **The stream repeats itself.** -/
theorem periodic_word (seed : UInt64) : Function.Periodic (word seed) period := by
  intro i
  have hblock : (i + period) / 16 = i / 16 + 2 ^ 64 := by
    rw [period, Nat.pow_eq]
    omega
  have hplace : (i + period) % 16 = i % 16 := by
    rw [period, Nat.pow_eq]
    omega
  rw [word, hblock, hplace, start_add_pow]
  rfl

theorem periodic_doubleWord (seed : UInt64) : Function.Periodic (doubleWord seed) period := by
  intro i
  have hlow : 2 * (i + period) = 2 * i + period + period := by omega
  have hhigh : 2 * (i + period) + 1 = 2 * i + 1 + period + period := by omega
  rw [doubleWord, hhigh, hlow]
  simp only [periodic_word seed _]
  rfl

/-! ### Accepted words -/

variable {bits range i j v : Nat} {source : Nat → Nat}

/-- The lower half of the word times the range is in the part that is accepted. -/
def Accepts (bits range w : Nat) : Prop :=
  w * range % 2 ^ bits < accepted bits range

/-- From position `i` on, fewer than `n` words are accepted. -/
def Scarce (bits range : Nat) (source : Nat → Nat) (i n : Nat) : Prop :=
  ∀ A : Finset Nat, (∀ k ∈ A, i ≤ k ∧ Accepts bits range (source k)) → A.card < n

theorem scarce_one_iff : Scarce bits range source i 1 ↔ ∀ k, ¬ Accepts bits range (source (i + k)) := by
  constructor
  · intro h k haccepted
    have hcard := h {i + k} fun m hm => by
      rw [Finset.mem_singleton.mp hm]
      exact ⟨Nat.le_add_right i k, haccepted⟩
    exact absurd hcard (by simp)
  · intro h A hA
    rw [Nat.lt_one_iff, Finset.card_eq_zero, Finset.eq_empty_iff_forall_notMem]
    intro m hm
    obtain ⟨hfrom, haccepted⟩ := hA m hm
    obtain ⟨k, rfl⟩ := Nat.exists_eq_add_of_le hfrom
    exact h k haccepted

/-- Of range nought nothing is accepted. -/
theorem Accepts.range_pos {w : Nat} (h : Accepts bits range w) : 0 < range := by
  by_contra hzero
  obtain rfl : range = 0 := by omega
  rw [Accepts, accepted, Nat.zero_mul] at h
  exact absurd h (Nat.not_lt_zero _)

/-- The word `k` places on is the first one that is accepted. -/
def IsFirst (bits range : Nat) (source : Nat → Nat) (i k : Nat) : Prop :=
  (∀ m < k, ¬ Accepts bits range (source (i + m))) ∧ Accepts bits range (source (i + k))

theorem isFirst_succ_iff {k : Nat} : IsFirst bits range source i (k + 1) ↔
    ¬ Accepts bits range (source i) ∧ IsFirst bits range source (i + 1) k := by
  have hnext : ∀ m, i + 1 + m = i + (m + 1) := by
    intro m
    omega
  simp only [IsFirst, hnext]
  constructor
  · rintro ⟨hrefused, haccepted⟩
    refine ⟨hrefused 0 (Nat.succ_pos k), fun m hm => ?_, haccepted⟩
    exact hrefused (m + 1) (Nat.succ_lt_succ hm)
  · rintro ⟨hfirst, hrefused, haccepted⟩
    refine ⟨fun m hm => ?_, haccepted⟩
    cases m with
    | zero => exact hfirst
    | succ m => exact hrefused m (Nat.lt_of_succ_lt_succ hm)

theorem exists_isFirst {k : Nat} (h : Accepts bits range (source (i + k))) :
    ∃ k, IsFirst bits range source i k := by
  induction k using Nat.strong_induction_on with
  | _ k ih =>
      by_cases hrefused : ∀ m < k, ¬ Accepts bits range (source (i + m))
      · exact ⟨k, hrefused, h⟩
      · push Not at hrefused
        obtain ⟨m, hm, haccepted⟩ := hrefused
        exact ih m hm haccepted

theorem drawWithin_eq_some_iff {tries : Nat} :
    drawWithin bits source range tries i = some (v, j) ↔
      ∃ k < tries, IsFirst bits range source i k ∧ v = source (i + k) * range / 2 ^ bits ∧
        j = i + k + 1 := by
  induction tries generalizing i with
  | zero => exact iff_of_false nofun (by simp)
  | succ tries ih =>
      have hnext : ∀ m, i + 1 + m = i + (m + 1) := by
        intro m
        omega
      by_cases haccepted : Accepts bits range (source i)
      · have hdraw : drawWithin bits source range (tries + 1) i =
            some (source i * range / 2 ^ bits, i + 1) := if_pos haccepted
        rw [hdraw, Option.some_inj, Prod.mk.injEq]
        constructor
        · rintro ⟨rfl, rfl⟩
          exact ⟨0, Nat.succ_pos tries, ⟨nofun, haccepted⟩, rfl, rfl⟩
        · rintro ⟨k, -, hfirst, rfl, rfl⟩
          cases k with
          | zero => exact ⟨rfl, rfl⟩
          | succ k => exact absurd haccepted (isFirst_succ_iff.mp hfirst).1
      · have hdraw : drawWithin bits source range (tries + 1) i =
            drawWithin bits source range tries (i + 1) := if_neg haccepted
        rw [hdraw, ih]
        constructor
        · rintro ⟨k, hk, hfirst, rfl, rfl⟩
          refine ⟨k + 1, Nat.succ_lt_succ hk, isFirst_succ_iff.mpr ⟨haccepted, hfirst⟩, ?_, ?_⟩
          · rw [hnext]
          · rw [hnext]
        · rintro ⟨k, hk, hfirst, rfl, rfl⟩
          cases k with
          | zero => exact absurd hfirst.2 haccepted
          | succ k =>
              refine ⟨k, Nat.lt_of_succ_lt_succ hk, (isFirst_succ_iff.mp hfirst).2, ?_, ?_⟩
              · rw [hnext]
              · rw [hnext]

section

variable (hsource : Function.Periodic source period)
include hsource

/-- No word is looked for longer than the stream takes to repeat itself. -/
theorem IsFirst.lt_period {k : Nat} (h : IsFirst bits range source i k) : k < period := by
  by_contra hlong
  have hback : source (i + k) = source (i + (k - period)) := by
    have hsame := hsource (i + (k - period))
    rwa [Nat.add_assoc, Nat.sub_add_cancel (Nat.le_of_not_lt hlong)] at hsame
  have hpos : 0 < period := by decide
  refine h.1 (k - period) (by omega) ?_
  rw [← hback]
  exact h.2

/-- **A draw takes the first word that is accepted**, however far on it is. -/
theorem draw_eq_some_iff : draw bits source range i = some (v, j) ↔
    ∃ k, IsFirst bits range source i k ∧ v = source (i + k) * range / 2 ^ bits ∧
      j = i + k + 1 := by
  rw [draw, drawWithin_eq_some_iff]
  constructor
  · rintro ⟨k, -, hdrawn⟩
    exact ⟨k, hdrawn⟩
  · rintro ⟨k, hfirst, hdrawn⟩
    exact ⟨k, hfirst.lt_period hsource, hfirst, hdrawn⟩

/-- A draw fails only where no word is accepted any more. -/
theorem draw_eq_none_iff :
    draw bits source range i = none ↔ Scarce bits range source i 1 := by
  rw [scarce_one_iff, Option.eq_none_iff_forall_ne_some]
  constructor
  · intro hnone k haccepted
    obtain ⟨k, hfirst⟩ := exists_isFirst haccepted
    exact hnone _ ((draw_eq_some_iff hsource).mpr ⟨k, hfirst, rfl, rfl⟩)
  · rintro hrefused ⟨v, j⟩ h
    obtain ⟨k, hfirst, -⟩ := (draw_eq_some_iff hsource).mp h
    exact hrefused k hfirst.2

end

/-- **What is drawn is below the range.** -/
theorem lt_of_draw (hsource : ∀ i, source i < 2 ^ bits)
    (h : draw bits source range i = some (v, j)) : v < range := by
  obtain ⟨k, -, hfirst, rfl, -⟩ := drawWithin_eq_some_iff.mp h
  exact Nat.div_lt_of_lt_mul (Nat.mul_lt_mul_of_pos_right (hsource _) hfirst.2.range_pos)

/-! ### Dice -/

variable {seed : UInt64} {sides n : Nat} {values : List Int}

theorem rolls_succ (seed : UInt64) (sides n i : Nat) : rolls seed sides (n + 1) i =
    (draw 32 (word seed) sides i).bind fun drawn =>
      (rolls seed sides n drawn.2).bind fun rest => some ((drawn.1 + 1 : Int) :: rest) :=
  rfl

/-- **Each die that is rolled shows one of its sides.** -/
theorem rolls_eq_some (h : rolls seed sides n i = some values) :
    values.length = n ∧ ∀ v ∈ values, 1 ≤ v ∧ v ≤ sides := by
  induction n generalizing i values with
  | zero =>
      obtain rfl := Option.some.inj h
      exact ⟨rfl, List.forall_mem_nil _⟩
  | succ n ih =>
      rw [rolls_succ] at h
      obtain ⟨⟨v, j⟩, hdraw, h⟩ := Option.bind_eq_some_iff.mp h
      obtain ⟨rest, hrest, h⟩ := Option.bind_eq_some_iff.mp h
      obtain rfl := Option.some.inj h
      obtain ⟨hlength, hrange⟩ := ih hrest
      have hlt := lt_of_draw (word_lt seed) hdraw
      refine ⟨congrArg (· + 1) hlength, List.forall_mem_cons.mpr ⟨?_, hrange⟩⟩
      omega

/-- Behind the first word that is accepted there is one word less. -/
theorem IsFirst.scarce_succ_iff {k : Nat} (hfirst : IsFirst bits range source i k) :
    Scarce bits range source i (n + 1) ↔ Scarce bits range source (i + k + 1) n := by
  constructor
  · intro h A hA
    have hnew : i + k ∉ A := fun hmem => by
      have hbehind := (hA _ hmem).1
      omega
    have hmore := h (insert (i + k) A) fun m hm => by
      rcases Finset.mem_insert.mp hm with rfl | hm
      · exact ⟨Nat.le_add_right i k, hfirst.2⟩
      · obtain ⟨hbehind, hm⟩ := hA m hm
        exact ⟨by omega, hm⟩
    rw [Finset.card_insert_of_notMem hnew] at hmore
    exact Nat.lt_of_succ_lt_succ hmore
  · intro h A hA
    have hbehind := h (A.erase (i + k)) fun m hm => by
      obtain ⟨hne, hm⟩ := Finset.mem_erase.mp hm
      obtain ⟨hfrom, hm⟩ := hA m hm
      refine ⟨?_, hm⟩
      by_contra hbefore
      refine hfirst.1 (m - i) (by omega) ?_
      rwa [Nat.add_sub_cancel' hfrom]
    exact Nat.lt_succ_of_le (Nat.le_of_pred_lt (Nat.lt_of_le_of_lt Finset.pred_card_le_card_erase
      hbehind))

/-- **Dice are missing only if fewer words than dice are accepted.** -/
theorem rolls_eq_none_iff :
    rolls seed sides n i = none ↔ Scarce 32 sides (word seed) i n := by
  induction n generalizing i with
  | zero => exact iff_of_false (fun h => nomatch h) fun h => absurd (h ∅ (by simp)) (by simp)
  | succ n ih =>
      rw [rolls_succ]
      cases hdraw : draw 32 (word seed) sides i with
      | none =>
          have hscarce := (draw_eq_none_iff (periodic_word seed)).mp hdraw
          exact iff_of_true rfl fun A hA => (hscarce A hA).trans_le (Nat.succ_le_succ n.zero_le)
      | some drawn =>
          obtain ⟨k, hfirst, -, hnext⟩ := (draw_eq_some_iff (periodic_word seed)).mp hdraw
          rw [Option.bind_some, hnext, hfirst.scarce_succ_iff, ← ih]
          cases rolls seed sides n (i + k + 1) <;> simp

/-- Values between two bounds have a sum between as many times the bounds. -/
theorem sum_bounds {values : List Int} {sides : Int} (h : ∀ v ∈ values, 1 ≤ v ∧ v ≤ sides) :
    values.length ≤ values.sum ∧ values.sum ≤ values.length * sides := by
  induction values with
  | nil => simp
  | cons v values ih =>
      obtain ⟨hv, hvalues⟩ := List.forall_mem_cons.mp h
      obtain ⟨hlow, hhigh⟩ := ih hvalues
      rw [List.sum_cons, List.length_cons, Nat.cast_succ, Int.add_mul, Int.one_mul]
      omega

/-! ### Whole numbers -/

variable {low high value : Int}

/-- **A number that is drawn lies between the bounds.** -/
theorem between_eq_some (h : between seed low high = some value) : low ≤ value ∧ value ≤ high := by
  obtain ⟨⟨v, j⟩, hdraw, rfl⟩ := Option.map_eq_some_iff.mp h
  have hlt := lt_of_draw (doubleWord_lt seed) hdraw
  dsimp only
  omega

theorem between_eq_none_iff : between seed low high = none ↔
    Scarce 64 (high - low + 1).toNat (doubleWord seed) 0 1 :=
  Option.map_eq_none_iff.trans (draw_eq_none_iff (periodic_doubleWord seed))

end Composer.Chance
