import Composer.Proofs.Countdown.Components
/-!
# Composer.Proofs.Countdown.Duration

**What a duration looks like.** In lower case a duration is a clock reading, a number of minutes, or
numbers with units (`Writes`), and these are exactly the texts that are read as one
(`duration?_eq_some_iff`).
-/

namespace Composer.Countdown

open Text

/-! ### Clock readings -/

/-- A clock reading and the seconds that it says. All parts but the first one have two digits and
are below 60. -/
inductive WritesClock : Nat → List Char → Prop where
  /-- Minutes and seconds. -/
  | minutes {a b : List Char} {m n : Nat} (a_eq : natural? a = some m) (short : a.length ≤ 2)
      (b_eq : natural? b = some n) (two : b.length = 2) (n_lt : n < 60) :
      WritesClock (m * 60 + n) (a ++ ':' :: b)
  /-- Hours, minutes and seconds. -/
  | hours {a b c : List Char} {h m n : Nat} (a_eq : natural? a = some h) (short : a.length ≤ 2)
      (b_eq : natural? b = some m) (b_two : b.length = 2) (c_eq : natural? c = some n)
      (c_two : c.length = 2) (m_lt : m < 60) (n_lt : n < 60) :
      WritesClock (h * 3600 + (m * 60 + n)) (a ++ ':' :: (b ++ ':' :: c))

/-- How a clock phrase is put together. -/
theorem clockPhrase_eq_some {s a b : List Char} {c : Option (List Char)}
    (h : clockPhrase s = some (a, b, c)) :
    a.length ≤ 2 ∧ b.length = 2 ∧ (c = none ∧ s = a ++ ':' :: b ∨
      ∃ c', c = some c' ∧ c'.length = 2 ∧ s = a ++ ':' :: (b ++ ':' :: c')) := by
  obtain ⟨a', r, rfl, hshort, -, hcolon⟩ := digits_eq_some h
  obtain ⟨r, rfl, hsecond⟩ := char_eq_some hcolon
  obtain ⟨b', r, rfl, hb, -, hrest⟩ := exactly_eq_some hsecond
  obtain ⟨way, hway, hrest⟩ := firstOf_eq_some hrest
  simp only [List.mem_cons, List.not_mem_nil, or_false] at hway
  rcases hway with rfl | rfl
  · obtain ⟨r, rfl, hthird⟩ := char_eq_some hrest
    obtain ⟨c', r, rfl, hc, -, hstop⟩ := exactly_eq_some hthird
    cases r with
    | cons d r => cases hstop
    | nil =>
        cases hstop
        exact ⟨hshort.2, hb, Or.inr ⟨c', rfl, hc, by rw [List.append_nil]⟩⟩
  · cases r with
    | cons d r => cases hrest
    | nil =>
        cases hrest
        exact ⟨hshort.2, hb, Or.inl ⟨rfl, by rw [List.append_nil]⟩⟩

theorem colon_mem_of_clockPhrase {s : List Char} {p : List Char × List Char × Option (List Char)}
    (h : clockPhrase s = some p) : ':' ∈ s := by
  obtain ⟨a, b, c⟩ := p
  obtain ⟨-, -, ⟨-, rfl⟩ | ⟨c', -, -, rfl⟩⟩ := clockPhrase_eq_some h
  · simp
  · simp

theorem writesClock_of_clockSeconds? {s a b : List Char} {c : Option (List Char)} {n : Nat}
    (h : clockPhrase s = some (a, b, c)) (hn : clockSeconds? a b c = some n) : WritesClock n s := by
  obtain ⟨hshort, hb, hc⟩ := clockPhrase_eq_some h
  obtain ⟨x, hx, hn⟩ := Option.bind_eq_some_iff.mp hn
  obtain ⟨y, hy, hn⟩ := Option.bind_eq_some_iff.mp hn
  cases c with
  | none =>
      obtain ⟨-, rfl⟩ | ⟨c', hnone, -⟩ := hc
      · obtain ⟨hlt, heq⟩ := Option.ite_none_right_eq_some.mp hn
        obtain rfl := Option.some.inj heq
        exact .minutes hx hshort hy hb hlt
      · cases hnone
  | some c =>
      obtain ⟨hnone, -⟩ | ⟨c', hsome, hc', rfl⟩ := hc
      · cases hnone
      · obtain rfl := Option.some.inj hsome
        obtain ⟨z, hz, hn⟩ := Option.bind_eq_some_iff.mp hn
        obtain ⟨hlt, heq⟩ := Option.ite_none_right_eq_some.mp hn
        obtain rfl := Option.some.inj heq
        exact .hours hx hshort hy hb hz hc' hlt.1 hlt.2

/-- The first part of a clock phrase is read up to the colon, the second part up to the rest. -/
theorem clockPhrase_append {a b r : List Char} {m n : Nat} (ha : natural? a = some m)
    (hshort : a.length ≤ 2) (hb : natural? b = some n) (htwo : b.length = 2) :
    clockPhrase (a ++ ':' :: (b ++ r)) =
      firstOf [
        char ':' <| exactly 2 isDecimalDigit fun c => stop (a, b, some c),
        stop (a, b, none)] r := by
  obtain ⟨hne, hdigits⟩ := natural?_eq_some ha
  have hcolon : ∀ d ∈ (':' :: (b ++ r)).head?, isDecimalDigit d = false := by
    intro d hd
    obtain rfl := Option.some.inj hd
    rfl
  rw [clockPhrase, digits_append hdigits hcolon _ ⟨List.length_pos_iff.mpr hne, hshort⟩,
    char_cons, exactly_append htwo (natural?_eq_some hb).2]

/-- A clock reading is read as what it says. -/
theorem WritesClock.read {n : Nat} {s : List Char} (h : WritesClock n s) :
    ∃ a b c, clockPhrase s = some (a, b, c) ∧ clockSeconds? a b c = some n := by
  cases h with
  | @minutes a b m n ha hshort hb htwo hlt =>
      refine ⟨a, b, none, ?_, ?_⟩
      · rw [← List.append_nil b, clockPhrase_append ha hshort hb htwo, List.append_nil]
        rfl
      · simp [clockSeconds?, ha, hb, hlt]
  | @hours a b c h m n ha hshort hb hbtwo hc hctwo hm hn =>
      refine ⟨a, b, some c, ?_, ?_⟩
      · rw [clockPhrase_append ha hshort hb hbtwo, firstOf_of_eq_some]
        rw [char_cons, ← List.append_nil c, exactly_append hctwo (natural?_eq_some hc).2,
          List.append_nil]
        rfl
      · simp [clockSeconds?, ha, hb, hc, hm, hn]

/-! ### Durations -/

/-- Numbers with units and the seconds that they are. A gap may stand in front, and a joint behind
them. -/
inductive WritesSum : Nat → List Char → Prop where
  /-- The sum is rounded. -/
  | of {lead body tail : List Char} {total : Float} (lead_gap : ∀ c ∈ lead, isGap c = true)
      (sum : IsSum total body) (tail_joint : IsJoint tail) :
      WritesSum (nearestWhole total) (lead ++ (body ++ tail))

/-- A duration in lower case and the seconds that it says. -/
inductive Writes : Nat → List Char → Prop where
  /-- A clock reading. -/
  | clock {n : Nat} {s : List Char} (h : WritesClock n s) : Writes n s
  /-- A number of minutes. -/
  | minutes {m : Nat} {s : List Char} (number : natural? s = some m)
      (fits : m * 60 < Nat.pow 2 64) : Writes (m * 60) s
  /-- Numbers with units. -/
  | sum {n : Nat} {s : List Char} (h : WritesSum n s) : Writes n s

/-- A character of a sum: a gap, a letter, or part of a number. -/
def inSum (c : Char) : Bool :=
  isGap c || c.isAlpha || inNumber c

theorem IsComponent.inSum {v : Float} {c : List Char} (h : IsComponent v c) :
    ∀ d ∈ c, inSum d = true := by
  cases h with
  | of hnumber _ hgap hsize =>
      intro d hd
      rcases List.mem_append.mp hd with hd | hd
      · simp [Countdown.inSum, hnumber d hd]
      · rcases List.mem_append.mp hd with hd | hd
        · simp [Countdown.inSum, hgap d hd]
        · simp [Countdown.inSum, (of_unitSeconds? hsize).2 d hd]

theorem IsJoint.inSum {j : List Char} (h : IsJoint j) : ∀ d ∈ j, inSum d = true := by
  induction h with
  | gap hws => exact fun d hd => by simp [Countdown.inSum, hws d hd]
  | and hws _ _ ih =>
      intro d hd
      rcases List.mem_append.mp hd with hd | hd
      · simp [Countdown.inSum, hws d hd]
      · rcases List.mem_append.mp hd with hd | hd
        · have hletters : ∀ e ∈ "and".toList, Countdown.inSum e = true := by simp [Countdown.inSum]
          exact hletters d hd
        · exact ih d hd

theorem IsSum.inSum {t : Float} {s : List Char} (h : IsSum t s) : ∀ d ∈ s, inSum d = true := by
  induction h with
  | one hc => exact hc.inSum
  | next _ hj hc ih =>
      intro d hd
      rcases List.mem_append.mp hd with hd | hd
      · exact ih d hd
      · exact (List.mem_append.mp hd).elim (hj.inSum d) (hc.inSum d)

/-- A sum has a letter: that of a unit. -/
theorem IsSum.exists_isAlpha {t : Float} {s : List Char} (h : IsSum t s) :
    ∃ d ∈ s, d.isAlpha = true := by
  have hcomponent {v : Float} {c : List Char} (h : IsComponent v c) : ∃ d ∈ c, d.isAlpha = true := by
    cases h with
    | of _ _ _ hsize =>
        obtain ⟨hne, hletters⟩ := of_unitSeconds? hsize
        obtain ⟨u, unit, rfl⟩ := List.exists_cons_of_ne_nil hne
        exact ⟨u, by simp, hletters u List.mem_cons_self⟩
  cases h with
  | one hc => exact hcomponent hc
  | next _ _ hc =>
      obtain ⟨d, hd, halpha⟩ := hcomponent hc
      exact ⟨d, by simp [hd], halpha⟩

theorem WritesSum.inSum {n : Nat} {s : List Char} (h : WritesSum n s) :
    ∀ c ∈ s, inSum c = true := by
  cases h with
  | of hlead hbody htail =>
      intro c hc
      rcases List.mem_append.mp hc with hc | hc
      · simp [Countdown.inSum, hlead c hc]
      · exact (List.mem_append.mp hc).elim (hbody.inSum c) (htail.inSum c)

theorem WritesSum.exists_isAlpha {n : Nat} {s : List Char} (h : WritesSum n s) :
    ∃ c ∈ s, c.isAlpha = true := by
  cases h with
  | of _ hbody =>
      obtain ⟨c, hc, halpha⟩ := hbody.exists_isAlpha
      exact ⟨c, by simp [hc], halpha⟩

theorem componentSeconds?_eq_some_iff {s : List Char} {n : Nat} :
    componentSeconds? s = some n ↔ WritesSum n s := by
  have hsum : componentSeconds? s = (sum? true 0 s).map nearestWhole := rfl
  rw [hsum, Option.map_eq_some_iff]
  constructor
  · intro h
    obtain ⟨total, htotal, rfl⟩ := h
    obtain ⟨lead, body, tail, rfl, hlead, hbody, htail⟩ := sum?_eq_some_iff.mp htotal
    exact .of hlead hbody htail
  · intro h
    cases h with
    | of hlead hbody htail =>
        exact ⟨_, sum?_eq_some_iff.mpr ⟨_, _, _, rfl, hlead, hbody, htail⟩, rfl⟩

/-- The kinds of durations do not overlap: a colon stands in a clock reading only, and a letter in
a sum only. -/
theorem Writes.apart {n : Nat} {s : List Char} (h : Writes n s) :
    WritesClock n s ∨ ':' ∉ s ∧ ((∀ c ∈ s, c.isDigit = true) ∧ minutesOnly? s = some n ∨
      (∃ c ∈ s, c.isDigit = false) ∧ componentSeconds? s = some n) := by
  cases h with
  | clock h => exact Or.inl h
  | minutes hm hfits =>
      obtain ⟨-, hdigits⟩ := isDigit_of_natural? hm
      refine Or.inr ⟨fun hcolon => ?_, Or.inl ⟨hdigits, ?_⟩⟩
      · exact absurd (hdigits _ hcolon) (by decide)
      · rw [minutesOnly?, hm]
        exact if_pos hfits
  | sum h =>
      refine Or.inr ⟨fun hcolon => ?_, Or.inr ⟨?_, componentSeconds?_eq_some_iff.mpr h⟩⟩
      · exact absurd (h.inSum _ hcolon) (by decide)
      · obtain ⟨d, hd, halpha⟩ := h.exists_isAlpha
        have hnumber := (of_isAlpha halpha).2
        rw [inNumber, Bool.or_eq_false_iff] at hnumber
        exact ⟨d, hd, hnumber.1⟩

theorem Writes.ne_nil {n : Nat} {s : List Char} (h : Writes n s) : s ≠ [] := by
  cases h with
  | clock h => cases h <;> simp
  | minutes hm => exact (isDigit_of_natural? hm).1
  | sum h =>
      obtain ⟨d, hd, -⟩ := h.exists_isAlpha
      exact List.ne_nil_of_mem hd

/-- **What is read as a duration.** -/
theorem duration?_eq_some_iff {text : List Char} {n : Nat} :
    duration? text = some n ↔ Writes n (lower (trim text)) := by
  rw [duration?]
  generalize lower (trim text) = s
  constructor
  · intro h
    split at h
    · cases h
    · split at h
      · next hclock => exact .clock (writesClock_of_clockSeconds? hclock h)
      · split at h
        · obtain ⟨m, hm, h⟩ := Option.bind_eq_some_iff.mp h
          obtain ⟨hfits, heq⟩ := Option.ite_none_right_eq_some.mp h
          obtain rfl := Option.some.inj heq
          exact .minutes hm hfits
        · exact .sum (componentSeconds?_eq_some_iff.mp h)
  · intro h
    have hfull : s.isEmpty = false := by simpa using h.ne_nil
    simp only [hfull, Bool.false_eq_true, if_false]
    rcases h.apart with hclock | ⟨hcolon, h⟩
    · obtain ⟨a, b, c, hphrase, hseconds⟩ := hclock.read
      simp only [hphrase, hseconds]
    · have hphrase : clockPhrase s = none := by
        rw [Option.eq_none_iff_forall_ne_some]
        exact fun p hp => hcolon (colon_mem_of_clockPhrase hp)
      rcases h with ⟨hdigits, hn⟩ | ⟨⟨d, hd, hdigit⟩, hn⟩
      · have hall : s.all Char.isDigit = true := List.all_eq_true.mpr hdigits
        simp only [hphrase, hall, if_true, hn]
      · have hall : s.all Char.isDigit = false := by
          rw [List.all_eq_false]
          exact ⟨d, hd, by simp [hdigit]⟩
        simp only [hphrase, hall, Bool.false_eq_true, if_false, hn]

end Composer.Countdown
