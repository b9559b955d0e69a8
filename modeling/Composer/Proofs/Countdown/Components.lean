import Composer.Countdown.Duration
import Composer.Proofs.Text.Phrase
/-!
# Composer.Proofs.Countdown.Components

**Numbers with units.** A sum is read component by component: `sum?_cases` says in which ways it
goes on, and the equations before it say that it goes on so. What is summed up is a row of
components with joints between them, and perhaps a joint behind the last one
(`sum?_eq_some_iff`). The word *and* may stand in every joint, several times even.
-/

namespace Composer.Countdown

open Text

/-! ### Characters -/

theorem of_isAlpha {c : Char} (h : c.isAlpha = true) : isGap c = false ∧ inNumber c = false :=
  forall_alpha (P := fun c => isGap c = false ∧ inNumber c = false) (by decide) (by decide) h

theorem not_isAlpha_of_isGap {c : Char} (h : isGap c = true) : c.isAlpha = false := by
  rw [Bool.eq_false_iff]
  intro halpha
  rw [(of_isAlpha halpha).1] at h
  cases h

theorem not_inNumber_of_isGap {c : Char} (h : isGap c = true) : inNumber c = false := by
  simp only [isGap, Bool.or_eq_true, decide_eq_true_eq] at h
  rcases h with h | h
  · have hdigit := isDecimalDigit_of_isBlank h
    rw [isDecimalDigit, Bool.or_eq_false_iff] at hdigit
    rw [inNumber, hdigit.1, Bool.false_or, decide_eq_false_iff_not]
    intro hpoint
    subst hpoint
    cases h
  · subst h
    rfl

theorem of_inNumber {c : Char} (h : inNumber c = true) : isGap c = false ∧ c.isAlpha = false := by
  rw [Bool.eq_false_iff, Bool.eq_false_iff]
  constructor
  · intro hgap
    rw [not_inNumber_of_isGap hgap] at h
    cases h
  · intro halpha
    rw [(of_isAlpha halpha).2] at h
    cases h

/-! ### Units -/

/-- The words for hours, minutes and seconds. -/
def unitWords : List String :=
  ["h", "hr", "hrs", "hour", "hours", "m", "min", "mins", "minute", "minutes",
    "s", "sec", "secs", "second", "seconds"]

theorem of_unitSeconds? {w : List Char} {seconds : Float} (h : unitSeconds? w = some seconds) :
    w ≠ [] ∧ ∀ c ∈ w, c.isAlpha = true := by
  have hletters : ∀ u ∈ unitWords, u.toList ≠ [] ∧ ∀ c ∈ u.toList, c.isAlpha = true := by
    simp only [← List.all_eq_true]
    decide
  have hmem : String.ofList w ∈ unitWords := by
    by_contra hmem
    simp only [unitWords, List.mem_cons, List.not_mem_nil, not_or, or_false] at hmem
    simp [unitSeconds?, hmem] at h
  simpa using hletters _ hmem

/-! ### Numbers with units -/

/-- A number and its unit, and how many seconds they are. -/
inductive IsComponent : Float → List Char → Prop where
  /-- There may be a gap between the two. -/
  | of {number gap unit : List Char} {x seconds : Float}
      (number_chars : ∀ c ∈ number, inNumber c = true) (value : Decimal.ofText? number = some x)
      (gap_chars : ∀ c ∈ gap, isGap c = true) (size : unitSeconds? unit = some seconds) :
      IsComponent (x * seconds) (number ++ (gap ++ unit))

/-- What may stand between two components: a gap, in which the word *and* may stand, even more than
once. -/
inductive IsJoint : List Char → Prop where
  /-- A gap, which may be empty. -/
  | gap {ws : List Char} (blank : ∀ c ∈ ws, isGap c = true) : IsJoint ws
  /-- A gap, the word *and* and what may follow it. -/
  | and {ws j : List Char} (blank : ∀ c ∈ ws, isGap c = true) (ne : ws ≠ []) (rest : IsJoint j) :
      IsJoint (ws ++ ("and".toList ++ j))

/-- Components with joints between them, and the sum of their seconds. -/
inductive IsSum : Float → List Char → Prop where
  /-- One component. -/
  | one {v : Float} {c : List Char} (component : IsComponent v c) : IsSum (0 + v) c
  /-- One more component. -/
  | next {t v : Float} {s j c : List Char} (sum : IsSum t s) (joint : IsJoint j)
      (component : IsComponent v c) : IsSum (t + v) (s ++ (j ++ c))

theorem IsComponent.exists_cons {v : Float} {c : List Char} (h : IsComponent v c) :
    ∃ d r, c = d :: r ∧ inNumber d = true := by
  cases h with
  | @of number gap unit x seconds hnumber hvalue =>
      cases number with
      | nil => cases hvalue
      | cons d number => exact ⟨d, _, rfl, hnumber d List.mem_cons_self⟩

/-- A component takes a character at least, -/
theorem IsComponent.length_lt {v : Float} {c : List Char} (h : IsComponent v c) (r : List Char) :
    r.length < (c ++ r).length := by
  obtain ⟨d, c, rfl, -⟩ := h.exists_cons
  rw [List.length_append, List.length_cons]
  omega

/-- and so does the word *and*. -/
theorem length_lt_and_append (r : List Char) : r.length < ("and".toList ++ r).length := by
  rw [List.length_append]
  exact Nat.lt_add_of_pos_left (by decide)

/-- A letter neither begins a component nor what follows a joint. -/
theorem IsComponent.head_not_alpha {v : Float} {c : List Char} (h : IsComponent v c)
    (r : List Char) : ∀ d ∈ (c ++ r).head?, d.isAlpha = false := by
  obtain ⟨e, rest, rfl, he⟩ := h.exists_cons
  intro d hd
  obtain rfl := Option.some.inj hd
  exact (of_inNumber he).2

theorem IsJoint.head_not_alpha {j r : List Char} (h : IsJoint j)
    (hr : ∀ d ∈ r.head?, d.isAlpha = false) : ∀ d ∈ (j ++ r).head?, d.isAlpha = false := by
  have hgap {ws s : List Char} (hws : ∀ c ∈ ws, isGap c = true)
      (hs : ws = [] → ∀ d ∈ s.head?, d.isAlpha = false) :
      ∀ d ∈ (ws ++ s).head?, d.isAlpha = false := by
    cases ws with
    | nil => exact hs rfl
    | cons w ws =>
        intro d hd
        obtain rfl := Option.some.inj hd
        exact not_isAlpha_of_isGap (hws _ List.mem_cons_self)
  cases h with
  | gap hws => exact hgap hws fun _ => hr
  | and hws hne =>
      rw [List.append_assoc]
      exact hgap hws fun hnil => absurd hnil hne

/-! ### One step of the reader -/

theorem component?_eq_some {s rest : List Char} {v : Float} (h : component? s = some (v, rest)) :
    ∃ c, s = c ++ rest ∧ IsComponent v c ∧ ∀ d ∈ rest.head?, d.isAlpha = false := by
  obtain ⟨x, hx, h⟩ := Option.bind_eq_some_iff.mp h
  obtain ⟨seconds, hunit, h⟩ := Option.bind_eq_some_iff.mp h
  obtain ⟨rfl, rfl⟩ := Prod.mk.inj (Option.some.inj h)
  have hgap : ∀ c ∈ (s.dropWhile inNumber).takeWhile isGap, isGap c = true := fun _ hc =>
    List.mem_takeWhile_imp hc
  refine ⟨_, ?_, .of (fun _ hc => List.mem_takeWhile_imp hc) hx hgap hunit, ?_⟩
  · rw [List.append_assoc, List.append_assoc, List.takeWhile_append_dropWhile,
      List.takeWhile_append_dropWhile, List.takeWhile_append_dropWhile]
  · intro d hd
    have hstop := List.head?_dropWhile_not Char.isAlpha ((s.dropWhile inNumber).dropWhile isGap)
    rw [Option.mem_def.mp hd] at hstop
    exact hstop

theorem component?_append {v : Float} {c r : List Char} (h : IsComponent v c)
    (hr : ∀ d ∈ r.head?, d.isAlpha = false) : component? (c ++ r) = some (v, r) := by
  cases h with
  | @of number gap unit x seconds hnumber hvalue hgap hsize =>
      obtain ⟨hne, hletters⟩ := of_unitSeconds? hsize
      obtain ⟨u, unit, rfl⟩ := List.exists_cons_of_ne_nil hne
      have hu : u.isAlpha = true := hletters u List.mem_cons_self
      have hnumberEnd : ∀ d ∈ (gap ++ (u :: unit ++ r)).head?, inNumber d = false := by
        intro d hd
        cases gap with
        | nil =>
            obtain rfl := Option.some.inj hd
            exact (of_isAlpha hu).2
        | cons g gap =>
            obtain rfl := Option.some.inj hd
            exact not_inNumber_of_isGap (hgap _ List.mem_cons_self)
      have hgapEnd : ∀ d ∈ (u :: unit ++ r).head?, isGap d = false := by
        intro d hd
        obtain rfl := Option.some.inj hd
        exact (of_isAlpha hu).1
      obtain ⟨htake, hdrop⟩ := takeWhile_append_of_stop hnumber hnumberEnd
      obtain ⟨-, hdrop'⟩ := takeWhile_append_of_stop hgap hgapEnd
      obtain ⟨htake'', hdrop''⟩ := takeWhile_append_of_stop hletters hr
      rw [List.append_assoc, List.append_assoc, component?, htake, hdrop, hvalue]
      simp only [Option.bind_eq_bind, Option.bind_some, hdrop', htake'', hsize, hdrop'']

theorem afterAnd_eq_some {s rest : List Char} (h : afterAnd s = some rest) :
    s = "and".toList ++ rest ∧ ∀ d ∈ rest.head?, d.isAlpha = false := by
  unfold afterAnd at h
  split at h
  · next r =>
    split at h
    · cases h
    · next hletter =>
      obtain rfl := Option.some.inj h
      refine ⟨rfl, fun d hd => ?_⟩
      rw [Option.mem_def.mp hd] at hletter
      simpa using hletter
  · cases h

theorem afterAnd_append {rest : List Char} (h : ∀ d ∈ rest.head?, d.isAlpha = false) :
    afterAnd ("and".toList ++ rest) = some rest := by
  show (if rest.head?.any Char.isAlpha then none else some rest) = some rest
  rw [if_neg]
  rw [Option.any_eq_true]
  intro hletter
  obtain ⟨d, hd, hletter⟩ := hletter
  rw [h d hd] at hletter
  cases hletter

/-- A component does not begin with the word *and*. -/
theorem afterAnd_of_inNumber {c : Char} (h : inNumber c = true) (s : List Char) :
    afterAnd (c :: s) = none := by
  unfold afterAnd
  split
  · next heq =>
    obtain ⟨rfl, -⟩ := List.cons.inj heq
    cases h
  · rfl

/-! ### The whole sum -/

/-- The sum of the components of a text, added to `total`, with enough fuel. -/
def sum? (first : Bool) (total : Float) (s : List Char) : Option Float :=
  componentsFrom (s.length + 1) first total s

/-- More fuel than the length of the text makes no difference. -/
theorem componentsFrom_fuel {fuel fuel' : Nat} {first : Bool} {total : Float} {s : List Char}
    (h : s.length < fuel) (h' : s.length < fuel') :
    componentsFrom fuel first total s = componentsFrom fuel' first total s := by
  induction fuel generalizing fuel' first total s with
  | zero => exact absurd h (Nat.not_lt_zero _)
  | succ fuel ih =>
      obtain ⟨fuel', rfl⟩ : ∃ n, fuel' = n + 1 := ⟨fuel' - 1, by omega⟩
      have hle : (s.dropWhile isGap).length ≤ s.length := (List.dropWhile_suffix _).length_le
      rw [componentsFrom, componentsFrom]
      generalize s.dropWhile isGap = u at hle
      cases u with
      | nil => rfl
      | cons c r =>
          dsimp only
          cases hand : if first = true then none else afterAnd (c :: r) with
          | some rest =>
              have hafter : afterAnd (c :: r) = some rest := by
                split at hand
                · cases hand
                · exact hand
              have hlt := length_lt_and_append rest
              rw [← (afterAnd_eq_some hafter).1] at hlt
              exact ih (by omega) (by omega)
          | none =>
              cases hcomponent : component? (c :: r) with
              | none => rfl
              | some p =>
                  obtain ⟨v, rest⟩ := p
                  obtain ⟨text, htext, hc, -⟩ := component?_eq_some hcomponent
                  have hlt := hc.length_lt rest
                  rw [← htext] at hlt
                  have hfuel : rest.length < fuel := by omega
                  have hfuel' : rest.length < fuel' := by omega
                  exact ih hfuel hfuel'

section

variable {first : Bool} {total t : Float} {s r c : List Char} {v : Float}

/-- With gaps only, the sum is what it was. -/
theorem sum?_of_isGap (h : ∀ c ∈ s, isGap c = true) :
    sum? first total s = if first then none else some total := by
  have hnil : s.dropWhile isGap = [] := List.dropWhile_eq_nil_iff.mpr h
  rw [sum?, componentsFrom, hnil]

theorem sum?_gap_append {ws : List Char} (h : ∀ c ∈ ws, isGap c = true) :
    sum? first total (ws ++ s) = sum? first total s := by
  have hlength : s.length < (ws ++ s).length + 1 := by
    rw [List.length_append]
    omega
  calc sum? first total (ws ++ s) = componentsFrom ((ws ++ s).length + 1) first total s := by
        rw [sum?, componentsFrom, componentsFrom, List.dropWhile_append_of_pos h]
    _ = sum? first total s := componentsFrom_fuel hlength (Nat.lt_succ_self _)

theorem sum?_and_append (h : ∀ d ∈ r.head?, d.isAlpha = false) :
    sum? false total ("and".toList ++ r) = sum? false total r := by
  have hstart : ("and".toList ++ r).dropWhile isGap = 'a' :: 'n' :: 'd' :: r := rfl
  have hand : (if false = true then none else afterAnd ('a' :: 'n' :: 'd' :: r)) = some r :=
    afterAnd_append h
  rw [sum?, componentsFrom, hstart]
  dsimp only
  rw [hand]
  exact componentsFrom_fuel (length_lt_and_append r) (Nat.lt_succ_self _)

theorem sum?_component_append (hc : IsComponent v c) (h : ∀ d ∈ r.head?, d.isAlpha = false) :
    sum? first total (c ++ r) = sum? false (total + v) r := by
  have hcomponent := component?_append hc h
  have hlength := hc.length_lt r
  obtain ⟨d, c, rfl, hd⟩ := hc.exists_cons
  have hstart : (d :: c ++ r).dropWhile isGap = d :: c ++ r :=
    List.dropWhile_cons_of_neg (by simp [(of_inNumber hd).1])
  have hand : (if first = true then none else afterAnd (d :: (c ++ r))) = none := by
    rw [afterAnd_of_inNumber hd, ite_self]
  rw [sum?, componentsFrom, hstart]
  simp only [List.cons_append] at hcomponent ⊢
  rw [hand, hcomponent]
  exact componentsFrom_fuel hlength (Nat.lt_succ_self _)

/-- The ways in which a sum goes on, or ends. -/
theorem sum?_cases (h : sum? first total s = some t) :
    ∃ ws u, s = ws ++ u ∧ (∀ c ∈ ws, isGap c = true) ∧
      (first = false ∧ u = [] ∧ t = total ∨
        first = false ∧ (∃ r, u = "and".toList ++ r ∧ (∀ d ∈ r.head?, d.isAlpha = false) ∧
          sum? false total r = some t) ∨
        ∃ v c r, u = c ++ r ∧ IsComponent v c ∧ (∀ d ∈ r.head?, d.isAlpha = false) ∧
          sum? false (total + v) r = some t) := by
  refine ⟨s.takeWhile isGap, s.dropWhile isGap, List.takeWhile_append_dropWhile.symm,
    fun _ hc => List.mem_takeWhile_imp hc, ?_⟩
  have hle : (s.dropWhile isGap).length ≤ s.length := (List.dropWhile_suffix _).length_le
  rw [sum?, componentsFrom] at h
  generalize s.dropWhile isGap = u at h hle
  cases u with
  | nil =>
      cases first with
      | true => cases h
      | false => exact Or.inl ⟨rfl, rfl, (Option.some.inj h).symm⟩
  | cons c r =>
      dsimp only at h
      cases hand : if first = true then none else afterAnd (c :: r) with
      | some rest =>
          rw [hand] at h
          cases first with
          | true => cases hand
          | false =>
              obtain ⟨htext, hhead⟩ := afterAnd_eq_some hand
              have hlt := length_lt_and_append rest
              rw [← htext] at hlt
              have hfuel : rest.length < s.length := by omega
              exact Or.inr (Or.inl ⟨rfl, rest, htext, hhead,
                (componentsFrom_fuel (Nat.lt_succ_self _) hfuel).trans h⟩)
      | none =>
          rw [hand] at h
          obtain ⟨⟨v, rest⟩, hcomponent, h⟩ := Option.bind_eq_some_iff.mp h
          obtain ⟨text, htext, hc, hhead⟩ := component?_eq_some hcomponent
          have hlt := hc.length_lt rest
          rw [← htext] at hlt
          have hfuel : rest.length < s.length := by omega
          exact Or.inr (Or.inr ⟨v, _, rest, htext, hc, hhead,
            (componentsFrom_fuel (Nat.lt_succ_self _) hfuel).trans h⟩)

/-! ### What is summed up -/

theorem sum?_joint_append {j : List Char} (hj : IsJoint j)
    (h : ∀ d ∈ r.head?, d.isAlpha = false) : sum? false total (j ++ r) = sum? false total r := by
  induction hj with
  | gap hws => exact sum?_gap_append hws
  | and hws hne hj ih =>
      rw [List.append_assoc, List.append_assoc, sum?_gap_append hws,
        sum?_and_append (hj.head_not_alpha h), ih]

/-- A sum is read to its end, whatever follows it. -/
theorem sum?_sum_append (hs : IsSum t s) (h : ∀ d ∈ r.head?, d.isAlpha = false) :
    sum? true 0 (s ++ r) = sum? false t r := by
  induction hs generalizing r with
  | one hc => exact sum?_component_append hc h
  | @next t v s j c hs hj hc ih =>
      have hhead := hc.head_not_alpha r
      rw [List.append_assoc, List.append_assoc, ih (hj.head_not_alpha hhead),
        sum?_joint_append hj hhead, sum?_component_append hc h]

/-- Behind a component stands a joint, and behind that the text ends or there is one more
component. -/
theorem joint_of_sum? (h : sum? false total s = some t)
    (hs : ∀ d ∈ s.head?, d.isAlpha = false) :
    ∃ j u, s = j ++ u ∧ IsJoint j ∧ (u = [] ∧ t = total ∨
      ∃ v c r, u = c ++ r ∧ IsComponent v c ∧ (∀ d ∈ r.head?, d.isAlpha = false) ∧
        sum? false (total + v) r = some t) := by
  induction hn : s.length using Nat.strongRecOn generalizing s with
  | ind n ih =>
      obtain ⟨ws, u, rfl, hws, ⟨-, rfl, rfl⟩ | ⟨-, r, rfl, hr, hsum⟩ | hcomponent⟩ := sum?_cases h
      · exact ⟨ws, [], rfl, .gap hws, Or.inl ⟨rfl, rfl⟩⟩
      · have hne : ws ≠ [] := by
          intro hnil
          subst hnil
          have halpha : 'a'.isAlpha = false := hs 'a' rfl
          cases halpha
        have hlt : r.length < n := by
          rw [← hn, List.length_append]
          exact Nat.lt_add_left _ (length_lt_and_append r)
        obtain ⟨j, u, rfl, hj, hu⟩ := ih r.length hlt hsum hr rfl
        refine ⟨ws ++ ("and".toList ++ j), u, ?_, .and hws hne hj, hu⟩
        rw [List.append_assoc, List.append_assoc]
      · exact ⟨ws, u, rfl, .gap hws, Or.inr hcomponent⟩

/-- Further components go on with a sum. -/
theorem sum_of_sum? {body : List Char} (hbody : IsSum total body)
    (h : sum? false total s = some t) (hs : ∀ d ∈ s.head?, d.isAlpha = false) :
    ∃ body' tail, body ++ s = body' ++ tail ∧ IsSum t body' ∧ IsJoint tail := by
  induction hn : s.length using Nat.strongRecOn generalizing s total body with
  | ind n ih =>
      obtain ⟨j, u, rfl, hj, ⟨rfl, rfl⟩ | ⟨v, c, r, rfl, hc, hr, hsum⟩⟩ := joint_of_sum? h hs
      · exact ⟨body, j, by rw [List.append_nil], hbody, hj⟩
      · have hlt : r.length < n := by
          obtain ⟨d, c, rfl, -⟩ := hc.exists_cons
          rw [← hn, List.length_append, List.length_append, List.length_cons]
          omega
        obtain ⟨body', tail, heq, hbody', htail⟩ :=
          ih r.length hlt (.next hbody hj hc) hsum hr rfl
        refine ⟨body', tail, ?_, hbody', htail⟩
        rw [← heq]
        simp only [List.append_assoc]

/-- **What is summed up**: components with joints between them, and perhaps a joint behind them. -/
theorem sum?_eq_some_iff :
    sum? true 0 s = some t ↔ ∃ lead body tail, s = lead ++ (body ++ tail) ∧
      (∀ c ∈ lead, isGap c = true) ∧ IsSum t body ∧ IsJoint tail := by
  constructor
  · intro h
    obtain ⟨ws, u, rfl, hws, ⟨hfirst, -⟩ | ⟨hfirst, -⟩ | ⟨v, c, r, rfl, hc, hr, hsum⟩⟩ :=
      sum?_cases h
    · cases hfirst
    · cases hfirst
    · obtain ⟨body, tail, heq, hbody, htail⟩ := sum_of_sum? (.one hc) hsum hr
      exact ⟨ws, body, tail, by rw [heq], hws, hbody, htail⟩
  · intro h
    obtain ⟨lead, body, tail, rfl, hlead, hbody, htail⟩ := h
    have hend : ∀ d ∈ ([] : List Char).head?, d.isAlpha = false := fun _ hd => nomatch hd
    have hhead := htail.head_not_alpha hend
    have hjoint : sum? false t (tail ++ []) = sum? false t [] := sum?_joint_append htail hend
    rw [List.append_nil] at hhead hjoint
    rw [sum?_gap_append hlead, sum?_sum_append hbody hhead, hjoint]
    exact sum?_of_isGap fun _ hc => nomatch hc

end

end Composer.Countdown
