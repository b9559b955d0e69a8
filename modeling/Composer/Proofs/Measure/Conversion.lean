import Composer.Proofs.Measure.Amount
import Composer.Proofs.Measure.Unit
/-!
# Composer.Proofs.Measure.Conversion

**What is typed is converted.** A conversion is an amount, the name of a unit, a connecting word or an
arrow, and the name of a second unit (`WritesQuantity`, `Links`). The first name is read up to the
connecting word, so it matters that no such word stands in a name; that a connecting word may be the
name of a unit as well makes no difference. Whatever is typed in this way is converted, and before the
second unit is typed the other units of the dimension are offered (`detect_quantity`).
-/

namespace Composer.Measure

open Text

/-! ### The phrase -/

/-- The connecting word behind the first unit, and the second unit, if it has been typed. -/
def secondUnit : Reading (Option (List Char)) :=
  blanks <| keywordAmong connectors fun _ => lineAtEnd

theorem phrase_eq : phrase = amount fun number => maybeBlanks fun s =>
    (shortest inLine secondUnit s).map fun (source, target) => (number, source, target) :=
  rfl

theorem isLower_of_mem_connectors : ∀ word ∈ connectors, ∀ c ∈ word.toList, c.isLower = true := by
  simp [connectors]

/-- The letters of a connecting word. -/
theorem isKeywordLetter_of_connector {taken : List Char} {word : String} (hword : word ∈ connectors)
    (htaken : taken.map fold = word.toList) : ∀ c ∈ taken, isKeywordLetter c = true := by
  intro c hc
  refine isLower_of_mem_connectors word hword (fold c) ?_
  rw [← htaken]
  exact List.mem_map_of_mem hc

/-- No connecting word is read in front of a name whose first letters are none. -/
theorem keywordAmong_connectors_of_none {name r : List Char}
    (hwords : ∀ word ∈ connectors, (name.takeWhile isKeywordLetter).map fold ≠ word.toList)
    (hr : ∀ c ∈ r.head?, isBlank c = true) :
    keywordAmong connectors (fun _ => lineAtEnd) (name ++ r) = none := by
  have hletters : ∀ c ∈ name.takeWhile isKeywordLetter, isKeywordLetter c = true := fun _ hc =>
    List.mem_takeWhile_imp hc
  -- The letters end where the name ends, at the latest.
  have hstop : ∀ c ∈ (name.dropWhile isKeywordLetter ++ r).head?, isKeywordLetter c = false := by
    intro c hc
    have hnot := List.head?_dropWhile_not isKeywordLetter name
    cases hdrop : name.dropWhile isKeywordLetter with
    | nil =>
        rw [hdrop] at hc
        exact not_isKeywordLetter_of_isBlank (hr c hc)
    | cons d rest =>
        rw [hdrop] at hc hnot
        obtain rfl := Option.some.inj hc
        simpa using hnot
  have hsplit : name ++ r =
      name.takeWhile isKeywordLetter ++ (name.dropWhile isKeywordLetter ++ r) := by
    rw [← List.append_assoc, List.takeWhile_append_dropWhile]
  rw [hsplit, Option.eq_none_iff_forall_ne_some]
  intro b hb
  obtain ⟨⟨word, hword, hfold⟩, -⟩ :=
    (keywordAmong_eq_some_iff isLower_of_mem_connectors endsWord_lineAtEnd hletters hstop).mp hb
  exact hwords word hword hfold

/-- No connecting word is read inside a name that holds together. -/
theorem secondUnit_of_holdsTogether {u v r : List Char} (h : holdsTogether (u ++ v) = true)
    (hv : v ≠ []) (hr : ∀ c ∈ r.head?, isBlank c = true) : secondUnit (v ++ r) = none := by
  induction u with
  | cons c u ih =>
      rw [List.cons_append, holdsTogether, Bool.and_eq_true] at h
      exact ih h.2
  | nil =>
      obtain ⟨c, v, rfl⟩ := List.exists_cons_of_ne_nil hv
      rw [List.nil_append, holdsTogether, Bool.and_eq_true] at h
      by_cases hc : isBlank c = true
      · obtain ⟨hbehind, -⟩ := h
        rw [hc, Bool.not_true, Bool.false_or, Bool.and_eq_true, Option.any_eq_true] at hbehind
        obtain ⟨⟨d, hd, hblank⟩, hwords⟩ := hbehind
        obtain ⟨v, rfl⟩ := List.head?_eq_some_iff.mp hd
        have hfirst : blanks (keywordAmong connectors fun _ => lineAtEnd) (d :: v ++ r) = none :=
          blanks_of_not_isBlank (by simpa using hblank) _ _
        have hnone : keywordAmong connectors (fun _ => lineAtEnd) (d :: v ++ r) = none := by
          rw [Bool.not_eq_true', List.any_eq_false] at hwords
          exact keywordAmong_connectors_of_none
            (fun word hword hfold => hwords word hword (decide_eq_true hfold.symm)) hr
        rw [secondUnit, List.cons_append, blanks, if_pos hc, hfirst, hnone]
        rfl
      · exact blanks_of_not_isBlank (by simpa using hc) _ _

section

variable {x : Float} {u : Unit} {n ws s before taken r : List Char} {word : String}
  {target : Option (List Char)}

/-- The connecting word is read with what stands behind it. -/
theorem secondUnit_append (hbefore : ∀ c ∈ before, isBlank c = true) (hne : before ≠ [])
    (hword : word ∈ connectors) (htaken : taken.map fold = word.toList)
    (hend : lineAtEnd r = some target) : secondUnit (before ++ (taken ++ r)) = some target := by
  have hletters := isKeywordLetter_of_connector hword htaken
  have hstop : ∀ c ∈ r.head?, isKeywordLetter c = false := fun c hc =>
    not_isKeywordLetter_of_isBlank (lineAtEnd_eq_some hend c hc)
  have hread : keywordAmong connectors (fun _ => lineAtEnd) (taken ++ r) = some target :=
    (keywordAmong_eq_some_iff isLower_of_mem_connectors endsWord_lineAtEnd hletters hstop).mpr
      ⟨⟨word, hword, htaken⟩, hend⟩
  have hhead : ∀ c ∈ (taken ++ r).head?, isBlank c = false := by
    cases taken with
    | nil =>
        have hfull : ∀ word ∈ connectors, word.toList ≠ [] := by decide
        exact absurd htaken.symm (hfull word hword)
    | cons c taken =>
        intro d hd
        obtain rfl := Option.some.inj hd
        exact (of_isKeywordLetter (hletters _ List.mem_cons_self)).2.1
  rw [secondUnit, blanks_append hbefore hne hhead (Or.inr (by rw [hread]; rfl)), hread]

/-- The whole phrase is read. -/
theorem phrase_append (hn : WritesAmount x n) (hws : ∀ c ∈ ws, isBlank c = true) (hs : u.Called s)
    (hbefore : ∀ c ∈ before, isBlank c = true) (hne : before ≠ []) (hword : word ∈ connectors)
    (htaken : taken.map fold = word.toList) (hend : lineAtEnd r = some target) :
    phrase (n ++ (ws ++ (s ++ (before ++ (taken ++ r))))) = some (n, s, target) := by
  obtain ⟨⟨c, hc, hblank, hnumber⟩, -, hall, htogether⟩ := hs.spec
  obtain ⟨s', rfl⟩ := List.head?_eq_some_iff.mp hc
  have hline : ∀ d ∈ c :: s', inLine d = true := fun d hd => by simp [inLine, (hall d hd).2.1]
  have hgap : ∀ d ∈ (before ++ (taken ++ r)).head?, isBlank d = true := by
    obtain ⟨d, before, rfl⟩ := List.exists_cons_of_ne_nil hne
    intro e he
    obtain rfl := Option.some.inj he
    exact hbefore _ List.mem_cons_self
  have hname : shortest inLine secondUnit (c :: s' ++ (before ++ (taken ++ r))) =
      some (c :: s', target) :=
    shortest_append hline (List.cons_ne_nil c s')
      (fun _ _ huv _ hv => secondUnit_of_holdsTogether (huv ▸ htogether) hv hgap)
      (secondUnit_append hbefore hne hword htaken hend)
  have hfirst : ∀ d ∈ (c :: s' ++ (before ++ (taken ++ r))).head?, isBlank d = false := by
    intro d hd
    obtain rfl := Option.some.inj hd
    exact hblank
  have hstop : ∀ d ∈ (ws ++ (c :: s' ++ (before ++ (taken ++ r)))).head?, inNumber d = false := by
    intro d hd
    cases ws with
    | nil =>
        obtain rfl := Option.some.inj hd
        exact hnumber
    | cons e ws =>
        obtain rfl := Option.some.inj hd
        exact not_inNumber_of_isBlank (hws _ List.mem_cons_self)
  rw [phrase_eq]
  refine amount_append hn hstop ?_
  rw [maybeBlanks_append_of_isSome hws hfirst (by rw [hname]; rfl), hname]
  rfl

end

/-! ### What is typed -/

/-- An amount, blanks or none, and the name of its unit. The double that is nearest to the amount is
finite. -/
inductive WritesQuantity (x : Float) (u : Unit) : List Char → Prop where
  /-- The amount comes first. -/
  | of {n ws s : List Char} (amount : WritesAmount x n) (finite : x.isFinite = true)
      (blank : ∀ c ∈ ws, isBlank c = true) (name : u.Called s) : WritesQuantity x u (n ++ (ws ++ s))

/-- What stands between the units: blanks and the connection itself, and the blanks behind it. -/
inductive Links : List Char → List Char → Prop where
  /-- A connecting word in any letter case. There are blanks on both sides. -/
  | word {before taken after : List Char} {word : String} (mem : word ∈ connectors)
      (taken_eq : taken.map fold = word.toList) (before_blank : ∀ c ∈ before, isBlank c = true)
      (before_ne : before ≠ []) (after_blank : ∀ c ∈ after, isBlank c = true)
      (after_ne : after ≠ []) : Links (before ++ taken) after
  /-- An arrow. The blanks may be left out. -/
  | arrow {before arrow after : List Char} (arrow_eq : arrow = "->".toList ∨ arrow = "=>".toList)
      (before_blank : ∀ c ∈ before, isBlank c = true)
      (after_blank : ∀ c ∈ after, isBlank c = true) : Links (before ++ arrow) after

/-- A text without blanks at its ends and without an arrow. -/
structure IsSolid (s : List Char) : Prop where
  /-- It begins with no blank. -/
  head : ∃ c, s.head? = some c ∧ isBlank c = false
  /-- It ends in no blank. -/
  last : ∃ c, s.getLast? = some c ∧ isBlank c = false
  /-- There is no head of an arrow in it. -/
  arrow : '>' ∉ s

theorem arrow_not_mem_of_isBlank {ws : List Char} (h : ∀ c ∈ ws, isBlank c = true) : '>' ∉ ws := by
  intro hmem
  cases h _ hmem

theorem Unit.Called.isSolid {u : Unit} {s : List Char} (h : u.Called s) : IsSolid s := by
  obtain ⟨⟨c, hc, hblank, -⟩, hlast, hall, -⟩ := h.spec
  exact ⟨⟨c, hc, hblank⟩, hlast, fun hmem => (hall _ hmem).2.2 rfl⟩

theorem isSolid_of_connector {taken : List Char} {word : String} (hword : word ∈ connectors)
    (htaken : taken.map fold = word.toList) : IsSolid taken := by
  have hletters := isKeywordLetter_of_connector hword htaken
  have hne : taken ≠ [] := by
    intro hnil
    have hfull : ∀ word ∈ connectors, word.toList ≠ [] := by decide
    rw [hnil] at htaken
    exact hfull word hword htaken.symm
  refine ⟨⟨_, List.head?_eq_some_head hne, ?_⟩, ⟨_, List.getLast?_eq_some_getLast hne, ?_⟩, ?_⟩
  · exact (of_isKeywordLetter (hletters _ (List.head_mem hne))).2.1
  · exact (of_isKeywordLetter (hletters _ (List.getLast_mem hne))).2.1
  · intro hmem
    cases hletters _ hmem

/-- Only the ends of a text matter for its blanks. -/
theorem IsSolid.append {a mid b : List Char} (ha : IsSolid a) (hmid : '>' ∉ mid) (hb : IsSolid b) :
    IsSolid (a ++ (mid ++ b)) := by
  obtain ⟨c, hc, hblank⟩ := ha.head
  obtain ⟨d, hd, hblank'⟩ := hb.last
  refine ⟨⟨c, ?_, hblank⟩, ⟨d, ?_, hblank'⟩, ?_⟩
  · rw [List.head?_append, hc]
    rfl
  · rw [List.getLast?_append, List.getLast?_append, hd]
    rfl
  · rw [List.mem_append, List.mem_append, not_or, not_or]
    exact ⟨ha.arrow, hmid, hb.arrow⟩

theorem WritesQuantity.isSolid {x : Float} {u : Unit} {q : List Char} (h : WritesQuantity x u q) :
    IsSolid q := by
  cases h with
  | @of n ws s hn _ hws hs =>
      obtain ⟨c, r, rfl, hc, hr⟩ := hn.exists_cons
      obtain ⟨d, hd, hblank⟩ := hs.isSolid.last
      have hnumber {e : Char} (he : inNumber e = true) : isBlank e = false ∧ e ≠ '>' := by
        constructor
        · rw [Bool.eq_false_iff]
          intro hgap
          rw [not_inNumber_of_isBlank hgap] at he
          cases he
        · intro harrow
          subst harrow
          cases he
      have hfirst : isBlank c = false ∧ c ≠ '>' := by
        rcases hc with rfl | hc
        · exact ⟨rfl, by decide⟩
        · exact hnumber hc
      refine ⟨⟨c, rfl, hfirst.1⟩, ⟨d, ?_, hblank⟩, ?_⟩
      · rw [List.getLast?_append, List.getLast?_append, hd]
        rfl
      · rw [List.mem_append, List.mem_append, not_or, not_or, List.mem_cons, not_or]
        exact ⟨⟨hfirst.2.symm, fun hmem => (hnumber (hr _ hmem)).2 rfl⟩,
          arrow_not_mem_of_isBlank hws, hs.isSolid.arrow⟩

/-! ### Arrows written as a word -/

/-- A typed text as it is read: trimmed, and with a word in place of every arrow. -/
def spelled (input : List Char) : List Char :=
  trim (spellArrows (trim input))

theorem detect_eq (input : List Char) : detect input =
    (phrase (spelled input)).bind fun (number, source, target) =>
      (Decimal.typed? number).bind fun x => (Unit.typed? source).bind fun u =>
        match target with
        | none => some (.awaiting x u)
        | some target => (Unit.typed? target).bind fun v =>
            if v.dimension = u.dimension then some (.between x u v) else none :=
  rfl

theorem IsSolid.trim_eq {s : List Char} (h : IsSolid s) : trim s = s := by
  obtain ⟨c, hc, hblank⟩ := h.head
  obtain ⟨d, hd, hblank'⟩ := h.last
  exact trim_of_ends hc hblank hd hblank'

theorem IsSolid.spelled_eq {s : List Char} (h : IsSolid s) : spelled s = s := by
  rw [spelled, h.trim_eq, spellArrows_eq_self h.arrow, h.trim_eq]

/-- An arrow is read as a connecting word with a blank on each side. -/
theorem spelled_arrow {q before arrow r : List Char} (hq : IsSolid q)
    (hbefore : ∀ c ∈ before, isBlank c = true) (harrow : arrow = "->".toList ∨ arrow = "=>".toList)
    (hr : ∀ c ∈ (arrow ++ r).getLast?, isBlank c = false) (hnone : '>' ∉ r) :
    spelled (q ++ (before ++ (arrow ++ r))) = trim (q ++ (before ++ (" to ".toList ++ r))) := by
  obtain ⟨c, hc, hblank⟩ := hq.head
  have hfront : '>' ∉ q ++ before := by
    rw [List.mem_append, not_or]
    exact ⟨hq.arrow, arrow_not_mem_of_isBlank hbefore⟩
  have hfull : arrow ++ r ≠ [] := by
    rcases harrow with rfl | rfl <;> simp
  obtain ⟨d, hd⟩ : ∃ d, (arrow ++ r).getLast? = some d :=
    ⟨_, List.getLast?_eq_some_getLast hfull⟩
  have htrim : trim (q ++ (before ++ (arrow ++ r))) = q ++ (before ++ (arrow ++ r)) := by
    refine trim_of_ends (c := c) (d := d) ?_ hblank ?_ (hr d hd)
    · rw [List.head?_append, hc]
      rfl
    · rw [List.getLast?_append, List.getLast?_append, hd]
      rfl
  rw [spelled, htrim, ← List.append_assoc, spellArrows_append hfront harrow,
    spellArrows_eq_self hnone, List.append_assoc]

section

variable {q before arrow after s : List Char}

theorem isSolid_to : IsSolid "to".toList := by
  have hmem : "to" ∈ connectors := List.mem_cons_self
  exact isSolid_of_connector hmem (by decide)

theorem isBlank_concat_space (h : ∀ c ∈ before, isBlank c = true) :
    ∀ c ∈ before ++ [' '], isBlank c = true := fun c hc =>
  (List.mem_append.mp hc).elim (h c) (isBlank_of_mem_space c)

/-- An arrow before the second unit. -/
theorem spelled_arrow_append (hq : IsSolid q) (hbefore : ∀ c ∈ before, isBlank c = true)
    (harrow : arrow = "->".toList ∨ arrow = "=>".toList) (hafter : ∀ c ∈ after, isBlank c = true)
    (hs : IsSolid s) : spelled (q ++ (before ++ (arrow ++ (after ++ s)))) =
      q ++ (before ++ [' '] ++ ("to".toList ++ (' ' :: after ++ s))) := by
  have hend : ∀ c ∈ (arrow ++ (after ++ s)).getLast?, isBlank c = false := by
    obtain ⟨d, hd, hblank⟩ := hs.last
    rw [List.getLast?_append, List.getLast?_append, hd]
    intro c hc
    obtain rfl := Option.some.inj hc
    exact hblank
  have hnone : '>' ∉ after ++ s := by
    rw [List.mem_append, not_or]
    exact ⟨arrow_not_mem_of_isBlank hafter, hs.arrow⟩
  have hgap : ∀ c ∈ ' ' :: after, isBlank c = true := List.forall_mem_cons.mpr ⟨rfl, hafter⟩
  have hwhole :=
    ((hq.append (arrow_not_mem_of_isBlank (isBlank_concat_space hbefore)) isSolid_to).append
      (arrow_not_mem_of_isBlank hgap) hs).trim_eq
  have htext : q ++ (before ++ (" to ".toList ++ (after ++ s))) =
      q ++ (before ++ [' '] ++ "to".toList) ++ (' ' :: after ++ s) := by
    simp
  rw [spelled_arrow hq hbefore harrow hend hnone, htext, hwhole]
  simp only [List.append_assoc]

/-- An arrow at the end. -/
theorem spelled_arrow_end (hq : IsSolid q) (hbefore : ∀ c ∈ before, isBlank c = true)
    (harrow : arrow = "->".toList ∨ arrow = "=>".toList) :
    spelled (q ++ (before ++ arrow)) = q ++ (before ++ [' '] ++ "to".toList) := by
  have hend : ∀ c ∈ (arrow ++ []).getLast?, isBlank c = false := by
    rcases harrow with rfl | rfl <;> simp [isBlank]
  have hwhole :=
    (hq.append (arrow_not_mem_of_isBlank (isBlank_concat_space hbefore)) isSolid_to).trim_eq
  have htext : q ++ (before ++ (" to ".toList ++ [])) =
      q ++ (before ++ [' '] ++ "to".toList) ++ [' '] := by
    simp
  have hread := spelled_arrow hq hbefore harrow hend (List.not_mem_nil)
  rw [htext, trim_append_blanks isBlank_of_mem_space, hwhole, List.append_nil] at hread
  exact hread

end

/-- Whatever links the units is read as a connecting word among blanks. -/
theorem Links.spelled {link after : List Char} (h : Links link after) :
    ∃ before taken gap word, (∀ c ∈ before, isBlank c = true) ∧ before ≠ [] ∧ word ∈ connectors ∧
      taken.map fold = word.toList ∧ (∀ c ∈ gap, isBlank c = true) ∧ gap ≠ [] ∧
      ∀ q s, IsSolid q → IsSolid s →
        spelled (q ++ (link ++ (after ++ s))) = q ++ (before ++ (taken ++ (gap ++ s))) ∧
        spelled (q ++ link) = q ++ (before ++ taken) := by
  cases h with
  | @word before taken after word hword htaken hbefore hne hafter hne' =>
      have hsolid := isSolid_of_connector hword htaken
      have hnone := arrow_not_mem_of_isBlank hbefore
      refine ⟨before, taken, after, word, hbefore, hne, hword, htaken, hafter, hne',
        fun q s hq hs => ⟨?_, (hq.append hnone hsolid).spelled_eq⟩⟩
      have hwhole := ((hq.append hnone hsolid).append (arrow_not_mem_of_isBlank hafter) hs).spelled_eq
      simpa only [List.append_assoc] using hwhole
  | @arrow before arrow after harrow hbefore hafter =>
      refine ⟨before ++ [' '], "to".toList, ' ' :: after, "to", isBlank_concat_space hbefore,
        by simp, by decide, by decide, List.forall_mem_cons.mpr ⟨rfl, hafter⟩, by simp,
        fun q s hq hs => ⟨?_, spelled_arrow_end hq hbefore harrow⟩⟩
      rw [List.append_assoc]
      exact spelled_arrow_append hq hbefore harrow hafter hs

/-! ### Conversions -/

/-- The units of a dimension are told apart by their symbols. -/
theorem others_eq {u : Unit} (hu : u ∈ units) : u.others =
    (units.filter fun w => w.dimension = u.dimension ∧ w ≠ u).map (·.symbol) := by
  rw [Unit.others]
  congr 1
  refine List.filter_congr fun w hw => ?_
  have hsymbol : w.symbol = u.symbol ↔ w = u := by
    constructor
    · intro heq
      have hkey : u.symbol.toList.map Char.toLower ∈ w.keys := by
        rw [← heq]
        exact List.mem_cons_self
      have hfound := find?_units hu List.mem_cons_self
      rw [find?_units hw hkey] at hfound
      exact Option.some.inj hfound
    · intro heq
      rw [heq]
  simp [hsymbol]

/-- **What is typed is converted.** A quantity, a connecting word or an arrow, and the name of a second
unit are the conversion of the amount from the one unit to the other, if both measure the same, and
nothing otherwise. Before the second unit is typed the other units of the dimension are offered, in
the order of the table. -/
theorem detect_quantity {x : Float} {u v : Unit} {q link after s : List Char}
    (hq : WritesQuantity x u q) (hlink : Links link after) (hs : v.Called s) :
    detect (q ++ (link ++ (after ++ s))) =
        (if v.dimension = u.dimension then some (.between x u v) else none) ∧
      detect (q ++ link) = some (.awaiting x u) ∧
      (Conversion.awaiting x u).suggestions =
        (units.filter fun w => w.dimension = u.dimension ∧ w ≠ u).map (·.symbol) := by
  have hsolid := hq.isSolid
  obtain ⟨before, taken, gap, word, hbefore, hne, hword, htaken, hgap, hne', hspelled⟩ :=
    hlink.spelled
  obtain ⟨hwhole, hpart⟩ := hspelled q s hsolid hs.isSolid
  cases hq with
  | @of n ws name hn hfinite hws hname =>
      have hvalue := hn.typed? hfinite
      have htarget : lineAtEnd (gap ++ s) = some (some s) := by
        obtain ⟨⟨c, hc, hblank, -⟩, -, hall, -⟩ := hs.spec
        exact lineAtEnd_append hgap hne' hc hblank fun hmem => (hall _ hmem).2.1 rfl
      have hread := phrase_append hn hws hname hbefore hne hword htaken htarget
      have hreadPart := phrase_append hn hws hname hbefore hne hword htaken (r := []) rfl
      rw [List.append_nil] at hreadPart
      refine ⟨?_, ?_, others_eq hname.1⟩
      · rw [detect_eq, hwhole, List.append_assoc, List.append_assoc, hread]
        simp only [Option.bind_some, hvalue, hname.typed?, hs.typed?]
      · rw [detect_eq, hpart, List.append_assoc, List.append_assoc, hreadPart]
        simp only [Option.bind_some, hvalue, hname.typed?]

/-- A word that is a unit and a connection at once, and a name of two words before an arrow. -/
theorem detect_quantity_inches :
    (∃ r, detect "12 in in cm".toList = some r ∧ r.value = 12 ∧ r.source = "in" ∧
      r.target = some "cm" ∧ r.isPartial = false) ∧
    (∃ r, detect "12 in in".toList = some r ∧ r.isPartial = true ∧
      r.suggestions = ["mm", "cm", "m", "km", "ft", "yd", "mi", "nmi"]) ∧
    detect "-1,000.5Fl Oz->KG".toList = none := by
  have hinch : (units.get ⟨4, by decide⟩).Called "in".toList :=
    ⟨List.get_mem _ _, "in", by decide, rfl⟩
  have hcentimetre : (units.get ⟨1, by decide⟩).Called "cm".toList :=
    ⟨List.get_mem _ _, "cm", by decide, rfl⟩
  have hounce : (units.get ⟨25, by decide⟩).Called "Fl Oz".toList :=
    ⟨List.get_mem _ _, "fl oz", by decide, by decide⟩
  have hkilogram : (units.get ⟨11, by decide⟩).Called "KG".toList :=
    ⟨List.get_mem _ _, "kg", by decide, by decide⟩
  have hbare : IsGrouped "12".toList := by simp [IsGrouped, inAmount]
  have htwelve : WritesQuantity (Decimal.nearest 12 (-(0 : Nat))) (units.get ⟨4, by decide⟩)
      "12 in".toList :=
    .of (.plain (.whole hbare (by decide))) (by decide +kernel) isBlank_of_mem_space hinch
  have hgrouped : IsGrouped "1,000".toList := by simp [IsGrouped, inAmount]
  have hdigits : ∀ c ∈ "5".toList, c.isDigit = true := by simp
  have hfraction : WritesMagnitude 10005 1 ("1,000".toList ++ '.' :: "5".toList) :=
    .point hgrouped hdigits (by decide)
  have hthousand : WritesQuantity (-Decimal.nearest 10005 (-(1 : Nat)))
      (units.get ⟨25, by decide⟩) "-1,000.5Fl Oz".toList :=
    .of (.minus hfraction) (by decide +kernel) isBlank_of_mem_nil hounce
  have hin : "in" ∈ connectors := by decide
  have hword : Links ([' '] ++ "in".toList) [' '] :=
    .word hin (by decide) isBlank_of_mem_space (by decide) isBlank_of_mem_space (by decide)
  have harrow : Links "->".toList [] :=
    .arrow (Or.inl rfl) isBlank_of_mem_nil isBlank_of_mem_nil
  obtain ⟨hwhole, hpart, hsuggestions⟩ := detect_quantity htwelve hword hcentimetre
  obtain ⟨hnone, -, -⟩ := detect_quantity hthousand harrow hkilogram
  have hvalue : Decimal.nearest 12 (-(0 : Nat)) = 12 := by decide +kernel
  have hoffered : (units.filter fun w => w.dimension = (units.get ⟨4, by decide⟩).dimension ∧
      w ≠ units.get ⟨4, by decide⟩).map (·.symbol) =
        ["mm", "cm", "m", "km", "ft", "yd", "mi", "nmi"] := by decide +kernel
  exact ⟨⟨_, hwhole, hvalue, rfl, rfl, rfl⟩, ⟨_, hpart, rfl, hsuggestions.trans hoffered⟩, hnone⟩

end Composer.Measure
