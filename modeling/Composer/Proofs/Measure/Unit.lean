import Composer.Proofs.Detection.Amounts
import Composer.Proofs.Text.Phrase
/-!
# Composer.Proofs.Measure.Unit

**The names of units.** No two units share a name, whatever the letter case, so a typed name means
the unit that has it (`Unit.Called.typed?`). The table says what else the readings of a phrase need
to know of a name: how it begins and ends, and that no connecting word stands in it.
-/

namespace Composer.Measure

open Text

/-! ### Names in lower case -/

namespace Unit

/-- The symbol and the other names of a unit. -/
def names (u : Unit) : List String :=
  u.symbol :: u.aliases

/-- The names in lower case. -/
def keys (u : Unit) : List (List Char) :=
  u.names.map fun name => name.toList.map Char.toLower

/-- What is typed is a name of the unit in any letter case of ASCII. -/
def Called (u : Unit) (s : List Char) : Prop :=
  u ∈ units ∧ ∃ name ∈ u.names, s.map Char.toLower = name.toList.map Char.toLower

theorem Called.mem_keys {u : Unit} {s : List Char} (h : u.Called s) :
    s.map Char.toLower ∈ u.keys := by
  obtain ⟨-, name, hname, heq⟩ := h
  rw [heq]
  exact List.mem_map_of_mem hname

end Unit

/-- Behind a blank inside a name there is a word, and it is no connecting word. -/
def holdsTogether : List Char → Bool
  | [] => true
  | c :: s =>
    (!isBlank c || s.head?.any (!isBlank ·) &&
      !connectors.any (·.toList = (s.takeWhile isKeywordLetter).map fold)) && holdsTogether s

/-- A text in lower case is read as the name of a unit where one is expected. -/
def canBeName (key : List Char) : Bool :=
  key.head?.any (fun c => !isBlank c && !inNumber c) && key.getLast?.any (!isBlank ·) &&
    key.all (fun c => isPlain c && c ≠ '\n' && c ≠ '>') && Unit.dropDegrees key = key &&
    holdsTogether key

/-- What the table says of the names one by one. -/
theorem units_spec : units.all (fun u => u.keys.all canBeName && u.symbol.toList.all isPlain &&
    u.aliases.all (·.toList.all (!·.isUpper))) = true := by
  decide +kernel

/-- A number for a text; texts with different numbers are different. -/
def codeOf (s : List Char) : Nat :=
  s.foldr (fun c n => 0x110000 * n + c.toNat + 1) 0

/-- No two units share a name. -/
theorem units_apart :
    (units.map fun u => u.keys.map codeOf).Pairwise fun codes codes' =>
      ∀ n ∈ codes, n ∉ codes' := by
  decide +kernel

section

variable {u : Unit} {s : List Char}

theorem of_mem_keys (hu : u ∈ units) {key : List Char} (hkey : key ∈ u.keys) :
    (∃ c, key.head? = some c ∧ isBlank c = false ∧ inNumber c = false) ∧
      (∃ d, key.getLast? = some d ∧ isBlank d = false) ∧
      (∀ c ∈ key, isPlain c = true ∧ c ≠ '\n' ∧ c ≠ '>') ∧ Unit.dropDegrees key = key ∧
      holdsTogether key = true := by
  have hspec := List.all_eq_true.mp units_spec u hu
  rw [Bool.and_eq_true, Bool.and_eq_true, List.all_eq_true] at hspec
  have hname := hspec.1.1 key hkey
  simp only [canBeName, Bool.and_eq_true, Option.any_eq_true, List.all_eq_true,
    decide_eq_true_eq, Bool.not_eq_true'] at hname
  obtain ⟨⟨⟨⟨⟨c, hc, hfirst⟩, d, hd, hlast⟩, hall⟩, hdegrees⟩, htogether⟩ := hname
  exact ⟨⟨c, hc, hfirst⟩, ⟨d, hd, hlast⟩, fun c hc => ⟨(hall c hc).1.1, (hall c hc).1.2,
    (hall c hc).2⟩, hdegrees, htogether⟩

theorem answersTo_iff (hu : u ∈ units) {key : List Char} :
    u.answersTo key = true ↔ key ∈ u.keys := by
  have hspec := List.all_eq_true.mp units_spec u hu
  rw [Bool.and_eq_true, Bool.and_eq_true, List.all_eq_true, List.all_eq_true, List.all_eq_true]
    at hspec
  have hsymbol : lower u.symbol.toList = u.symbol.toList.map Char.toLower :=
    lower_eq_map_toLower hspec.1.2
  have halias : ∀ name ∈ u.aliases, name.toList.map Char.toLower = name.toList := by
    intro name hname
    have hlower := List.all_eq_true.mp (hspec.2 name hname)
    refine (List.map_congr_left fun c hc => toLower_eq_self ?_).trans (List.map_id _)
    simpa using hlower c hc
  rw [Unit.answersTo, hsymbol, Unit.keys, Unit.names, List.map_cons, List.mem_cons, List.mem_map,
    Bool.or_eq_true, decide_eq_true_eq, List.any_eq_true]
  constructor
  · intro h
    rcases h with h | ⟨name, hname, h⟩
    · exact Or.inl h.symm
    · exact Or.inr ⟨name, hname, (halias name hname).trans (of_decide_eq_true h)⟩
  · intro h
    rcases h with h | ⟨name, hname, h⟩
    · exact Or.inl h.symm
    · exact Or.inr ⟨name, hname, decide_eq_true ((halias name hname).symm.trans h)⟩

/-- A name belongs to the first unit that has it, since there is no other. -/
theorem find?_units (hu : u ∈ units) {key : List Char} (hkey : key ∈ u.keys) :
    units.find? (Unit.answersTo key) = some u := by
  obtain ⟨before, after, hsplit⟩ := List.append_of_mem hu
  rw [List.find?_eq_some_iff_append]
  refine ⟨(answersTo_iff hu).mpr hkey, before, after, hsplit, fun v hv => ?_⟩
  have hmem : v ∈ units := by
    rw [hsplit]
    exact List.mem_append_left _ hv
  have hapart := units_apart
  rw [hsplit, List.map_append, List.pairwise_append] at hapart
  have hdisjoint := hapart.2.2 _ (List.mem_map_of_mem hv) _ (List.mem_map_of_mem List.mem_cons_self)
  rw [Bool.not_eq_true', Bool.eq_false_iff]
  intro hanswers
  exact hdisjoint _ (List.mem_map_of_mem ((answersTo_iff hmem).mp hanswers))
    (List.mem_map_of_mem hkey)

/-! ### Names as they are typed -/

theorem isKeywordLetter_toLower (c : Char) : isKeywordLetter c.toLower = isKeywordLetter c :=
  toLower_induction (P := fun c d => isKeywordLetter d = isKeywordLetter c) (fun _ => rfl)
    (by decide) c

theorem fold_toLower (c : Char) : fold c.toLower = fold c :=
  toLower_induction (P := fun c d => fold d = fold c) (fun _ => rfl) (by decide) c

theorem inNumber_toLower (c : Char) : inNumber c.toLower = inNumber c :=
  toLower_induction (P := fun c d => inNumber d = inNumber c) (fun _ => rfl) (by decide) c

theorem holdsTogether_map_toLower (s : List Char) :
    holdsTogether (s.map Char.toLower) = holdsTogether s := by
  induction s with
  | nil => rfl
  | cons c s ih =>
      have hhead : (s.map Char.toLower).head?.any (!isBlank ·) = s.head?.any (!isBlank ·) := by
        cases s <;> simp [isBlank_toLower]
      have hletters : ((s.map Char.toLower).takeWhile isKeywordLetter).map fold =
          (s.takeWhile isKeywordLetter).map fold := by
        rw [List.takeWhile_map, List.map_map, Function.comp_def, Function.comp_def]
        simp only [fold_toLower, isKeywordLetter_toLower]
      rw [List.map_cons, holdsTogether, holdsTogether, isBlank_toLower, hhead, hletters, ih]

/-- How a typed name begins and ends, and what does not stand in it. -/
theorem Unit.Called.spec (h : u.Called s) :
    (∃ c, s.head? = some c ∧ isBlank c = false ∧ inNumber c = false) ∧
      (∃ d, s.getLast? = some d ∧ isBlank d = false) ∧
      (∀ c ∈ s, isPlain c = true ∧ c ≠ '\n' ∧ c ≠ '>') ∧ holdsTogether s = true := by
  obtain ⟨⟨c, hc, hfirst⟩, ⟨d, hd, hlast⟩, hall, -, htogether⟩ := of_mem_keys h.1 h.mem_keys
  rw [List.head?_map, Option.map_eq_some_iff] at hc
  rw [List.getLast?_map, Option.map_eq_some_iff] at hd
  rw [holdsTogether_map_toLower] at htogether
  obtain ⟨c, hc, rfl⟩ := hc
  obtain ⟨d, hd, rfl⟩ := hd
  rw [isBlank_toLower, inNumber_toLower] at hfirst
  rw [isBlank_toLower] at hlast
  refine ⟨⟨c, hc, hfirst⟩, ⟨d, hd, hlast⟩, fun e he => ?_, htogether⟩
  obtain ⟨hplain, hline, harrow⟩ := hall _ (List.mem_map_of_mem he)
  refine ⟨isPlain_of_toLower hplain, fun heq => hline ?_, fun heq => harrow ?_⟩
  · rw [heq]
    rfl
  · rw [heq]
    rfl

/-- **A typed name means the unit that has it.** -/
theorem Unit.Called.typed? (h : u.Called s) : Unit.typed? s = some u := by
  obtain ⟨⟨c, hc, hfirst, -⟩, ⟨d, hd, hlast⟩, hall, -⟩ := h.spec
  obtain ⟨⟨c', hc', hfirst', -⟩, ⟨d', hd', hlast'⟩, -, hdegrees, -⟩ :=
    of_mem_keys h.1 h.mem_keys
  have hkey : lower s = s.map Char.toLower := lower_eq_map_toLower fun e he => (hall e he).1
  rw [Unit.typed?, trim_of_ends hc hfirst hd hlast, hkey, hdegrees,
    trim_of_ends hc' hfirst' hd' hlast']
  exact find?_units h.1 h.mem_keys

end

end Composer.Measure
