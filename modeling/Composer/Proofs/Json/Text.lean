import Composer.Json.Printer
import Composer.Json.Reader
import Composer.Proofs.Decimal.Digits
import Composer.Proofs.Json.Decode
import Mathlib.Data.List.DropRight
import Mathlib.Data.List.TakeWhile
/-!
# Composer.Proofs.Json.Text

**A text is read back as the value that it writes.** What the reader takes for a value, and leaves
of the rest, does not depend on where the text stands (`Reads`). There is one rule for each kind of
value, with spaces wherever a layout may put them, so that both layouts follow the same rules. Only
values are read back that their text tells in full (`Exact`): doubles are read in two roundings.
-/

namespace Composer.Json

/-! ### Numerals -/

/-- What can follow a numeral: nothing that would go on with it. -/
def Ends (rest : List Char) : Prop :=
  ∀ c ∈ rest.head?, c.isDigit = false ∧ c ≠ '.' ∧ c ≠ 'e' ∧ c ≠ 'E'

theorem ends_nil : Ends [] :=
  fun _ h => by cases h

/-- Digits are gathered as long as the number fits 64 bits. -/
theorem foldl_whole {n : Nat} {ds : List Char} (h : Decimal.foldDigits n ds < 2 ^ 64) :
    ds.foldl Gathered.whole ⟨n, 0, false⟩ = ⟨Decimal.foldDigits n ds, 0, false⟩ := by
  induction ds generalizing n with
  | nil => rfl
  | cons d ds ih =>
      have hle := Decimal.le_foldDigits (10 * n + (d.toNat - '0'.toNat)) ds
      have hfits : Gathered.fits ⟨n, 0, false⟩ (d.toNat - '0'.toNat) = true :=
        decide_eq_true (Nat.lt_of_le_of_lt hle h)
      rw [List.foldl_cons, Gathered.whole, hfits]
      exact ih h

theorem gathered_digitsOf {n : Nat} (h : n < 2 ^ 64) :
    (Decimal.digitsOf n).foldl Gathered.whole {} = ⟨n, 0, false⟩ := by
  rw [foldl_whole (by rwa [Decimal.foldDigits_digitsOf]), Decimal.foldDigits_digitsOf]

/-- A numeral ends before what does not go on with it. -/
theorem readFraction_of_ends {rest : List Char} (h : Ends rest) (negative : Bool) (g : Gathered) :
    readFraction negative g rest = some (wholeNumber negative g, rest) := by
  cases rest with
  | nil => rfl
  | cons c rest =>
      obtain ⟨-, hpoint, he, hE⟩ := h c rfl
      unfold readFraction
      split
      · rename_i heq
        exact absurd (List.cons.inj heq).1 hpoint
      · simp [readPower, he, hE]

/-- The digits of a number end before what does not go on with them, and there is no nought in front
of others. -/
theorem readNumber_digitsOf {n : Nat} (h : n < 2 ^ 64) {s rest : List Char} {negative : Bool}
    (hminus : takeMinus s = (negative, Decimal.digitsOf n ++ rest)) (hrest : Ends rest) :
    readNumber s = some (wholeNumber negative ⟨n, 0, false⟩, rest) := by
  have hdigits : ∀ c ∈ Decimal.digitsOf n, c.isDigit = true :=
    fun _ => Decimal.isDigit_of_mem_digitsOf
  have hend : rest.takeWhile Char.isDigit = [] ∧ rest.dropWhile Char.isDigit = rest := by
    cases rest with
    | nil => exact ⟨rfl, rfl⟩
    | cons c rest => simp [(hrest c rfl).1]
  have hzero : (1 < (Decimal.digitsOf n).length && (Decimal.digitsOf n).head? = some '0') =
      false := by
    rcases Nat.eq_zero_or_pos n with rfl | hpos
    · rfl
    · simp [Decimal.head?_digitsOf_ne hpos]
  have hempty : (Decimal.digitsOf n).isEmpty = false := by
    simpa using Decimal.digitsOf_ne_nil n
  simp only [readNumber, hminus, List.takeWhile_append_of_pos hdigits,
    List.dropWhile_append_of_pos hdigits, hend, List.append_nil, hempty, hzero, Bool.or_self,
    Bool.false_eq_true, if_false, gathered_digitsOf h, readFraction_of_ends hrest]

theorem wholeNumber_negative {n : Nat} (hpos : 0 < n) (h : n ≤ 2 ^ 63) :
    wholeNumber true ⟨n, 0, false⟩ = integer (-n) := by
  have hfits : ¬ (n = 0 ∨ 2 ^ 63 < n) := by omega
  simpa [wholeNumber] using hfits

/-- A whole number of 64 bits is read back. -/
theorem readNumber_writeInt {i : Int} (hlow : -2 ^ 63 ≤ i) (hhigh : i < 2 ^ 64)
    {rest : List Char} (hrest : Ends rest) :
    readNumber (writeInt i ++ rest) = some (integer i, rest) := by
  unfold writeInt
  split
  · rename_i hneg
    have habs : -(i.natAbs : Int) = i := by omega
    have hwhole := wholeNumber_negative (n := i.natAbs) (by omega) (by omega)
    rw [habs] at hwhole
    rw [← hwhole]
    exact readNumber_digitsOf (by omega) rfl hrest
  · rename_i hneg
    have habs : (i.natAbs : Int) = i := by omega
    have hwhole : wholeNumber false ⟨i.natAbs, 0, false⟩ = integer i := by
      rw [← habs]
      rfl
    obtain ⟨d, ds, hds⟩ := List.exists_cons_of_ne_nil (Decimal.digitsOf_ne_nil i.natAbs)
    have hdigit : d.isDigit = true := Decimal.isDigit_of_mem_digitsOf (hds ▸ List.mem_cons_self)
    have hminus : takeMinus (Decimal.digitsOf i.natAbs ++ rest) =
        (false, Decimal.digitsOf i.natAbs ++ rest) := by
      rw [hds, List.cons_append]
      unfold takeMinus
      split
      · rename_i heq
        rw [(List.cons.inj heq).1] at hdigit
        cases hdigit
      · rfl
    rw [← hwhole]
    exact readNumber_digitsOf (by omega) hminus hrest

/-! ### Strings -/

theorem hexValue?_hexDigit : ∀ n < 16, hexValue? (hexDigit n) = some n := by decide

/-- The ways in which a character is written: with one letter, with its code, or as it is. -/
theorem escape_cases (c : Char) :
    (∃ e, escape c = ['\\', e] ∧ e ≠ 'u' ∧ shortEscape? e = some c) ∨
    (escape c = ['\\', 'u', '0', '0', hexDigit (c.toNat / 16), hexDigit (c.toNat % 16)] ∧
      c.toNat < 0x20) ∨
    escape c = [c] ∧ c ≠ '"' ∧ c ≠ '\\' ∧ ¬ c.toNat < 0x20 := by
  by_cases hshort : c ∈ ['"', '\\', '\x08', '\x0c', '\n', '\r', '\t']
  · refine Or.inl ?_
    simp only [List.mem_cons, List.not_mem_nil, or_false] at hshort
    rcases hshort with rfl | rfl | rfl | rfl | rfl | rfl | rfl <;>
      exact ⟨_, rfl, by decide, rfl⟩
  · simp only [List.mem_cons, List.not_mem_nil, or_false, not_or] at hshort
    obtain ⟨hquote, hback, h8, hc, hn, hr, ht⟩ := hshort
    simp only [escape, hquote, hback, h8, hc, hn, hr, ht, if_false]
    by_cases hcontrol : c.toNat < 0x20
    · exact Or.inr (Or.inl ⟨if_pos hcontrol, hcontrol⟩)
    · exact Or.inr (Or.inr ⟨if_neg hcontrol, hquote, hback, hcontrol⟩)

/-- A code below 32 is the one of a control character. -/
theorem pieceOfHex?_control {c : Char} (h : c.toNat < 0x20) :
    pieceOfHex? '0' '0' (hexDigit (c.toNat / 16)) (hexDigit (c.toNat % 16)) = some (.char c) := by
  have hhigh : hexValue? (hexDigit (c.toNat / 16)) = some (c.toNat / 16) :=
    hexValue?_hexDigit _ (by omega)
  have hlow : hexValue? (hexDigit (c.toNat % 16)) = some (c.toNat % 16) :=
    hexValue?_hexDigit _ (by omega)
  have hzero : hexValue? '0' = some 0 := rfl
  have hcode : 16 * (c.toNat / 16) + c.toNat % 16 = c.toNat := by omega
  have hhalf : ¬ (0xD800 ≤ c.toNat ∧ c.toNat < 0xE000) := by omega
  simp [pieceOfHex?, hhigh, hlow, hzero, hcode, hhalf]

/-- A character in a string is read back. -/
theorem readPieces_escape (c : Char) (s : List Char) :
    readPieces (escape c ++ s) = (readPieces s).map fun (ps, rest) => (.char c :: ps, rest) := by
  rcases escape_cases c with ⟨e, hescape, hu, hshort⟩ | ⟨hescape, hcontrol⟩ |
    ⟨hescape, hquote, hback, hplain⟩
  · rw [hescape]
    have hread : readPieces ('\\' :: e :: s) = (shortEscape? e).bind fun c =>
        (readPieces s).bind fun (ps, rest) => some (.char c :: ps, rest) := by
      rw [readPieces]
      · rfl
      · exact fun _ _ _ _ _ he _ => hu he
    rw [List.cons_append, List.cons_append, List.nil_append, hread, hshort]
    cases readPieces s <;> rfl
  · rw [hescape]
    cases h : readPieces s <;> simp [readPieces, pieceOfHex?_control hcontrol, h]
  · rw [hescape]
    cases h : readPieces s <;> simp [readPieces, hback, hplain, h]

/-- A string is read back up to its closing quote. -/
theorem readPieces_flatMap_escape (cs rest : List Char) :
    readPieces (cs.flatMap escape ++ '"' :: rest) = some (cs.map .char, rest) := by
  induction cs with
  | nil => simp [readPieces]
  | cons c cs ih => rw [List.flatMap_cons, List.append_assoc, readPieces_escape, ih]; rfl

theorem joinPieces_map_char (cs : List Char) : joinPieces (cs.map .char) = some cs := by
  induction cs with
  | nil => rfl
  | cons c cs ih => simp [joinPieces, ih]

/-! ### Spaces -/

/-- True of the characters that may stand between the parts of a text. -/
def IsSpace (c : Char) : Prop :=
  c = ' ' ∨ c = '\n' ∨ c = '\t' ∨ c = '\r'

variable {w cs rest : List Char} {j : Json}

theorem skipSpace_append (hw : ∀ c ∈ w, IsSpace c) (s : List Char) :
    skipSpace (w ++ s) = skipSpace s :=
  List.dropWhile_append_of_pos fun c hc => by simpa [IsSpace, or_assoc] using hw c hc

theorem skipSpace_cons {c : Char} (h : ¬ IsSpace c) (s : List Char) :
    skipSpace (c :: s) = c :: s := by
  refine List.dropWhile_cons_of_neg ?_
  simpa [IsSpace, or_assoc] using h

theorem skipSpace_append_cons (hw : ∀ c ∈ w, IsSpace c) {c : Char} (h : ¬ IsSpace c)
    (s : List Char) : skipSpace (w ++ c :: s) = c :: s := by
  rw [skipSpace_append hw, skipSpace_cons h]

theorem skipSpace_skipSpace (s : List Char) : skipSpace (skipSpace s) = skipSpace s :=
  List.dropWhile_idempotent _ s

/-- Spaces in front of a value make no difference. -/
theorem readValue_skipSpace (fuel : Nat) (s : List Char) :
    readValue fuel (skipSpace s) = readValue fuel s := by
  cases fuel with
  | zero => rfl
  | succ fuel => rw [readValue, readValue, skipSpace_skipSpace]

theorem readValue_append (hw : ∀ c ∈ w, IsSpace c) (fuel : Nat) (s : List Char) :
    readValue fuel (w ++ s) = readValue fuel s := by
  rw [← readValue_skipSpace, skipSpace_append hw, readValue_skipSpace]

/-- What closes or goes on with a sequence also ends a numeral, with spaces in front or without. -/
theorem ends_append (hw : ∀ c ∈ w, IsSpace c) {c : Char} (hc : c ∈ [',', ']', '}'])
    (s : List Char) : Ends (w ++ c :: s) := by
  intro d hd
  have hmem : IsSpace d ∨ d ∈ [',', ']', '}'] := by
    cases w with
    | nil =>
        cases hd
        exact Or.inr hc
    | cons b w =>
        cases hd
        exact Or.inl (hw d List.mem_cons_self)
  simp only [IsSpace, List.mem_cons, List.not_mem_nil, or_false] at hmem
  rcases hmem with (rfl | rfl | rfl | rfl) | (rfl | rfl | rfl) <;> decide

/-! ### Values -/

/-- The reader takes a text for a value, wherever the text stands. -/
structure Reads (cs : List Char) (j : Json) : Prop where
  head : ∃ c r, cs = c :: r ∧ ¬ IsSpace c ∧ c ≠ ']'
  read : ∀ {fuel rest}, cs.length ≤ fuel → Ends rest → readValue fuel (cs ++ rest) = some (j, rest)

/-- The reader takes a text for the items of a sequence and its end. -/
structure ReadsItems (cs : List Char) (items : List Json) : Prop where
  head : ∀ rest, ∃ c r, skipSpace (cs ++ rest) = c :: r ∧ c ≠ ']'
  read : ∀ {fuel rest}, cs.length ≤ fuel → readItems fuel (cs ++ rest) = some (items, rest)

/-- The reader takes a text for the fields of an object and its end. -/
structure ReadsFields (cs : List Char) (fields : List (String × Json)) : Prop where
  head : ∀ rest, ∃ r, skipSpace (cs ++ rest) = '"' :: r
  read : ∀ {fuel rest}, cs.length ≤ fuel →
    readFields fuel (cs ++ rest) = some (fields.map fun f => (some f.1.toList, f.2), rest)

/-- A text has a character, so there is fuel for it. -/
theorem Reads.of_succ {c : Char} (hspace : ¬ IsSpace c) (hclose : c ≠ ']')
    (h : ∀ {fuel rest}, cs.length ≤ fuel → Ends rest →
      readValue (fuel + 1) (c :: (cs ++ rest)) = some (j, rest)) : Reads (c :: cs) j := by
  refine ⟨⟨c, cs, rfl, hspace, hclose⟩, fun {fuel rest} hfuel hrest => ?_⟩
  cases fuel with
  | zero => cases hfuel
  | succ fuel => exact h (Nat.le_of_succ_le_succ hfuel) hrest

theorem reads_null : Reads ['n', 'u', 'l', 'l'] null :=
  .of_succ (by simp [IsSpace]) (by decide) fun _ _ => by simp [readValue, skipSpace_cons, IsSpace]

theorem reads_true : Reads ['t', 'r', 'u', 'e'] (bool true) :=
  .of_succ (by simp [IsSpace]) (by decide) fun _ _ => by simp [readValue, skipSpace_cons, IsSpace]

theorem reads_false : Reads ['f', 'a', 'l', 's', 'e'] (bool false) :=
  .of_succ (by simp [IsSpace]) (by decide) fun _ _ => by simp [readValue, skipSpace_cons, IsSpace]

theorem reads_quote (s : String) : Reads (quote s) (string s) :=
  .of_succ (by simp [IsSpace]) (by decide) fun _ _ => by
    simp [readValue, skipSpace_cons, IsSpace, readPieces_flatMap_escape, joinPieces_map_char]

/-- What begins like a numeral is read as one. -/
theorem readValue_of_isDigit {c : Char} (h : c = '-' ∨ c.isDigit = true) (fuel : Nat)
    (s : List Char) : readValue (fuel + 1) (c :: s) = readNumber (c :: s) := by
  have hspace : ¬ IsSpace c := by
    rintro (rfl | rfl | rfl | rfl) <;> simp at h
  rw [readValue, skipSpace_cons hspace]
  split
  all_goals
    first
    | rfl
    | rename_i heq
      rw [(List.cons.inj heq).1] at h
      simp at h

theorem reads_writeInt {i : Int} (hlow : -2 ^ 63 ≤ i) (hhigh : i < 2 ^ 64) :
    Reads (writeInt i) (integer i) := by
  obtain ⟨c, r, hwrite, hc⟩ : ∃ c r, writeInt i = c :: r ∧ (c = '-' ∨ c.isDigit = true) := by
    unfold writeInt
    split
    · exact ⟨_, _, rfl, Or.inl rfl⟩
    · obtain ⟨d, ds, hds⟩ := List.exists_cons_of_ne_nil (Decimal.digitsOf_ne_nil i.natAbs)
      exact ⟨d, ds, hds, Or.inr (Decimal.isDigit_of_mem_digitsOf (hds ▸ List.mem_cons_self))⟩
  rw [hwrite]
  refine .of_succ ?_ ?_ fun _ hrest => ?_
  · rintro (rfl | rfl | rfl | rfl) <;> simp at hc
  · rintro rfl
    simp at hc
  · rw [readValue_of_isDigit hc, ← List.cons_append, ← hwrite]
    exact readNumber_writeInt hlow hhigh hrest

theorem Reads.head_append (h : Reads cs j) (hw : ∀ c ∈ w, IsSpace c) (s : List Char) :
    ∃ c r, skipSpace (w ++ (cs ++ s)) = c :: r ∧ c ≠ ']' := by
  obtain ⟨c, r, rfl, hspace, hclose⟩ := h.head
  exact ⟨c, r ++ s, skipSpace_append_cons hw hspace (r ++ s), hclose⟩

theorem ReadsItems.one (hw : ∀ c ∈ w, IsSpace c) (h : Reads cs j) {w' : List Char}
    (hw' : ∀ c ∈ w', IsSpace c) : ReadsItems (w ++ (cs ++ (w' ++ [']']))) [j] := by
  refine ⟨fun rest => by simpa using h.head_append hw (w' ++ ']' :: rest),
    fun {fuel rest} hfuel => ?_⟩
  cases fuel with
  | zero => simp at hfuel
  | succ fuel =>
      have hlength : cs.length ≤ fuel := by
        simp only [List.length_append, List.length_singleton] at hfuel
        omega
      have hends : Ends (w' ++ ']' :: rest) := ends_append hw' (by simp) rest
      have hread := h.read hlength hends
      simp [readItems, readValue_append hw, hread, skipSpace_append_cons hw', IsSpace]

theorem ReadsItems.cons (hw : ∀ c ∈ w, IsSpace c) (h : Reads cs j) {w' : List Char}
    (hw' : ∀ c ∈ w', IsSpace c) {more : List Char} {items : List Json}
    (hmore : ReadsItems more items) :
    ReadsItems (w ++ (cs ++ (w' ++ ',' :: more))) (j :: items) := by
  refine ⟨fun rest => by simpa using h.head_append hw (w' ++ ',' :: (more ++ rest)),
    fun {fuel rest} hfuel => ?_⟩
  cases fuel with
  | zero => simp at hfuel
  | succ fuel =>
      have hlength : cs.length ≤ fuel ∧ more.length ≤ fuel := by
        simp only [List.length_append, List.length_cons] at hfuel
        omega
      have hends : Ends (w' ++ ',' :: (more ++ rest)) := ends_append hw' (by simp) (more ++ rest)
      have hread := h.read hlength.1 hends
      have hitems : readItems fuel (more ++ rest) = some (items, rest) := hmore.read hlength.2
      simp [readItems, readValue_append hw, hread, skipSpace_append_cons hw', IsSpace, hitems]

theorem readFields_skipSpace (fuel : Nat) (s : List Char) :
    readFields fuel (skipSpace s) = readFields fuel s := by
  cases fuel with
  | zero => simp [readFields]
  | succ fuel => rw [readFields, readFields, skipSpace_skipSpace]

theorem reads_array_nil : Reads ['[', ']'] (array []) :=
  .of_succ (by simp [IsSpace]) (by decide) fun _ _ => by simp [readValue, skipSpace_cons, IsSpace]

/-- Spaces in front of the items make no difference. -/
theorem readItems_skipSpace (fuel : Nat) (s : List Char) :
    readItems fuel (skipSpace s) = readItems fuel s := by
  cases fuel with
  | zero => simp [readItems]
  | succ fuel => rw [readItems, readItems, readValue_skipSpace]

theorem readValue_bracket {s r : List Char} {c : Char} (hskip : skipSpace s = c :: r)
    (hclose : c ≠ ']') (fuel : Nat) :
    readValue (fuel + 1) ('[' :: s) =
      (readItems fuel (c :: r)).map fun (items, r) => (array items, r) := by
  rw [readValue, skipSpace_cons (by simp [IsSpace])]
  simp only [hskip]
  split
  · rename_i heq
    exact absurd (List.cons.inj heq).1 hclose
  · cases readItems fuel (c :: r) <;> rfl

theorem reads_array {items : List Json} (h : ReadsItems cs items) :
    Reads ('[' :: cs) (array items) := by
  refine .of_succ (by simp [IsSpace]) (by decide) fun {fuel rest} hfuel _ => ?_
  obtain ⟨c, r, hskip, hclose⟩ := h.head rest
  rw [readValue_bracket hskip hclose, ← hskip, readItems_skipSpace, h.read hfuel, Option.map_some]

theorem skipSpace_quote (hw : ∀ c ∈ w, IsSpace c) (name : String) (s : List Char) :
    skipSpace (w ++ (quote name ++ s)) = '"' :: (name.toList.flatMap escape ++ '"' :: s) := by
  rw [quote, List.cons_append, skipSpace_append_cons hw (by simp [IsSpace]), List.append_assoc]
  rfl

theorem ReadsFields.one (hw : ∀ c ∈ w, IsSpace c) (name : String) {w' : List Char}
    (hw' : ∀ c ∈ w', IsSpace c) (h : Reads cs j) {w'' : List Char}
    (hw'' : ∀ c ∈ w'', IsSpace c) :
    ReadsFields (w ++ (quote name ++ ':' :: (w' ++ (cs ++ (w'' ++ ['}']))))) [(name, j)] := by
  have hskip := skipSpace_quote hw name
  refine ⟨fun rest => ⟨_, by rw [List.append_assoc, List.append_assoc, hskip]⟩,
    fun {fuel rest} hfuel => ?_⟩
  cases fuel with
  | zero => simp at hfuel
  | succ fuel =>
      have hlength : cs.length ≤ fuel := by
        simp only [List.length_append, List.length_cons] at hfuel
        omega
      have hends : Ends (w'' ++ '}' :: rest) := ends_append hw'' (by simp) rest
      have hread := h.read hlength hends
      simp [readFields, hskip, readPieces_flatMap_escape, joinPieces_map_char,
        readValue_append hw', hread, skipSpace_append_cons hw'', skipSpace_cons, IsSpace]

theorem ReadsFields.cons (hw : ∀ c ∈ w, IsSpace c) (name : String) {w' : List Char}
    (hw' : ∀ c ∈ w', IsSpace c) (h : Reads cs j) {w'' : List Char}
    (hw'' : ∀ c ∈ w'', IsSpace c) {more : List Char} {fields : List (String × Json)}
    (hmore : ReadsFields more fields) :
    ReadsFields (w ++ (quote name ++ ':' :: (w' ++ (cs ++ (w'' ++ ',' :: more)))))
      ((name, j) :: fields) := by
  have hskip := skipSpace_quote hw name
  refine ⟨fun rest => ⟨_, by rw [List.append_assoc, List.append_assoc, hskip]⟩,
    fun {fuel rest} hfuel => ?_⟩
  cases fuel with
  | zero => simp at hfuel
  | succ fuel =>
      have hlength : cs.length ≤ fuel ∧ more.length ≤ fuel := by
        simp only [List.length_append, List.length_cons] at hfuel
        omega
      have hends : Ends (w'' ++ ',' :: (more ++ rest)) := ends_append hw'' (by simp) (more ++ rest)
      have hread := h.read hlength.1 hends
      have hfields : readFields fuel (more ++ rest) =
          some (fields.map fun f => (some f.1.toList, f.2), rest) := hmore.read hlength.2
      simp [readFields, hskip, readPieces_flatMap_escape, joinPieces_map_char,
        readValue_append hw', hread, skipSpace_append_cons hw'', skipSpace_cons, IsSpace, hfields]

theorem reads_object_nil : Reads ['{', '}'] (object []) :=
  .of_succ (by simp [IsSpace]) (by decide) fun _ _ => by simp [readValue, skipSpace_cons, IsSpace]

theorem objectOf_map (fields : List (String × Json)) :
    objectOf (fields.map fun f => (some f.1.toList, f.2)) = object fields := by
  rw [objectOf, mapM_map_eq_some fun f _ => by simp]

theorem reads_object {fields : List (String × Json)} (h : ReadsFields cs fields) :
    Reads ('{' :: cs) (object fields) := by
  refine .of_succ (by simp [IsSpace]) (by decide) fun {fuel rest} hfuel _ => ?_
  obtain ⟨r, hskip⟩ := h.head rest
  have hread : readFields fuel (skipSpace (cs ++ rest)) =
      some (fields.map fun f => (some f.1.toList, f.2), rest) := by
    rw [readFields_skipSpace]
    exact h.read hfuel
  rw [hskip] at hread
  simp [readValue, skipSpace_cons, IsSpace, hskip, hread, objectOf_map]

/-! ### Written values -/

/-- True of the values that their text tells in full: they have no doubles, and every whole number
fits 64 bits. -/
inductive Exact : Json → Prop where
  | null : Exact null
  | bool (b : Bool) : Exact (bool b)
  | integer {i : Int} : -2 ^ 63 ≤ i → i < 2 ^ 64 → Exact (integer i)
  | string (s : String) : Exact (string s)
  | array {items : List Json} : (∀ j ∈ items, Exact j) → Exact (array items)
  | object {fields : List (String × Json)} : (∀ f ∈ fields, Exact f.2) → Exact (object fields)

theorem exact_ofNat {n : Nat} (h : n < 2 ^ 64) : Exact (ofNat n) :=
  .integer (by omega) (by omega)

theorem isSpace_nil : ∀ c ∈ ([] : List Char), IsSpace c :=
  fun _ h => absurd h List.not_mem_nil

theorem isSpace_singleton : ∀ c ∈ [' '], IsSpace c :=
  fun _ h => Or.inl (List.mem_singleton.mp h)

theorem isSpace_newLine (depth : Nat) : ∀ c ∈ newLine depth, IsSpace c := by
  intro c hc
  rcases List.mem_cons.mp hc with rfl | hc
  · exact Or.inr (Or.inl rfl)
  · exact Or.inl (List.eq_of_mem_replicate hc)

theorem readsItems_compactItems {item : Json} {items : List Json}
    (h : ∀ j ∈ item :: items, Reads (compactChars j) j) :
    ReadsItems (compactItems (item :: items)) (item :: items) := by
  induction items generalizing item with
  | nil => exact .one isSpace_nil (h item List.mem_cons_self) isSpace_nil
  | cons next items ih =>
      rw [List.forall_mem_cons] at h
      exact .cons isSpace_nil h.1 isSpace_nil (ih h.2)

theorem readsFields_compactFields {field : String × Json} {fields : List (String × Json)}
    (h : ∀ f ∈ field :: fields, Reads (compactChars f.2) f.2) :
    ReadsFields (compactFields (field :: fields)) (field :: fields) := by
  induction fields generalizing field with
  | nil =>
      exact .one isSpace_nil field.1 isSpace_nil (h field List.mem_cons_self) isSpace_nil
  | cons next fields ih =>
      rw [List.forall_mem_cons] at h
      exact .cons isSpace_nil field.1 isSpace_nil h.1 isSpace_nil (ih h.2)

theorem reads_compactChars (h : Exact j) : Reads (compactChars j) j := by
  induction h with
  | null => exact reads_null
  | bool b =>
      cases b
      · exact reads_false
      · exact reads_true
  | integer hlow hhigh => exact reads_writeInt hlow hhigh
  | string s => exact reads_quote s
  | @array items _ ih =>
      cases items with
      | nil => exact reads_array_nil
      | cons item items => exact reads_array (readsItems_compactItems ih)
  | @object fields _ ih =>
      cases fields with
      | nil => exact reads_object_nil
      | cons field fields => exact reads_object (readsFields_compactFields ih)

theorem readsItems_prettyItems {depth : Nat} {item : Json} {items : List Json}
    (h : ∀ j ∈ item :: items, Reads (prettyChars (depth + 1) j) j) :
    ReadsItems (prettyItems depth (item :: items)) (item :: items) := by
  induction items generalizing item with
  | nil =>
      have hone := ReadsItems.one (isSpace_newLine (depth + 1)) (h item List.mem_cons_self)
        (isSpace_newLine depth)
      simpa [prettyItems] using hone
  | cons next items ih =>
      rw [List.forall_mem_cons] at h
      have hcons := ReadsItems.cons (isSpace_newLine (depth + 1)) h.1 isSpace_nil (ih h.2)
      simpa [prettyItems] using hcons

theorem readsFields_prettyFields {depth : Nat} {field : String × Json}
    {fields : List (String × Json)}
    (h : ∀ f ∈ field :: fields, Reads (prettyChars (depth + 1) f.2) f.2) :
    ReadsFields (prettyFields depth (field :: fields)) (field :: fields) := by
  induction fields generalizing field with
  | nil =>
      have hone := ReadsFields.one (isSpace_newLine (depth + 1)) field.1 isSpace_singleton
        (h field List.mem_cons_self) (isSpace_newLine depth)
      simpa [prettyFields] using hone
  | cons next fields ih =>
      rw [List.forall_mem_cons] at h
      have hcons := ReadsFields.cons (isSpace_newLine (depth + 1)) field.1 isSpace_singleton h.1
        isSpace_nil (ih h.2)
      simpa [prettyFields] using hcons

theorem reads_prettyChars (h : Exact j) (depth : Nat) : Reads (prettyChars depth j) j := by
  induction h generalizing depth with
  | null => exact reads_null
  | bool b =>
      cases b
      · exact reads_false
      · exact reads_true
  | integer hlow hhigh => exact reads_writeInt hlow hhigh
  | string s => exact reads_quote s
  | @array items _ ih =>
      cases items with
      | nil => exact reads_array_nil
      | cons item items =>
          exact reads_array (readsItems_prettyItems fun j hj => ih j hj (depth + 1))
  | @object fields _ ih =>
      cases fields with
      | nil => exact reads_object_nil
      | cons field fields =>
          exact reads_object (readsFields_prettyFields fun f hf => ih f hf (depth + 1))

theorem parse?_of_reads (h : Reads cs j) : parse? (String.ofList cs) = some j := by
  have hread := h.read (Nat.le_succ cs.length) ends_nil
  rw [List.append_nil] at hread
  rw [parse?, String.toList_ofList, hread]
  rfl

/-- **A value on one line is read back.** -/
theorem parse?_compact (h : Exact j) : parse? (compact j) = some j :=
  parse?_of_reads (reads_compactChars h)

/-- **A value over several lines is read back.** -/
theorem parse?_pretty (h : Exact j) : parse? (pretty j) = some j :=
  parse?_of_reads (reads_prettyChars h 0)

end Composer.Json
