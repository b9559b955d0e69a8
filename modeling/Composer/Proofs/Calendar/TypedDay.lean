import Composer.Calendar.TypedDate
import Composer.Proofs.Text.Phrase
/-!
# Composer.Proofs.Calendar.TypedDay

**Days of a month as people type them.** A day of a month without a year is a holiday, a month
before a day, or a day before a month (`NamesDay`). All of these are read, in the order in which the
readings are tried, and they mean that month and that day (`typedDate?_of_namesDay`). A month and a
day are read in the same way with a year behind them (`typedDate?_of_monthFirst`,
`typedDate?_of_dayFirst`).
-/

namespace Composer.Calendar

open Text

/-! ### Days without a year -/

/-- The first letters of a month's name, at least three of them. -/
structure Abbreviates (month : Nat) (word : List Char) : Prop where
  /-- There is a month with that number and a name that begins so. -/
  begins : ∃ name, (name, month) ∈ monthKeys.zipIdx 1 ∧ word <+: name.toList
  /-- There are enough letters. -/
  long : 3 ≤ word.length

/-- A month is written with its first letters, and perhaps with the point of an abbreviation. -/
inductive WritesMonth (month : Nat) : List Char → Prop where
  /-- Letters alone. -/
  | letters {word : List Char} (h : Abbreviates month word) : WritesMonth month word
  /-- Letters and a point. -/
  | point {word : List Char} (h : Abbreviates month word) : WritesMonth month (word ++ ['.'])

/-- The endings of ordinal numbers, none among them. -/
def ordinalEndings : List String :=
  ["", "st", "nd", "rd", "th"]

/-- A day is written in one digit or two, perhaps with the ending of an ordinal number. -/
inductive WritesDay (day : Nat) : List Char → Prop where
  /-- Digits and an ending. -/
  | digits {ds : List Char} {ending : String} (h : natural? ds = some day) (short : ds.length ≤ 2)
      (ordinal : ending ∈ ordinalEndings) : WritesDay day (ds ++ ending.toList)

/-- What may stand between the day and the month. -/
inductive IsLink : List Char → Prop where
  /-- Nothing. -/
  | none : IsLink []
  /-- The word *of*. -/
  | of {gap : List Char} (gap_blank : ∀ c ∈ gap, isBlank c = true) (gap_ne_nil : gap ≠ []) :
      IsLink ("of".toList ++ gap)

/-- What may stand behind a day and a month: nothing, or a year of four digits. -/
inductive WritesYear : Option Int → List Char → Prop where
  /-- Nothing. -/
  | absent : WritesYear none []
  /-- Blanks and the digits of the year. -/
  | blank {year : Nat} {gap ds : List Char} (h : natural? ds = some year) (four : ds.length = 4)
      (gap_blank : ∀ c ∈ gap, isBlank c = true) (gap_ne_nil : gap ≠ []) :
      WritesYear (some year) (gap ++ ds)
  /-- A comma, blanks and the digits of the year. -/
  | comma {year : Nat} {gap ds : List Char} (h : natural? ds = some year) (four : ds.length = 4)
      (gap_blank : ∀ c ∈ gap, isBlank c = true) (gap_ne_nil : gap ≠ []) :
      WritesYear (some year) (',' :: (gap ++ ds))

/-- A day of a month, without a year and in lower case. -/
inductive NamesDay (month day : Nat) : List Char → Prop where
  /-- A holiday by one of its names. -/
  | holiday {h : Holiday} {name : String} (known : h ∈ holidays) (named : name ∈ h.names)
      (month_eq : h.month = month) (day_eq : h.day = day) : NamesDay month day name.toList
  /-- The month before the day. -/
  | monthFirst {m gap d : List Char} (hm : WritesMonth month m) (hd : WritesDay day d)
      (gap_blank : ∀ c ∈ gap, isBlank c = true) (gap_ne_nil : gap ≠ []) :
      NamesDay month day (m ++ gap ++ d)
  /-- The day before the month. -/
  | dayFirst {d gap link m : List Char} (hm : WritesMonth month m) (hd : WritesDay day d)
      (gap_blank : ∀ c ∈ gap, isBlank c = true) (gap_ne_nil : gap ≠ []) (hlink : IsLink link) :
      NamesDay month day (d ++ gap ++ link ++ m)

/-! ### Months -/

/-- Three letters tell the months apart. -/
theorem monthKeys_spec : ∀ p ∈ monthKeys.zipIdx 1,
    (∀ n < 10, 3 ≤ n → month? (p.1.toList.take n) = some p.2) ∧ p.1.toList.length < 10 ∧
      p.1.toList.all isKeywordLetter = true := by
  decide +kernel

theorem Abbreviates.month?_eq {month : Nat} {word : List Char} (h : Abbreviates month word) :
    month? word = some month := by
  obtain ⟨⟨name, hname, hbegins⟩, hlong⟩ := h
  obtain ⟨hmonth, hlength, -⟩ := monthKeys_spec _ hname
  rw [List.prefix_iff_eq_take.mp hbegins]
  exact hmonth _ (hbegins.length_le.trans_lt hlength) hlong

theorem Abbreviates.isKeywordLetter {month : Nat} {word : List Char} (h : Abbreviates month word) :
    ∀ c ∈ word, isKeywordLetter c = true := by
  obtain ⟨⟨name, hname, hbegins⟩, -⟩ := h
  exact fun c hc => List.all_eq_true.mp (monthKeys_spec _ hname).2.2 c (hbegins.subset hc)

/-- What follows a month is no letter and no point. -/
theorem monthWord_append {β : Type} {month : Nat} {m : List Char} (h : WritesMonth month m)
    {r : List Char} (hr : ∀ c ∈ r.head?, isKeywordLetter c = false ∧ c ≠ '.')
    {k : List Char → Reading β} {b : β} (hk : ∀ word, month? word = some month → k word r = some b) :
    monthWord k (m ++ r) = some b := by
  have hword {word : List Char} (habbr : Abbreviates month word) {r : List Char}
      (hr : ∀ c ∈ r.head?, isKeywordLetter c = false) :
      monthWord k (word ++ r) = optionally (Text.char '.') (k word) r :=
    run_append habbr.isKeywordLetter (by simpa using Nat.le_trans (by decide) habbr.long) hr _
  cases h with
  | letters habbr =>
      rw [hword habbr fun c hc => (hr c hc).1, optionally_of_eq_none ?_, hk _ habbr.month?_eq]
      cases r with
      | nil => rfl
      | cons c r => exact char_cons_of_ne (hr c rfl).2 _ r
  | point habbr =>
      rw [List.append_assoc, List.singleton_append, hword habbr (by simp; decide)]
      refine optionally_of_eq_some ?_
      rw [char_cons, hk _ habbr.month?_eq]

/-- A month has three letters to begin with. -/
theorem WritesMonth.exists_cons {month : Nat} {m : List Char} (h : WritesMonth month m) :
    ∃ a b c r, m = a :: b :: c :: r ∧ isKeywordLetter a = true ∧ isKeywordLetter c = true := by
  have hcons {word : List Char} (habbr : Abbreviates month word) (r : List Char) :
      ∃ a b c r', word ++ r = a :: b :: c :: r' ∧ isKeywordLetter a = true ∧
        isKeywordLetter c = true := by
    have hletters := habbr.isKeywordLetter
    match word, habbr.long with
    | a :: b :: c :: w, _ =>
        exact ⟨a, b, c, w ++ r, rfl, hletters a (by simp), hletters c (by simp)⟩
  cases h with
  | letters habbr => simpa using hcons habbr []
  | point habbr => exact hcons habbr ['.']

/-- It does not begin with the word *of*. -/
theorem WritesMonth.not_of {β : Type} {month : Nat} {m : List Char} (h : WritesMonth month m)
    (e : List Char) (k : Reading β) : keyword "of" (blanks k) (m ++ e) = none := by
  obtain ⟨a, b, c, r, rfl, -, hc⟩ := h.exists_cons
  rw [Option.eq_none_iff_forall_ne_some]
  intro x hx
  obtain ⟨taken, rest, hsplit, hfold, hrest⟩ := keyword_eq_some hx
  have hlength : taken.length = 2 := by simpa using congrArg List.length hfold
  match taken, hlength with
  | [d, e'], _ =>
      obtain ⟨-, -, rfl⟩ : a = d ∧ b = e' ∧ c :: (r ++ e) = rest := by simpa using hsplit
      rw [blanks_of_not_isBlank (of_isKeywordLetter hc).2.1] at hrest
      cases hrest

/-! ### Days -/

/-- The ending of an ordinal number is skipped. -/
theorem ordinal_append {β : Type} {ending : String} (h : ending ∈ ordinalEndings) {r : List Char}
    (hr : ∀ c ∈ r.head?, isKeywordLetter c = false) {k : Reading β} {b : β} (hk : k r = some b) :
    ordinal k (ending.toList ++ r) = some b := by
  have hword {word : String} (hfold : word.toList.map fold = word.toList) :
      keyword word k (word.toList ++ r) = some b := by
    rw [keyword_append hfold, hk]
  have hskip {word : String} {c d : Char} (hhead : word.toList.head? = some d) (hne : fold c ≠ d)
      (ways : List (Reading β)) (s : List Char) :
      firstOf (keyword word k :: ways) (c :: s) = firstOf ways (c :: s) :=
    firstOf_of_eq_none (keyword_cons_of_ne hhead hne k s) ways
  have hnone {word : String} {d : Char} (hhead : word.toList.head? = some d)
      (hd : isKeywordLetter d = true) (ways : List (Reading β)) :
      firstOf (keyword word k :: ways) r = firstOf ways r :=
    firstOf_of_eq_none (keyword_of_not_isKeywordLetter hhead hd hr k) ways
  simp only [ordinalEndings, List.mem_cons, List.not_mem_nil, or_false] at h
  unfold ordinal
  rcases h with rfl | rfl | rfl | rfl | rfl
  · calc firstOf _ r
        = firstOf [keyword "nd" k, keyword "rd" k, keyword "th" k, k] r := hnone rfl (by decide) _
      _ = firstOf [keyword "rd" k, keyword "th" k, k] r := hnone rfl (by decide) _
      _ = firstOf [keyword "th" k, k] r := hnone rfl (by decide) _
      _ = firstOf [k] r := hnone rfl (by decide) _
      _ = some b := firstOf_of_eq_some hk _
  · exact firstOf_of_eq_some (hword (by decide)) _
  · calc firstOf _ ('n' :: 'd' :: r)
        = firstOf [keyword "nd" k, keyword "rd" k, keyword "th" k, k] ('n' :: 'd' :: r) :=
          hskip rfl (by decide) _ _
      _ = some b := firstOf_of_eq_some (hword (by decide)) _
  · calc firstOf _ ('r' :: 'd' :: r)
        = firstOf [keyword "nd" k, keyword "rd" k, keyword "th" k, k] ('r' :: 'd' :: r) :=
          hskip rfl (by decide) _ _
      _ = firstOf [keyword "rd" k, keyword "th" k, k] ('r' :: 'd' :: r) :=
          hskip rfl (by decide) _ _
      _ = some b := firstOf_of_eq_some (hword (by decide)) _
  · calc firstOf _ ('t' :: 'h' :: r)
        = firstOf [keyword "nd" k, keyword "rd" k, keyword "th" k, k] ('t' :: 'h' :: r) :=
          hskip rfl (by decide) _ _
      _ = firstOf [keyword "rd" k, keyword "th" k, k] ('t' :: 'h' :: r) :=
          hskip rfl (by decide) _ _
      _ = firstOf [keyword "th" k, k] ('t' :: 'h' :: r) := hskip rfl (by decide) _ _
      _ = some b := firstOf_of_eq_some (hword (by decide)) _

/-- An ending has letters only. -/
theorem ordinalEndings_spec : ∀ ending ∈ ordinalEndings,
    ending.toList.all (fun c => isKeywordLetter c && !isDecimalDigit c) = true := by
  decide

theorem of_mem_ending {ending : String} (h : ending ∈ ordinalEndings) {c : Char}
    (hc : c ∈ ending.toList) : isKeywordLetter c = true ∧ isDecimalDigit c = false := by
  simpa using List.all_eq_true.mp (ordinalEndings_spec ending h) c hc

/-- The digits of a day, and what is not one of them behind. -/
theorem WritesDay.exists_digits {day : Nat} {d : List Char} (h : WritesDay day d) {r : List Char}
    (hr : ∀ c ∈ r.head?, isDecimalDigit c = false) :
    ∃ ds ending, d = ds ++ ending.toList ∧ ending ∈ ordinalEndings ∧ natural? ds = some day ∧
      1 ≤ ds.length ∧ ds.length ≤ 2 ∧ (∀ c ∈ ds, isDecimalDigit c = true) ∧
      ∀ c ∈ (ending.toList ++ r).head?, isDecimalDigit c = false := by
  cases h with
  | @digits ds ending hday hshort hordinal =>
      obtain ⟨hne, hdigits⟩ := natural?_eq_some hday
      refine ⟨ds, ending, rfl, hordinal, hday, List.length_pos_iff.mpr hne, hshort, hdigits, ?_⟩
      intro c hc
      rw [List.head?_append, Option.mem_def, Option.or_eq_some_iff] at hc
      rcases hc with hc | ⟨-, hc⟩
      · exact (of_mem_ending hordinal (List.mem_of_mem_head? hc)).2
      · exact hr c hc

/-- What follows a day is no letter and no digit. -/
theorem digits_append_ordinal {β : Type} {day : Nat} {d : List Char} (h : WritesDay day d)
    {r : List Char} (hr : ∀ c ∈ r.head?, isKeywordLetter c = false ∧ isDecimalDigit c = false)
    {k : List Char → Reading β} {b : β} (hk : ∀ ds, natural? ds = some day → k ds r = some b) :
    digits 1 2 (fun ds => ordinal (k ds)) (d ++ r) = some b := by
  obtain ⟨ds, ending, rfl, hordinal, hday, hleast, hmost, hdigits, hstop⟩ :=
    h.exists_digits fun c hc => (hr c hc).2
  rw [List.append_assoc, digits_append hdigits hstop _ ⟨hleast, hmost⟩]
  exact ordinal_append hordinal (fun c hc => (hr c hc).1) (hk ds hday)

theorem WritesDay.exists_cons {day : Nat} {d : List Char} (h : WritesDay day d) :
    ∃ c r, d = c :: r ∧ isDecimalDigit c = true := by
  obtain ⟨ds, ending, rfl, -, -, hleast, -, hdigits, -⟩ := h.exists_digits (r := []) (by simp)
  obtain ⟨c, r, rfl⟩ := List.exists_cons_of_length_pos hleast
  exact ⟨c, r ++ ending.toList, rfl, hdigits c List.mem_cons_self⟩

/-! ### Characters -/

theorem WritesMonth.of_mem {month : Nat} {m : List Char} (h : WritesMonth month m) :
    ∀ c ∈ m, isKeywordLetter c = true ∨ c = '.' := by
  cases h with
  | letters habbr => exact fun c hc => Or.inl (habbr.isKeywordLetter c hc)
  | point habbr =>
      intro c hc
      rcases List.mem_append.mp hc with hc | hc
      · exact Or.inl (habbr.isKeywordLetter c hc)
      · exact Or.inr (List.mem_singleton.mp hc)

theorem WritesDay.of_mem {day : Nat} {d : List Char} (h : WritesDay day d) :
    ∀ c ∈ d, isDecimalDigit c = true ∨ isKeywordLetter c = true := by
  cases h with
  | digits hday _ hordinal =>
      intro c hc
      rcases List.mem_append.mp hc with hc | hc
      · exact Or.inl ((natural?_eq_some hday).2 c hc)
      · exact Or.inr (of_mem_ending hordinal hc).1

/-- A name of a day is not empty, and there is no question mark in it. -/
theorem NamesDay.not_mem {month day : Nat} {key : List Char} (h : NamesDay month day key) :
    key ≠ [] ∧ '?' ∉ key := by
  have hgap {gap : List Char} (hblank : ∀ c ∈ gap, isBlank c = true) : '?' ∉ gap := by
    intro hmem
    cases hblank '?' hmem
  have hmonth {m : List Char} (hm : WritesMonth month m) : '?' ∉ m := by
    intro hmem
    rcases hm.of_mem '?' hmem with hletter | hpoint
    · exact absurd hletter (by decide)
    · exact absurd hpoint (by decide)
  have hday {d : List Char} (hd : WritesDay day d) : '?' ∉ d := by
    intro hmem
    rcases hd.of_mem '?' hmem with hdigit | hletter
    · exact absurd hdigit (by decide)
    · exact absurd hletter (by decide)
  cases h with
  | holiday known named =>
      have hnames : ∀ h ∈ holidays, ∀ name ∈ h.names, name.toList ≠ [] ∧ '?' ∉ name.toList := by
        decide
      exact hnames _ known _ named
  | monthFirst hm hd hblank hne =>
      refine ⟨by simp [hne], ?_⟩
      rw [List.mem_append, List.mem_append, not_or, not_or]
      exact ⟨⟨hmonth hm, hgap hblank⟩, hday hd⟩
  | dayFirst hm hd hblank hne hlink =>
      refine ⟨by simp [hne], ?_⟩
      rw [List.mem_append, List.mem_append, List.mem_append, not_or, not_or, not_or]
      refine ⟨⟨⟨hday hd, hgap hblank⟩, ?_⟩, hmonth hm⟩
      cases hlink with
      | none => exact List.not_mem_nil
      | of hblank' =>
          rw [List.mem_append, not_or]
          exact ⟨by decide, hgap hblank'⟩

/-! ### A day and a month -/

theorem isBlank_of_head?_gap {gap : List Char} (hblank : ∀ c ∈ gap, isBlank c = true)
    (hne : gap ≠ []) (r : List Char) : ∀ c ∈ (gap ++ r).head?, isBlank c = true := by
  obtain ⟨c, gap, rfl⟩ := List.exists_cons_of_ne_nil hne
  intro d hd
  obtain rfl := Option.some.inj hd
  exact hblank c List.mem_cons_self

/-- A year does not go on with the letters or the digits before it. -/
theorem WritesYear.of_head {year : Option Int} {e : List Char} (h : WritesYear year e) :
    ∀ c ∈ e.head?, isKeywordLetter c = false ∧ isDecimalDigit c = false ∧ c ≠ '.' := by
  intro c hc
  cases h with
  | absent => cases hc
  | blank _ _ hblank hne =>
      have hc := isBlank_of_head?_gap hblank hne _ c hc
      refine ⟨not_isKeywordLetter_of_isBlank hc, isDecimalDigit_of_isBlank hc, ?_⟩
      rintro rfl
      cases hc
  | comma =>
      obtain rfl : ',' = c := Option.some.inj hc
      exact ⟨by decide, by decide, by decide⟩

/-- A year is read to the end of the text. -/
theorem yearAtEnd_append {year : Option Int} {e : List Char} (h : WritesYear year e)
    (k : Option Int → Option MonthDay) : yearAtEnd k e = some (k year) := by
  have hyear {year : Nat} {gap ds : List Char} (hds : natural? ds = some year) (hfour : ds.length = 4)
      (hblank : ∀ c ∈ gap, isBlank c = true) (hne : gap ≠ []) :
      (blanks <| digits 4 4 fun ds => stop (k ((natural? ds).map Int.ofNat))) (gap ++ ds) =
        some (k (some year)) := by
    obtain ⟨hfull, hdigits⟩ := natural?_eq_some hds
    have hread : digits 4 4 (fun ds => stop (k ((natural? ds).map Int.ofNat))) (ds ++ []) =
        some (k (some year)) := by
      rw [digits_append hdigits (by simp) _ ⟨hfour.ge, hfour.le⟩, hds]
      rfl
    rw [List.append_nil] at hread
    have hhead : ∀ c ∈ ds.head?, isBlank c = false := fun c hc =>
      not_isBlank_of_isDecimalDigit (hdigits c (List.mem_of_mem_head? hc))
    rw [blanks_append hblank hne hhead (Or.inr (by rw [hread]; rfl)), hread]
  cases h with
  | absent => rfl
  | @blank year gap ds hds hfour hblank hne =>
      have hcomma : ∀ c ∈ (gap ++ ds).head?, c ≠ ',' := by
        rintro c hc rfl
        cases isBlank_of_head?_gap hblank hne ds ',' hc
      refine (firstOf_of_eq_none (char_of_head?_ne hcomma _) _).trans (firstOf_of_eq_some ?_ _)
      exact hyear hds hfour hblank hne
  | comma hds hfour hblank hne =>
      refine firstOf_of_eq_some ?_ _
      rw [char_cons]
      exact hyear hds hfour hblank hne

theorem monthDay?_eq {month day : Nat} {word ds : List Char} (hmonth : month? word = some month)
    (hday : natural? ds = some day) (year : Option Int) :
    monthDay? word ds year = some ⟨month, day, year⟩ := by
  simp [monthDay?, hmonth, hday]

theorem not_isBlank_of_head?_month {month : Nat} {m : List Char} (hm : WritesMonth month m)
    (r : List Char) : ∀ c ∈ (m ++ r).head?, isBlank c = false := by
  obtain ⟨a, b, c, m, rfl, ha, -⟩ := hm.exists_cons
  intro e he
  obtain rfl := Option.some.inj he
  exact (of_isKeywordLetter ha).2.1

section

variable {month day : Nat} {year : Option Int} {m d gap e : List Char} (hm : WritesMonth month m)
  (hd : WritesDay day d) (hblank : ∀ c ∈ gap, isBlank c = true) (hne : gap ≠ [])
  (he : WritesYear year e)
include hm hd hblank hne he

/-- The month before the day. -/
theorem monthFirst_eq : monthFirst (m ++ gap ++ d ++ e) = some (some ⟨month, day, year⟩) := by
  have hgap := isBlank_of_head?_gap hblank hne (d ++ e)
  have hstart : ∀ c ∈ (gap ++ (d ++ e)).head?, isKeywordLetter c = false ∧ c ≠ '.' := by
    intro c hc
    refine ⟨not_isKeywordLetter_of_isBlank (hgap c hc), ?_⟩
    rintro rfl
    cases hgap '.' hc
  rw [List.append_assoc, List.append_assoc]
  refine monthWord_append hm hstart fun word hmonth => ?_
  have hread : digits 1 2 (fun ds => ordinal (yearAtEnd (monthDay? word ds))) (d ++ e) =
      some (some ⟨month, day, year⟩) :=
    digits_append_ordinal hd (fun c hc => ⟨(he.of_head c hc).1, (he.of_head c hc).2.1⟩)
      fun ds hday => by rw [yearAtEnd_append he, monthDay?_eq hmonth hday]
  have hday : ∀ c ∈ (d ++ e).head?, isBlank c = false := by
    obtain ⟨c, r, rfl, hc⟩ := hd.exists_cons
    intro c' hc'
    obtain rfl := Option.some.inj hc'
    exact not_isBlank_of_isDecimalDigit hc
  rw [blanks_append hblank hne hday (Or.inr (by rw [hread]; rfl)), hread]

/-- The day before the month. -/
theorem dayFirst_eq {link : List Char} (hlink : IsLink link) :
    dayFirst (d ++ gap ++ link ++ m ++ e) = some (some ⟨month, day, year⟩) := by
  have hgap := isBlank_of_head?_gap hblank hne (link ++ (m ++ e))
  have hstart : ∀ c ∈ (gap ++ (link ++ (m ++ e))).head?, isKeywordLetter c = false ∧
      isDecimalDigit c = false := fun c hc =>
    ⟨not_isKeywordLetter_of_isBlank (hgap c hc), isDecimalDigit_of_isBlank (hgap c hc)⟩
  rw [List.append_assoc, List.append_assoc, List.append_assoc]
  refine digits_append_ordinal hd hstart fun ds hday => ?_
  have hmonth : monthWord (fun word => yearAtEnd (monthDay? word ds)) (m ++ e) =
      some (some ⟨month, day, year⟩) :=
    monthWord_append hm (fun c hc => ⟨(he.of_head c hc).1, (he.of_head c hc).2.2⟩)
      fun word hmonth => by rw [yearAtEnd_append he, monthDay?_eq hmonth hday]
  have hletter := not_isBlank_of_head?_month hm e
  cases hlink with
  | none =>
      have hread : optionally (fun k => keyword "of" (blanks k))
          (monthWord fun word => yearAtEnd (monthDay? word ds)) (m ++ e) =
            some (some ⟨month, day, year⟩) := by
        rw [optionally, hm.not_of]
        exact hmonth
      rw [List.nil_append, blanks_append hblank hne hletter (Or.inr (by rw [hread]; rfl)), hread]
  | @of gap' hblank' hne' =>
      have hread : optionally (fun k => keyword "of" (blanks k))
          (monthWord fun word => yearAtEnd (monthDay? word ds)) ("of".toList ++ gap' ++ (m ++ e)) =
            some (some ⟨month, day, year⟩) := by
        refine optionally_of_eq_some ?_
        rw [List.append_assoc, keyword_append (by decide),
          blanks_append hblank' hne' hletter (Or.inr (by rw [hmonth]; rfl)), hmonth]
      have hword : ∀ c ∈ ("of".toList ++ gap' ++ (m ++ e)).head?, isBlank c = false := by
        intro c hc
        obtain rfl : 'o' = c := Option.some.inj hc
        rfl
      rw [blanks_append hblank hne hword (Or.inr (by rw [hread]; rfl)), hread]

end

/-! ### What is read before -/

/-- Neither a word for a day near today nor a holiday has a digit. -/
theorem words_spec : ∀ word ∈ ["today", "now", "tomorrow", "yesterday"] ++
    holidays.flatMap Holiday.names, word.toList.any isDecimalDigit = false := by
  decide +kernel

/-- The names of the holidays are different from each other and from the words for days near
today. -/
theorem holidays_spec : ∀ h ∈ holidays, ∀ name ∈ h.names,
    (holidays.find? fun h => h.names.any (·.toList = name.toList)).map (fun h => (h.month, h.day)) =
      some (h.month, h.day) ∧
    ∀ word ∈ ["today", "now", "tomorrow", "yesterday"], name.toList ≠ word.toList := by
  decide +kernel

section

variable {month day : Nat} {s : List Char} (today : Date) (future : Bool)

/-- A day with a digit is no single word. -/
theorem not_word_of_digit (h : ∃ c ∈ askedKey s, isDecimalDigit c = true) :
    (∀ word ∈ ["today", "now", "tomorrow", "yesterday"], askedKey s ≠ word.toList) ∧
      (holidays.find? fun h => h.names.any (·.toList = askedKey s)) = none := by
  obtain ⟨c, hc, hdigit⟩ := h
  have hne (word : String) (hword : word ∈ ["today", "now", "tomorrow", "yesterday"] ++
      holidays.flatMap Holiday.names) : askedKey s ≠ word.toList := by
    intro heq
    have hany : word.toList.any isDecimalDigit = true :=
      List.any_eq_true.mpr ⟨c, heq ▸ hc, hdigit⟩
    rw [words_spec word hword] at hany
    cases hany
  refine ⟨fun word hword => hne word (List.mem_append_left _ hword), ?_⟩
  rw [List.find?_eq_none]
  intro h hh hany
  obtain ⟨name, hname, heq⟩ := List.any_eq_true.mp hany
  exact hne name (List.mem_append_right _ (List.mem_flatMap.mpr ⟨h, hh, hname⟩))
    (of_decide_eq_true heq).symm

/-- So numbers are looked for first, and names of months after them. -/
theorem typedDate?_of_digit (h : ∃ c ∈ askedKey s, isDecimalDigit c = true) :
    typedDate? today future s =
      (hyphenated (askedKey s) <|> slashed (askedKey s)).elim
        ((monthFirst (askedKey s) <|> dayFirst (askedKey s)).elim none fun m =>
          m.bind fun m => m.resolve today future) id := by
  obtain ⟨hwords, hholiday⟩ := not_word_of_digit h
  have hnow := not_or.mpr ⟨hwords "today" (by decide), hwords "now" (by decide)⟩
  rw [typedDate?]
  simp only [if_neg hnow, if_neg (hwords "tomorrow" (by decide)),
    if_neg (hwords "yesterday" (by decide)), hholiday]
  cases hyphenated (askedKey s) <|> slashed (askedKey s) with
  | some => rfl
  | none =>
      cases monthFirst (askedKey s) <|> dayFirst (askedKey s) with
      | none => rfl
      | some m => cases m <;> rfl

theorem typedDate?_of_holiday {h : Holiday} {name : String} (hh : h ∈ holidays)
    (hname : name ∈ h.names) (hkey : askedKey s = name.toList) :
    typedDate? today future s = MonthDay.resolve ⟨h.month, h.day, none⟩ today future := by
  obtain ⟨hfind, hwords⟩ := holidays_spec h hh name hname
  obtain ⟨h', hfind, heq⟩ := Option.map_eq_some_iff.mp hfind
  obtain ⟨hmonth, hday⟩ := Prod.mk.inj heq
  have hnow : ¬ (name.toList = "today".toList ∨ name.toList = "now".toList) := by
    rintro (heq | heq)
    · exact hwords "today" (by decide) heq
    · exact hwords "now" (by decide) heq
  rw [typedDate?, hkey]
  simp only [if_neg hnow, if_neg (hwords "tomorrow" (by decide)),
    if_neg (hwords "yesterday" (by decide)), hfind, hmonth, hday]

end

/-- Three numbers do not begin with a letter, -/
theorem numbers_of_letter {c : Char} (hc : isDecimalDigit c = false) (s : List Char) :
    (hyphenated (c :: s) <|> slashed (c :: s)) = none := by
  have hnone {least most : Nat} (hleast : 0 < least) (k : List Char → Reading (Option Date)) :
      digits least most k ([] ++ c :: s) = none :=
    digits_eq_none (by simp) (by simpa using hc) k (Or.inl hleast)
  have hhyphens : hyphenated (c :: s) = none := hnone (by decide) _
  have hslashes : slashed (c :: s) = none := hnone (by decide) _
  rw [hhyphens, hslashes]
  rfl

/-- and behind a day no other number follows. -/
theorem numbers_of_day {day : Nat} {d : List Char} (h : WritesDay day d) {r : List Char}
    (hr : ∀ c ∈ r.head?, isBlank c = true) :
    (hyphenated (d ++ r) <|> slashed (d ++ r)) = none := by
  obtain ⟨ds, ending, rfl, hordinal, -, hleast, hmost, hdigits, hstop⟩ :=
    h.exists_digits fun c hc => isDecimalDigit_of_isBlank (hr c hc)
  have hslash (k : Reading (Option Date)) : Text.char '/' k (ending.toList ++ r) = none := by
    rw [Option.eq_none_iff_forall_ne_some]
    intro date hdate
    obtain ⟨s, hs, -⟩ := char_eq_some hdate
    have hhead : (ending.toList ++ r).head? = some '/' := congrArg List.head? hs
    rw [List.head?_append, Option.or_eq_some_iff] at hhead
    rcases hhead with hhead | ⟨-, hhead⟩
    · exact absurd (of_mem_ending hordinal (List.mem_of_mem_head? hhead)).1 (by decide)
    · cases hr '/' hhead
  have hhyphens : hyphenated (ds ++ (ending.toList ++ r)) = none :=
    digits_eq_none hdigits hstop _ (Or.inl (by omega))
  have hslashes : slashed (ds ++ (ending.toList ++ r)) = none :=
    (digits_append hdigits hstop _ ⟨hleast, hmost⟩).trans (hslash _)
  rw [List.append_assoc, hhyphens, hslashes]
  rfl

theorem monthFirst_of_not_isKeywordLetter {c : Char} (hc : isKeywordLetter c = false)
    (s : List Char) : monthFirst (c :: s) = none := by
  rw [monthFirst, monthWord, run, List.takeWhile_cons_of_neg (by simp [hc]), if_neg (by simp)]

section

variable {month day : Nat} {year : Option Int} {m d gap e s : List Char}
  (hm : WritesMonth month m) (hd : WritesDay day d) (hblank : ∀ c ∈ gap, isBlank c = true)
  (hne : gap ≠ []) (he : WritesYear year e) (today : Date) (future : Bool)
include hm hd hblank hne he

/-- A month and a day are read, -/
theorem typedDate?_of_monthFirst (hkey : askedKey s = m ++ gap ++ d ++ e) :
    typedDate? today future s = MonthDay.resolve ⟨month, day, year⟩ today future := by
  have hdigit : ∃ c ∈ m ++ gap ++ d ++ e, isDecimalDigit c = true := by
    obtain ⟨c, r, rfl, hc⟩ := hd.exists_cons
    exact ⟨c, by simp, hc⟩
  have hnumbers : (hyphenated (m ++ gap ++ d ++ e) <|> slashed (m ++ gap ++ d ++ e)) = none := by
    obtain ⟨a, b, c, r, rfl, ha, -⟩ := hm.exists_cons
    exact numbers_of_letter (not_isDecimalDigit_of_isKeywordLetter ha) _
  rw [← hkey] at hdigit
  rw [typedDate?_of_digit today future hdigit, hkey, hnumbers, monthFirst_eq hm hd hblank hne he]
  rfl

/-- and so are a day and a month. -/
theorem typedDate?_of_dayFirst {link : List Char} (hlink : IsLink link)
    (hkey : askedKey s = d ++ gap ++ link ++ m ++ e) :
    typedDate? today future s = MonthDay.resolve ⟨month, day, year⟩ today future := by
  have hdigit : ∃ c ∈ d ++ gap ++ link ++ m ++ e, isDecimalDigit c = true := by
    obtain ⟨c, r, rfl, hc⟩ := hd.exists_cons
    exact ⟨c, by simp, hc⟩
  have hnumbers : (hyphenated (d ++ gap ++ link ++ m ++ e) <|>
      slashed (d ++ gap ++ link ++ m ++ e)) = none := by
    rw [List.append_assoc, List.append_assoc, List.append_assoc]
    exact numbers_of_day hd (isBlank_of_head?_gap hblank hne _)
  have hmonth : monthFirst (d ++ gap ++ link ++ m ++ e) = none := by
    obtain ⟨c, r, rfl, hc⟩ := hd.exists_cons
    exact monthFirst_of_not_isKeywordLetter (not_isKeywordLetter_of_isDecimalDigit hc) _
  rw [← hkey] at hdigit
  rw [typedDate?_of_digit today future hdigit, hkey, hnumbers, hmonth,
    dayFirst_eq hm hd hblank hne he hlink]
  rfl

end

/-- **A named day of a month is read as that day.** -/
theorem typedDate?_of_namesDay {month day : Nat} {s : List Char}
    (h : NamesDay month day (askedKey s)) (today : Date) (future : Bool) :
    typedDate? today future s = MonthDay.resolve ⟨month, day, none⟩ today future := by
  generalize hkey : askedKey s = key at h
  cases h with
  | holiday known named month_eq day_eq =>
      rw [typedDate?_of_holiday today future known named hkey, month_eq, day_eq]
  | monthFirst hm hd hblank hne =>
      exact typedDate?_of_monthFirst hm hd hblank hne .absent today future
        (hkey.trans (List.append_nil _).symm)
  | dayFirst hm hd hblank hne hlink =>
      exact typedDate?_of_dayFirst hm hd hblank hne .absent today future hlink
        (hkey.trans (List.append_nil _).symm)

end Composer.Calendar
