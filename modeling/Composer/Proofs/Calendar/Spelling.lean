import Composer.Proofs.Calendar.Occurrence
import Composer.Proofs.Calendar.TypedDay
import Composer.Proofs.Text.Lowercase
/-!
# Composer.Proofs.Calendar.Spelling

**Spellings of a day with its year.** The three numbers with hyphens or with slashes, and the name
of the month before or behind the day, are four spellings of one day (`SpellsDay`). Each of them is
read as the day with that year, month and day, in any letter case and whatever day is today, and as
none if there is no such day (`date_of_spelling`).
-/

namespace Composer.Calendar

open Text

/-- A day with its year, in lower case. -/
inductive SpellsDay (year month day : Nat) : List Char → Prop where
  /-- Year, month and day with hyphens. -/
  | hyphens {y m d : List Char} (hy : natural? y = some year) (hm : natural? m = some month)
      (hd : natural? d = some day) (four : y.length = 4) (m_short : m.length ≤ 2)
      (d_short : d.length ≤ 2) : SpellsDay year month day (y ++ '-' :: (m ++ '-' :: d))
  /-- Month, day and year with slashes. -/
  | slashes {y m d : List Char} (hy : natural? y = some year) (hm : natural? m = some month)
      (hd : natural? d = some day) (four : y.length = 4) (m_short : m.length ≤ 2)
      (d_short : d.length ≤ 2) : SpellsDay year month day (m ++ '/' :: (d ++ '/' :: y))
  /-- The name of the month before the day. -/
  | monthFirst {m gap d e : List Char} (hm : WritesMonth month m) (hd : WritesDay day d)
      (gap_blank : ∀ c ∈ gap, isBlank c = true) (gap_ne_nil : gap ≠ [])
      (he : WritesYear (some year) e) : SpellsDay year month day (m ++ gap ++ d ++ e)
  /-- The day before the name of the month. -/
  | dayFirst {d gap link m e : List Char} (hm : WritesMonth month m) (hd : WritesDay day d)
      (gap_blank : ∀ c ∈ gap, isBlank c = true) (gap_ne_nil : gap ≠ []) (hlink : IsLink link)
      (he : WritesYear (some year) e) : SpellsDay year month day (d ++ gap ++ link ++ m ++ e)

/-! ### Three numbers -/

section

variable {year month day : Nat} {y m d : List Char} (hy : natural? y = some year)
  (hm : natural? m = some month) (hd : natural? d = some day) (four : y.length = 4)
  (m_short : m.length ≤ 2) (d_short : d.length ≤ 2)
include hy hm hd four m_short d_short

theorem hyphenated_eq :
    hyphenated (y ++ '-' :: (m ++ '-' :: d)) = some (Date.of? year month day) := by
  obtain ⟨-, hydigits⟩ := natural?_eq_some hy
  obtain ⟨hmne, hmdigits⟩ := natural?_eq_some hm
  obtain ⟨hdne, hddigits⟩ := natural?_eq_some hd
  have hhyphen (s : List Char) : ∀ c ∈ ('-' :: s).head?, isDecimalDigit c = false := by
    rintro _ ⟨⟩
    rfl
  rw [← List.append_nil d, hyphenated, digits_append hydigits (hhyphen _) _ ⟨four.ge, four.le⟩,
    char_cons, digits_append hmdigits (hhyphen _) _ ⟨List.length_pos_iff.mpr hmne, m_short⟩,
    char_cons, digits_append hddigits (by simp) _ ⟨List.length_pos_iff.mpr hdne, d_short⟩, hy, hm,
    hd]
  rfl

/-- A number before a slash is too short for a year. -/
theorem slashed_eq :
    hyphenated (m ++ '/' :: (d ++ '/' :: y)) = none ∧
      slashed (m ++ '/' :: (d ++ '/' :: y)) = some (Date.of? year month day) := by
  obtain ⟨-, hydigits⟩ := natural?_eq_some hy
  obtain ⟨hmne, hmdigits⟩ := natural?_eq_some hm
  obtain ⟨hdne, hddigits⟩ := natural?_eq_some hd
  have hslash (s : List Char) : ∀ c ∈ ('/' :: s).head?, isDecimalDigit c = false := by
    rintro _ ⟨⟩
    rfl
  constructor
  · rw [hyphenated, digits_eq_none hmdigits (hslash _) _ (Or.inl (by omega))]
  · rw [← List.append_nil y, slashed,
      digits_append hmdigits (hslash _) _ ⟨List.length_pos_iff.mpr hmne, m_short⟩, char_cons,
      digits_append hddigits (hslash _) _ ⟨List.length_pos_iff.mpr hdne, d_short⟩, char_cons,
      digits_append hydigits (by simp) _ ⟨four.ge, four.le⟩, hy, hm, hd]
    rfl

end

/-! ### Letter case -/

theorem isPlain_of_natural? {ds : List Char} {n : Nat} (h : natural? ds = some n) :
    ∀ c ∈ ds, isPlain c = true :=
  fun c hc => isPlain_of_isDigit ((isDigit_of_natural? h).2 c hc)

theorem WritesMonth.plain {month : Nat} {m : List Char} (h : WritesMonth month m) :
    ∀ c ∈ m, isPlain c = true := by
  have hnames : ∀ p ∈ monthKeys.zipIdx 1, p.1.toList.all isPlain = true := by decide +kernel
  have hword {word : List Char} (habbr : Abbreviates month word) : ∀ c ∈ word, isPlain c = true := by
    obtain ⟨⟨name, hname, hbegins⟩, -⟩ := habbr
    exact fun c hc => List.all_eq_true.mp (hnames _ hname) c (hbegins.subset hc)
  cases h with
  | letters habbr => exact hword habbr
  | point habbr =>
      exact List.forall_mem_append.mpr ⟨hword habbr, List.all_eq_true.mp (by decide)⟩

theorem WritesDay.plain {day : Nat} {d : List Char} (h : WritesDay day d) :
    ∀ c ∈ d, isPlain c = true := by
  have hendings : ∀ ending ∈ ordinalEndings, ending.toList.all isPlain = true := by decide
  cases h with
  | digits hday _ hordinal =>
      exact List.forall_mem_append.mpr
        ⟨isPlain_of_natural? hday, List.all_eq_true.mp (hendings _ hordinal)⟩

theorem WritesYear.plain {year : Option Int} {e : List Char} (h : WritesYear year e) :
    ∀ c ∈ e, isPlain c = true := by
  have hyear {year : Nat} {gap ds : List Char} (hds : natural? ds = some year)
      (hblank : ∀ c ∈ gap, isBlank c = true) : ∀ c ∈ gap ++ ds, isPlain c = true :=
    List.forall_mem_append.mpr ⟨fun c hc => isPlain_of_isBlank (hblank c hc),
      isPlain_of_natural? hds⟩
  cases h with
  | absent => exact List.forall_mem_nil _
  | blank hds _ hblank => exact hyear hds hblank
  | comma hds _ hblank => exact List.forall_mem_cons.mpr ⟨by decide, hyear hds hblank⟩

theorem IsLink.plain {link : List Char} (h : IsLink link) : ∀ c ∈ link, isPlain c = true := by
  cases h with
  | none => exact List.forall_mem_nil _
  | of hblank =>
      refine List.forall_mem_append.mpr ⟨List.all_eq_true.mp (by decide), fun c hc => ?_⟩
      exact isPlain_of_isBlank (hblank c hc)

/-- A number is followed by nothing if the text ends in a digit. -/
theorem getLast?_append_digits {ds : List Char} {n : Nat} (h : natural? ds = some n)
    (r : List Char) : ∃ c, (r ++ ds).getLast? = some c ∧ c.isDigit = true := by
  obtain ⟨hne, hdigits⟩ := isDigit_of_natural? h
  refine ⟨ds.getLast hne, ?_, hdigits _ (List.getLast_mem hne)⟩
  rw [List.getLast?_append, List.getLast?_eq_some_getLast hne]
  rfl

theorem WritesYear.getLast?_append {year : Int} {e : List Char} (h : WritesYear (some year) e)
    (r : List Char) : ∃ c, (r ++ e).getLast? = some c ∧ c.isDigit = true := by
  cases h with
  | @blank _ gap ds hds =>
      rw [← List.append_assoc]
      exact getLast?_append_digits hds (r ++ gap)
  | @comma _ gap ds hds =>
      rw [← List.cons_append, ← List.append_assoc]
      exact getLast?_append_digits hds (r ++ ',' :: gap)

namespace SpellsDay

variable {year month day : Nat} {s : List Char} (h : SpellsDay year month day s)
include h

theorem plain : ∀ c ∈ s, isPlain c = true := by
  cases h with
  | hyphens hy hm hd =>
      simp only [List.forall_mem_append, List.forall_mem_cons]
      exact ⟨isPlain_of_natural? hy, by decide, isPlain_of_natural? hm, by decide,
        isPlain_of_natural? hd⟩
  | slashes hy hm hd =>
      simp only [List.forall_mem_append, List.forall_mem_cons]
      exact ⟨isPlain_of_natural? hm, by decide, isPlain_of_natural? hd, by decide,
        isPlain_of_natural? hy⟩
  | monthFirst hm hd hblank _ he =>
      simp only [List.forall_mem_append]
      exact ⟨⟨⟨hm.plain, fun c hc => isPlain_of_isBlank (hblank c hc)⟩, hd.plain⟩, he.plain⟩
  | dayFirst hm hd hblank _ hlink he =>
      simp only [List.forall_mem_append]
      exact ⟨⟨⟨⟨hd.plain, fun c hc => isPlain_of_isBlank (hblank c hc)⟩, hlink.plain⟩,
        hm.plain⟩, he.plain⟩

/-- There are no blanks in front, -/
theorem exists_cons : ∃ c r, s = c :: r ∧ isBlank c = false := by
  have hdigits {ds : List Char} {n : Nat} (hds : natural? ds = some n) (r : List Char) :
      ∃ c r', ds ++ r = c :: r' ∧ isBlank c = false := by
    obtain ⟨hne, hdigits⟩ := natural?_eq_some hds
    obtain ⟨c, ds, rfl⟩ := List.exists_cons_of_ne_nil hne
    exact ⟨c, ds ++ r, rfl, not_isBlank_of_isDecimalDigit (hdigits c List.mem_cons_self)⟩
  cases h with
  | hyphens hy => exact hdigits hy _
  | slashes hy hm => exact hdigits hm _
  | @monthFirst _ gap d e hm =>
      obtain ⟨a, b, c, r, rfl, ha, -⟩ := hm.exists_cons
      exact ⟨a, b :: c :: r ++ gap ++ d ++ e, rfl, (of_isKeywordLetter ha).2.1⟩
  | @dayFirst _ gap link m e _ hd =>
      obtain ⟨c, r, rfl, hc⟩ := hd.exists_cons
      exact ⟨c, r ++ gap ++ link ++ m ++ e, rfl, not_isBlank_of_isDecimalDigit hc⟩

/-- and there is a digit at the end. -/
theorem getLast? : ∃ c, s.getLast? = some c ∧ c.isDigit = true := by
  cases h with
  | @hyphens y m d _ _ hd =>
      have hlast := getLast?_append_digits hd (y ++ '-' :: (m ++ ['-']))
      simpa using hlast
  | @slashes y m d hy =>
      have hlast := getLast?_append_digits hy (m ++ '/' :: (d ++ ['/']))
      simpa using hlast
  | monthFirst _ _ _ _ he => exact he.getLast?_append _
  | dayFirst _ _ _ _ _ he => exact he.getLast?_append _

end SpellsDay

variable {year month day : Nat} {s : List Char}

/-- A spelling is looked up as it stands, but for its capitals. -/
theorem askedKey_of_spellsDay (h : SpellsDay year month day (s.map Char.toLower)) :
    askedKey s = s.map Char.toLower := by
  have hplain : ∀ c ∈ s, isPlain c = true := fun c hc =>
    isPlain_of_toLower (h.plain _ (List.mem_map_of_mem hc))
  obtain ⟨c', r', hcons, hc'⟩ := h.exists_cons
  obtain ⟨c, r, rfl⟩ : ∃ c r, s = c :: r :=
    List.exists_cons_of_ne_nil fun hnil => by simp [hnil] at hcons
  have hhead : isBlank c = false := by
    obtain ⟨rfl, -⟩ := List.cons.inj hcons
    rwa [isBlank_toLower] at hc'
  obtain ⟨d', hlast, hdigit⟩ := h.getLast?
  rw [List.getLast?_map, Option.map_eq_some_iff] at hlast
  obtain ⟨d, hlast, rfl⟩ := hlast
  have hblank : isBlank d = false := by
    rw [← isBlank_toLower]
    exact not_isBlank_of_isDigit hdigit
  have hmark : ∀ e ∈ (c :: r).getLast?, decide (e = '?') = false := by
    intro e he
    obtain rfl := Option.some.inj (hlast.symm.trans he)
    refine decide_eq_false ?_
    rintro rfl
    cases hdigit
  have htrim : trim (c :: r) = c :: r := trim_of_ends rfl hhead hlast hblank
  rw [askedKey, htrim, dropEndWhile_of_getLast? hmark, htrim, lower_eq_map_toLower hplain]

/-- **All spellings of a day are read as that day.** -/
theorem date_of_spelling (h : SpellsDay year month day (s.map Char.toLower)) (today : Date)
    (future : Bool) (date : Date) :
    typedDate? today future s = some date ↔
      date.year = year ∧ date.month = month ∧ date.day = day := by
  rw [← Date.of?_eq_some_iff]
  have hkey := askedKey_of_spellsDay h
  have hdigit : ∃ c ∈ askedKey s, isDecimalDigit c = true := by
    obtain ⟨c, hlast, hc⟩ := h.getLast?
    refine ⟨c, hkey ▸ List.mem_of_getLast? hlast, ?_⟩
    rw [isDecimalDigit, hc, Bool.true_or]
  generalize s.map Char.toLower = key at h hkey
  have hread : typedDate? today future s = Date.of? year month day := by
    cases h with
    | hyphens hy hm hd four m_short d_short =>
        rw [typedDate?_of_digit today future hdigit, hkey,
          hyphenated_eq hy hm hd four m_short d_short]
        rfl
    | slashes hy hm hd four m_short d_short =>
        obtain ⟨hnone, hread⟩ := slashed_eq hy hm hd four m_short d_short
        rw [typedDate?_of_digit today future hdigit, hkey, hnone, hread]
        rfl
    | monthFirst hm hd hblank hne he =>
        exact typedDate?_of_monthFirst hm hd hblank hne he today future hkey
    | dayFirst hm hd hblank hne hlink he =>
        exact typedDate?_of_dayFirst hm hd hblank hne he today future hlink hkey
  rw [hread]

/-- The 29th of February of a leap year. -/
def leapDay : Date :=
  ⟨2028, 2, 29, by decide, by decide⟩

/-- The four spellings of a day that exists, and one of a day that does not. -/
theorem date_of_spelling_leap :
    (∀ s ∈ ["2028-02-29", "2/29/2028", "FEB. 29th, 2028", "29 of February 2028"],
      typedDate? leapDay true s.toList = some leapDay) ∧
    typedDate? leapDay true "Feb 29, 2027".toList = none := by
  have hyear : natural? "2028".toList = some 2028 := by decide
  have hdays : natural? "29".toList = some 29 := by decide
  have hday (ending : String) (h : ending ∈ ordinalEndings) :
      WritesDay 29 ("29".toList ++ ending.toList) := .digits hdays (by decide) h
  have habbr : Abbreviates 2 "feb".toList := ⟨⟨"february", by decide, by decide⟩, by decide⟩
  have hspells : ∀ s ∈ ["2028-02-29", "2/29/2028", "FEB. 29th, 2028", "29 of February 2028"],
      SpellsDay 2028 2 29 (s.toList.map Char.toLower) := by
    simp only [List.forall_mem_cons]
    refine ⟨?hyphens, ?slashes, ?monthFirst, ?dayFirst, List.forall_mem_nil _⟩
    case hyphens =>
      exact .hyphens (m := "02".toList) hyear (by decide) hdays rfl (by decide) (by decide)
    case slashes =>
      exact .slashes (m := "2".toList) hyear (by decide) hdays rfl (by decide) (by decide)
    case monthFirst =>
      exact .monthFirst (.point habbr) (hday "th" (by decide)) isBlank_of_mem_space (by decide)
        (.comma hyear rfl isBlank_of_mem_space (by decide))
    case dayFirst =>
      exact .dayFirst (.letters ⟨⟨"february", by decide, List.prefix_rfl⟩, by decide⟩)
        (hday "" (by decide)) isBlank_of_mem_space (by decide) (.of isBlank_of_mem_space (by decide))
        (.blank hyear rfl isBlank_of_mem_space (by decide))
  refine ⟨fun s hs => (date_of_spelling (hspells s hs) leapDay true leapDay).mpr ⟨rfl, rfl, rfl⟩, ?_⟩
  have hother : natural? "2027".toList = some 2027 := by decide
  have hcommon : SpellsDay 2027 2 29 ("Feb 29, 2027".toList.map Char.toLower) :=
    .monthFirst (.letters habbr) (hday "" (by decide)) isBlank_of_mem_space (by decide)
      (.comma hother rfl isBlank_of_mem_space (by decide))
  rw [Option.eq_none_iff_forall_ne_some]
  intro d hd
  obtain ⟨hyear, hmonth, hday⟩ := (date_of_spelling hcommon leapDay true d).mp hd
  have hlength := d.inMonth.2
  rw [hmonth, hday, hyear] at hlength
  exact absurd hlength (by decide)

end Composer.Calendar
