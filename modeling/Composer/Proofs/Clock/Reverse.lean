import Composer.Proofs.Clock.Conversion
/-!
# Composer.Proofs.Clock.Reverse

**A conversion the other way round.** The times and the names that a conversion shows can be typed
again: the time that was found, in the zone that was asked for, is the first time in the first zone,
as many days before as it was after (`detect_reverse`). There is one exception. A name with an accent
is looked up when it is asked for, but no word between the zones is read behind it.
-/

namespace Composer.Clock

open Text

/-! ### Up to the word between the zones -/

/-- A character that stands before the word between the zones. -/
def leadsIn (c : Char) : Bool :=
  isDecimalDigit c || c = ':' || isBlank c || inZoneName c

/-- What is read has a word between the zones, and only digits, names and blanks before it. -/
def Connects {β : Type} (k : Reading β) : Prop :=
  ∀ s b, k s = some b →
    ∃ u c v, s = u ++ c :: v ∧ (∀ d ∈ u, leadsIn d = true) ∧ beginsConnective c = true

section

variable {β γ : Type} {k : Reading β}

theorem Connects.append (h : Connects k) {taken rest : List Char} {b : β}
    (htaken : ∀ d ∈ taken, leadsIn d = true) (hk : k rest = some b) :
    ∃ u c v, taken ++ rest = u ++ c :: v ∧ (∀ d ∈ u, leadsIn d = true) ∧
      beginsConnective c = true := by
  obtain ⟨u, c, v, rfl, hu, hc⟩ := h rest b hk
  refine ⟨taken ++ u, c, v, (List.append_assoc _ _ _).symm, ?_, hc⟩
  exact fun d hd => (List.mem_append.mp hd).elim (htaken d) (hu d)

theorem connects_connectives (k : List Char → Reading β) :
    Connects (keywordAmong connectives k) := by
  intro s b hs
  cases s with
  | nil => cases hs
  | cons c s =>
      refine ⟨[], c, s, rfl, by simp, ?_⟩
      by_contra hc
      rw [keywordAmong_connectives (by simpa using hc)] at hs
      cases hs

theorem Connects.blanks (h : Connects k) : Connects (blanks k) := by
  intro s b hs
  obtain ⟨ws, rest, hws, -, rfl, hk⟩ := blanks_eq_some hs
  exact h.append (fun d hd => by simp [leadsIn, hws d hd]) hk

theorem Connects.maybeBlanks (h : Connects k) : Connects (maybeBlanks k) := by
  intro s b hs
  obtain ⟨ws, rest, hws, rfl, hk⟩ := maybeBlanks_eq_some hs
  exact h.append (fun d hd => by simp [leadsIn, hws d hd]) hk

theorem Connects.shortest (h : Connects k) : Connects (shortest inZoneName k) := by
  rintro s ⟨taken, b⟩ hs
  obtain ⟨hclass, rest, rfl, hk⟩ := shortest_eq_some hs
  exact h.append (fun d hd => by simp [leadsIn, hclass d hd]) hk

theorem Connects.keyword {word : String} (hword : ∀ c ∈ word.toList, c.isLower = true)
    (h : Connects k) : Connects (keyword word k) := by
  intro s b hs
  obtain ⟨taken, rest, rfl, hfold, hk⟩ := keyword_eq_some hs
  refine h.append (fun d hd => ?_) hk
  have hletter : isKeywordLetter d = true := by
    refine hword (fold d) ?_
    rw [← hfold]
    exact List.mem_map_of_mem hd
  simp [leadsIn, inZoneName, hletter]

theorem Connects.char {c : Char} (hc : leadsIn c = true) (h : Connects k) :
    Connects (Text.char c k) := by
  intro s b hs
  obtain ⟨rest, rfl, hk⟩ := char_eq_some hs
  have htaken : ∀ d ∈ [c], leadsIn d = true := by simpa using hc
  exact h.append htaken hk

theorem Connects.exactly {n : Nat} {k : List Char → Reading β} (h : ∀ ds, Connects (k ds)) :
    Connects (exactly n isDecimalDigit k) := by
  intro s b hs
  rw [Text.exactly] at hs
  split at hs
  · next hdigits =>
    rw [← List.take_append_drop n s]
    refine (h _).append (fun d hd => ?_) hs
    simp [leadsIn, List.all_eq_true.mp hdigits.2 d hd]
  · cases hs

theorem Connects.digits {least most : Nat} {k : List Char → Reading β} (h : ∀ ds, Connects (k ds)) :
    Connects (digits least most k) := by
  intro s b hs
  rw [Text.digits, run] at hs
  split at hs
  · rw [← List.takeWhile_append_dropWhile (p := isDecimalDigit) (l := s)]
    refine (h _).append (fun d hd => ?_) hs
    simp [leadsIn, List.mem_takeWhile_imp hd]
  · cases hs

theorem Connects.map (h : Connects k) (f : β → γ) : Connects fun s => (k s).map f := by
  intro s b hs
  obtain ⟨b, hb, -⟩ := Option.map_eq_some_iff.mp hs
  exact h s b hb

theorem Connects.firstOf {ways : List (Reading β)} (h : ∀ way ∈ ways, Connects way) :
    Connects (firstOf ways) := by
  intro s b hs
  obtain ⟨way, hway, hs⟩ := firstOf_eq_some hs
  exact h way hway s b hs

end

theorem connects_zoneNames : Connects zoneNames := by
  have hsecond : Connects secondZone := (connects_connectives _).blanks
  intro s b hs
  cases s with
  | nil => cases hs
  | cons c s =>
      rw [zoneNames_cons] at hs
      split at hs
      · exact hsecond.shortest _ b hs
      · cases hs

theorem connects_zonesAfter (hour : List Char) (minute : Option (List Char)) :
    Connects (zonesAfter hour minute) := by
  have hzones (afternoon : Option Bool) : Connects (zonesWith hour minute afternoon) :=
    (connects_zoneNames.map _).blanks
  have hword (afternoon : Bool) : Connects (zonesAfterWord hour minute afternoon) := by
    refine (hzones _).keyword (List.all_eq_true.mp ?_)
    cases afternoon <;> decide
  rw [zonesAfter_eq]
  refine (Connects.firstOf ?_).maybeBlanks
  simp only [List.forall_mem_cons]
  exact ⟨hword false, hword true, hzones none, by simp⟩

/-- A phrase about a time of day has a word between the zones. -/
theorem connects_timePhrase : Connects timePhrase := by
  rw [timePhrase_eq]
  refine .digits fun hour => .firstOf ?_
  simp only [List.forall_mem_cons]
  refine ⟨.char (by decide) (.exactly fun minute => connects_zonesAfter hour (some minute)),
    connects_zonesAfter hour none, by simp⟩

/-- No phrase about a time of day goes on behind a strange character before the word. -/
theorem timePhrase_eq_none {before : List Char} {c : Char} (hc : leadsIn c = false)
    (hstart : beginsConnective c = false)
    (hbefore : ∀ d ∈ before, beginsConnective d = false) (rest : List Char) :
    timePhrase (before ++ c :: rest) = none := by
  rw [Option.eq_none_iff_forall_ne_some]
  intro q hq
  obtain ⟨u, d, v, hsplit, hu, hd⟩ := connects_timePhrase _ _ hq
  rcases List.append_eq_append_iff.mp hsplit with ⟨w, rfl, hrest⟩ | ⟨w, rfl, hrest⟩
  · cases w with
    | nil =>
        obtain rfl : c = d := (List.cons.inj hrest).1
        rw [hd] at hstart
        cases hstart
    | cons e w =>
        obtain rfl : c = e := (List.cons.inj hrest).1
        rw [hu c (by simp)] at hc
        cases hc
  · cases w with
    | nil =>
        obtain rfl : d = c := (List.cons.inj hrest).1
        rw [hd] at hstart
        cases hstart
    | cons e w =>
        obtain rfl : d = e := (List.cons.inj hrest).1
        have hbegins := hbefore d (by simp)
        rw [hd] at hbegins
        cases hbegins

/-! ### Times and zones exchanged -/

theorem not_beginsConnective_of_all {s : List Char} (h : s.all (!beginsConnective ·) = true) :
    ∀ d ∈ s, beginsConnective d = false := by
  simpa using h

/-- Nothing that a time shows begins a word between the zones. -/
theorem not_beginsConnective_timeChars (minutes : Nat) :
    ∀ d ∈ timeChars minutes, beginsConnective d = false := by
  have hdigit {d : Char} (hd : d.isDigit = true) : beginsConnective d = false := by
    have hletter : (fold d).isLower = false :=
      not_isKeywordLetter_of_isDecimalDigit (by rw [isDecimalDigit, hd, Bool.true_or])
    rw [beginsConnective, Bool.or_eq_false_iff, decide_eq_false_iff_not, decide_eq_false_iff_not]
    constructor <;> intro h <;> rw [h] at hletter <;> cases hletter
  have hhalf : ∀ d ∈ " AM".toList ++ " PM".toList, beginsConnective d = false :=
    not_beginsConnective_of_all (by decide)
  intro d hd
  simp only [timeChars, List.mem_append, List.mem_cons] at hd
  rcases hd with (hd | rfl | hd) | hd
  · exact hdigit (Decimal.isDigit_of_mem_digitsOf hd)
  · rfl
  · exact hdigit (Decimal.isDigit_of_mem_padded hd)
  · refine hhalf d ?_
    split at hd
    · exact List.mem_append_left _ hd
    · exact List.mem_append_right _ hd

/-- The way back from the second zone to the first one. -/
theorem between_reverse {m : Nat} (hm : m < minutesPerDay) {a b a' b' : Zone}
    (ha : a'.offset = a.offset) (hb : b'.offset = b.offset) {c : Nat}
    (hc : ((m - a.offset + b.offset) % minutesPerDay).toNat = c) :
    (Conversion.between c b' a').convertedTime = some (timeText m) ∧
      (Conversion.between c b' a').dayOffset = -(Conversion.between m a b).dayOffset := by
  have hthere : (c - b'.offset + a'.offset) % minutesPerDay = m ∧
      (c - b'.offset + a'.offset) / minutesPerDay =
        -((m - a.offset + b.offset) / (minutesPerDay : Int)) := by
    rw [ha, hb, ← hc]
    unfold minutesPerDay at hm ⊢
    omega
  obtain ⟨htime, hdays⟩ := hthere
  refine ⟨?_, hdays⟩
  rw [Conversion.between, htime]
  rfl

/-- In front of the word between the zones the name with an accent is not read. -/
theorem detect_sao_paulo (now : Int) {minutes : Nat} (hminutes : minutes < minutesPerDay)
    {target : List Char} (htarget : canBeTarget target = true) :
    detect now (timeChars minutes ++
      ' ' :: ("São Paulo".toList ++ ' ' :: ("in".toList ++ ' ' :: target))) = none := by
  have hbefore : ∀ d ∈ timeChars minutes ++ " S".toList, beginsConnective d = false := by
    have hstart := not_beginsConnective_of_all (s := " S".toList) (by decide)
    exact fun d hd =>
      (List.mem_append.mp hd).elim (not_beginsConnective_timeChars minutes d) (hstart d)
  have hnone : timePhrase (timeChars minutes ++ " São Paulo in ".toList ++ target) = none := by
    have hread := timePhrase_eq_none (c := 'ã') (by decide +kernel) (by decide) hbefore
      ("o Paulo in ".toList ++ target)
    rw [← hread]
    simp
  have htext : timeChars minutes ++
      ' ' :: ("São Paulo".toList ++ ' ' :: ("in".toList ++ ' ' :: target)) =
        timeChars minutes ++ " São Paulo in ".toList ++ target := by
    simp
  rw [htext, detect_of_writesTime now (writesTime_timeChars hminutes) htarget, hnone]
  rfl

/-- **A conversion that is shown can be typed the other way round**, but for the name that cannot be
read in front of the word between the zones. -/
theorem detect_reverse (now now' : Int) {input : List Char} {r : Conversion}
    (h : detect now input = some r) (hcomplete : r.isPartial = false)
    {sourceTime source target convertedTime : String} (hsourceTime : r.sourceTime = some sourceTime)
    (hsource : r.source = some source) (htarget : r.target = some target)
    (hconvertedTime : r.convertedTime = some convertedTime) :
    (target ≠ "São Paulo" → ∃ r',
      detect now' (convertedTime ++ " " ++ target ++ " in " ++ source).toList = some r' ∧
        r'.isPartial = false ∧ r'.source = some target ∧ r'.target = some source ∧
        r'.sourceTime = some convertedTime ∧ r'.convertedTime = some sourceTime ∧
        r'.dayOffset = -r.dayOffset) ∧
    (target = "São Paulo" →
      detect now' (convertedTime ++ " " ++ target ++ " in " ++ source).toList = none) := by
  obtain ⟨a, ha, b, hb, m, hm, rfl⟩ := detect_complete h hcomplete (by rw [hsourceTime]; rfl)
  obtain ⟨c, hc, hthere, -⟩ := between_balance hm ha hb
  obtain rfl : a.name = source := Option.some.inj hsource
  obtain rfl : b.name = target := Option.some.inj htarget
  obtain rfl : timeText m = sourceTime := Option.some.inj hsourceTime
  obtain rfl : timeText c = convertedTime := by
    rw [← hthere]
    exact Option.some.inj hconvertedTime
  have htext : (timeText c ++ " " ++ b.name ++ " in " ++ a.name).toList =
      timeChars c ++ ' ' :: (b.name.toList ++ ' ' :: ("in".toList ++ ' ' :: a.name.toList)) := by
    simp [timeText]
  rw [htext]
  constructor
  · intro hname
    obtain ⟨a', htypeda, hnamea, hoffseta⟩ := exists_typed?_name ha
    obtain ⟨b', htypedb, hnameb, hoffsetb⟩ := exists_typed?_name hb
    obtain ⟨-, htargeta, -⟩ := zones_name a ha
    obtain ⟨-, -, hsourceb, -⟩ := zones_name b hb
    obtain ⟨htime, hdays⟩ := between_reverse hm hoffseta hoffsetb hthere
    refine ⟨Conversion.between c b' a', ?_, rfl, congrArg some hnameb, congrArg some hnamea, rfl,
      htime, hdays⟩
    rw [detect_asked now' (writesTime_timeChars hc) (hsourceb.resolve_left hname) htargeta
      (by decide), htypedb, htypeda]
    rfl
  · intro hname
    obtain ⟨-, htargeta, -⟩ := zones_name a ha
    rw [hname]
    exact detect_sao_paulo now' hc htargeta

/-- From New York to Tokyo and back, and to São Paulo with no way back. -/
theorem detect_reverse_from_est :
    (∃ r, detect 0 "5:00 AM Tokyo in EST".toList = some r ∧ r.convertedTime = some "3:00 PM" ∧
      r.dayOffset = -1) ∧
    detect 0 "5:00 PM São Paulo in EST".toList = none := by
  constructor
  · have hdetect : detect 0 "3pm est in tokyo".toList = some
        (Conversion.between 900 ⟨"est", "EST", -300⟩ ⟨"tokyo", "Tokyo", 540⟩) := by decide +kernel
    have hsourceTime : some (timeText 900) = some "3:00 PM" := by decide +kernel
    have hconvertedTime : some (timeText 300) = some "5:00 AM" := by decide +kernel
    have htext : ("5:00 AM" ++ " " ++ "Tokyo" ++ " in " ++ "EST").toList =
        "5:00 AM Tokyo in EST".toList := by decide +kernel
    obtain ⟨r, hreverse, -, -, -, -, htime, hdays⟩ :=
      (detect_reverse 0 0 hdetect rfl hsourceTime rfl rfl hconvertedTime).1 (by decide)
    rw [htext] at hreverse
    exact ⟨r, hreverse, htime, hdays⟩
  · have hdetect : detect 0 "3pm est in são paulo".toList = some
        (Conversion.between 900 ⟨"est", "EST", -300⟩ ⟨"são paulo", "São Paulo", -180⟩) := by
      decide +kernel
    have hsourceTime : some (timeText 900) = some "3:00 PM" := by decide +kernel
    have hconvertedTime : some (timeText 1020) = some "5:00 PM" := by decide +kernel
    have htext : "5:00 PM São Paulo in EST".toList =
        ("5:00 PM" ++ " " ++ "São Paulo" ++ " in " ++ "EST").toList := by decide +kernel
    rw [htext]
    exact (detect_reverse 0 0 hdetect rfl hsourceTime rfl rfl hconvertedTime).2 rfl

end Composer.Clock
