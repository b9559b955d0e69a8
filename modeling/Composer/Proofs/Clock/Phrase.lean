import Composer.Clock.Conversion
import Composer.Proofs.Clock.Time
import Composer.Proofs.Text.Phrase
/-!
# Composer.Proofs.Clock.Phrase

**A time of the day in another zone.** The phrase gives the time, the zone that it belongs to and the
zone that is asked for. The first zone is read up to the word between the zones, so its name must
not have a word inside that begins like that word (`canBeSource`). What is typed with such a name is
converted (`detect_asked`).
-/

namespace Composer.Clock

open Text

/-! ### The first zone -/

/-- The words between the zones. -/
def connectives : List String :=
  ["in", "to", "into"]

/-- They begin like this. -/
def beginsConnective (c : Char) : Bool :=
  fold c = 'i' || fold c = 't'

theorem keywordAmong_connectives {β : Type} {c : Char} (hc : beginsConnective c = false)
    (k : List Char → Reading β) (s : List Char) : keywordAmong connectives k (c :: s) = none := by
  obtain ⟨hi, ht⟩ : fold c ≠ 'i' ∧ fold c ≠ 't' := by simpa [beginsConnective] using hc
  calc keywordAmong ["in", "to", "into"] k (c :: s)
      = keywordAmong ["to", "into"] k (c :: s) := keywordAmong_cons_of_ne rfl hi _ _ _
    _ = keywordAmong ["into"] k (c :: s) := keywordAmong_cons_of_ne rfl ht _ _ _
    _ = keywordAmong [] k (c :: s) := keywordAmong_cons_of_ne rfl hi _ _ _
    _ = none := rfl

/-- No word of the name but the first one begins like a word between the zones, and the last
character is no blank. -/
def holdsTogether : List Char → Bool
  | [] => true
  | [c] => !isBlank c
  | c :: d :: s =>
    (!isBlank c || (!isBlank d && !beginsConnective d)) && holdsTogether (d :: s)

/-- The name does not begin with a half of the day. -/
def beginsNoHalf : List Char → Bool
  | a :: b :: s => !(fold b = 'm' && (fold a = 'a' || fold a = 'p')) || s.head?.any (!isBlank ·)
  | _ => false

/-- The name of a zone is read in front of the word between the zones. -/
def canBeSource (name : List Char) : Bool :=
  name.all inZoneName && name.head?.any isKeywordLetter && holdsTogether name && beginsNoHalf name

theorem of_canBeSource {name : List Char} (h : canBeSource name = true) :
    (∃ c s, name = c :: s ∧ isKeywordLetter c = true) ∧ (∀ c ∈ name, inZoneName c = true) ∧
      holdsTogether name = true ∧ beginsNoHalf name = true := by
  rw [canBeSource, Bool.and_eq_true, Bool.and_eq_true, Bool.and_eq_true, List.all_eq_true,
    Option.any_eq_true] at h
  obtain ⟨⟨⟨hclass, c, hc, hletter⟩, htogether⟩, hhalf⟩ := h
  obtain ⟨s, rfl⟩ := List.head?_eq_some_iff.mp hc
  exact ⟨⟨c, s, rfl, hletter⟩, hclass, htogether, hhalf⟩

/-- The second zone, if it is there. -/
def zoneAtEnd : Reading (Option (List Char)) :=
  firstOf [blanks <| lineToEnd fun name => some (some name), stop none]

/-- The word between the zones and what is behind it. -/
def secondZone : Reading (Option (List Char)) :=
  blanks <| keywordAmong connectives fun _ => zoneAtEnd

theorem zoneNames_cons (c : Char) (s : List Char) : zoneNames (c :: s) =
    if isKeywordLetter c then shortest inZoneName secondZone (c :: s) else none := rfl

theorem holdsTogether_of_cons {c : Char} {s : List Char} (h : holdsTogether (c :: s) = true) :
    holdsTogether s = true := by
  cases s with
  | nil => rfl
  | cons d s =>
      rw [holdsTogether, Bool.and_eq_true] at h
      exact h.2

/-- Behind a blank no word between the zones begins. -/
theorem of_holdsTogether_blank {c : Char} {s : List Char} (h : holdsTogether (c :: s) = true)
    (hc : isBlank c = true) :
    ∃ d s', s = d :: s' ∧ isBlank d = false ∧ beginsConnective d = false := by
  cases s with
  | nil => simp [holdsTogether, hc] at h
  | cons d s =>
      rw [holdsTogether, Bool.and_eq_true, hc] at h
      exact ⟨d, s, rfl, by simpa using h.1⟩

/-- No word between the zones is read inside a name that holds together. -/
theorem secondZone_of_holdsTogether {u v : List Char} (h : holdsTogether (u ++ v) = true)
    (hv : v ≠ []) (r : List Char) : secondZone (v ++ r) = none := by
  induction u with
  | cons c u ih => exact ih (holdsTogether_of_cons h)
  | nil =>
      obtain ⟨c, v, rfl⟩ := List.exists_cons_of_ne_nil hv
      by_cases hc : isBlank c = true
      · obtain ⟨d, v, rfl, hd, hbegins⟩ := of_holdsTogether_blank h hc
        rw [secondZone, List.cons_append, blanks, if_pos hc, List.cons_append,
          blanks_of_not_isBlank hd, keywordAmong_connectives hbegins]
        rfl
      · exact blanks_of_not_isBlank (by simpa using hc) _ _

/-! ### The second zone -/

/-- The name of a zone is read behind the word between the zones. -/
def canBeTarget (name : List Char) : Bool :=
  name.head?.any (!isBlank ·) && name.getLast?.any (!isBlank ·) && !name.contains '\n'

theorem of_canBeTarget {name : List Char} (h : canBeTarget name = true) :
    (∃ c s, name = c :: s ∧ isBlank c = false) ∧
      (∃ d, name.getLast? = some d ∧ isBlank d = false) ∧ '\n' ∉ name := by
  rw [canBeTarget, Bool.and_eq_true, Bool.and_eq_true, Option.any_eq_true, Option.any_eq_true] at h
  obtain ⟨⟨⟨c, hc, hhead⟩, d, hd, hlast⟩, hline⟩ := h
  obtain ⟨s, rfl⟩ := List.head?_eq_some_iff.mp hc
  exact ⟨⟨c, s, rfl, by simpa using hhead⟩, ⟨d, hd, by simpa using hlast⟩, by simpa using hline⟩

theorem zoneAtEnd_append {name : List Char} (h : canBeTarget name = true) :
    zoneAtEnd (' ' :: name) = some (some name) := by
  obtain ⟨⟨c, s, rfl, hblank⟩, -, hline⟩ := of_canBeTarget h
  exact lineAtEnd_append isBlank_of_mem_space (by simp) rfl hblank hline

/-- A word between the zones is read as it is typed. -/
theorem keywordAmong_connectives_append {word : String} (hword : word ∈ connectives)
    {name : List Char} (hname : canBeTarget name = true) :
    keywordAmong connectives (fun _ => zoneAtEnd) (word.toList ++ ' ' :: name) =
      some (some name) := by
  have hlower : ∀ word ∈ connectives, ∀ c ∈ word.toList, c.isLower = true := by
    simp [connectives]
  have hfold : ∀ word ∈ connectives, word.toList.map fold = word.toList := by decide
  have hletters : ∀ c ∈ word.toList, isKeywordLetter c = true := by
    intro c hc
    have hc := hlower word hword c hc
    rw [isKeywordLetter, fold_of_isLower hc, hc]
  have hstop : ∀ c ∈ (' ' :: name).head?, isKeywordLetter c = false := by
    intro c hc
    obtain rfl := Option.some.inj hc
    rfl
  exact (keywordAmong_eq_some_iff hlower endsWord_lineAtEnd hletters hstop).mpr
    ⟨⟨word, hword, hfold word hword⟩, zoneAtEnd_append hname⟩

theorem secondZone_append {word : String} (hword : word ∈ connectives) {name : List Char}
    (hname : canBeTarget name = true) :
    secondZone (' ' :: (word.toList ++ ' ' :: name)) = some (some name) := by
  have hread := keywordAmong_connectives_append hword hname
  have hhead : ∀ c ∈ (word.toList ++ ' ' :: name).head?, isBlank c = false := by
    have hwords : ∀ word ∈ connectives, word.toList.head?.any (!isBlank ·) = true := by decide
    obtain ⟨c, hc, hblank⟩ := (Option.any_eq_true _ _).mp (hwords word hword)
    obtain ⟨s, hcons⟩ := List.head?_eq_some_iff.mp hc
    rw [hcons]
    rintro _ ⟨⟩
    simpa using hblank
  rw [secondZone, ← List.singleton_append, blanks_append isBlank_of_mem_space (by simp) hhead
    (Or.inr (by rw [hread]; rfl)), hread]

/-- Both zones are read. -/
theorem zoneNames_append {source target : List Char} (hsource : canBeSource source = true)
    (htarget : canBeTarget target = true) {word : String} (hword : word ∈ connectives) :
    zoneNames (source ++ ' ' :: (word.toList ++ ' ' :: target)) = some (source, some target) := by
  obtain ⟨⟨c, s, rfl, hletter⟩, hclass, htogether, -⟩ := of_canBeSource hsource
  rw [List.cons_append, zoneNames_cons, if_pos hletter, ← List.cons_append]
  refine shortest_append hclass (List.cons_ne_nil c s) ?_
    (secondZone_append hword htarget)
  intro u v huv _ hv
  exact secondZone_of_holdsTogether (huv ▸ htogether) hv _

/-! ### The time -/

/-- The zones behind a time. -/
def zonesWith (hour : List Char) (minute : Option (List Char)) (afternoon : Option Bool) :
    Reading Request :=
  blanks fun s => (zoneNames s).map fun names => ⟨hour, minute, afternoon, names.1, names.2⟩

/-- The half of the day with the zones behind it. -/
def zonesAfterWord (hour : List Char) (minute : Option (List Char)) (afternoon : Bool) :
    Reading Request :=
  keyword (halfWord afternoon) (zonesWith hour minute (some afternoon))

/-- The ways to go on behind the hour and the minutes. -/
def zonesAfterHalf (hour : List Char) (minute : Option (List Char)) : Reading Request :=
  firstOf [zonesAfterWord hour minute false, zonesAfterWord hour minute true,
    zonesWith hour minute none]

theorem zonesAfterHalf_of_eq_none {hour : List Char} {minute : Option (List Char)} {s : List Char}
    (h : ∀ afternoon, zonesAfterWord hour minute afternoon s = none) :
    zonesAfterHalf hour minute s = zonesWith hour minute none s := by
  rw [zonesAfterHalf, firstOf_of_eq_none (h false), firstOf_of_eq_none (h true)]
  cases hs : zonesWith hour minute none s with
  | none => rw [firstOf_of_eq_none hs]; rfl
  | some => exact firstOf_of_eq_some hs []

theorem zonesAfter_eq (hour : List Char) (minute : Option (List Char)) :
    zonesAfter hour minute = maybeBlanks (zonesAfterHalf hour minute) := rfl

theorem timePhrase_eq : timePhrase = digits 1 2 fun hour => firstOf [
    Text.char ':' <| exactly 2 isDecimalDigit fun minute => zonesAfter hour (some minute),
    zonesAfter hour none] := rfl

/-- The half of the day has two letters. -/
theorem of_halfWord {half : List Char} {afternoon : Bool}
    (h : half.map fold = (halfWord afternoon).toList) :
    ∃ a b, half = [a, b] ∧ fold a = (if afternoon then 'p' else 'a') ∧ fold b = 'm' := by
  obtain ⟨a, b, rfl⟩ : ∃ a b, half = [a, b] := by
    refine List.length_eq_two.mp ?_
    rw [← List.length_map (f := fold), h]
    cases afternoon <;> rfl
  refine ⟨a, b, rfl, ?_⟩
  cases afternoon <;> simpa [halfWord] using h

theorem isKeywordLetter_of_halfWord {c : Char} {afternoon : Bool}
    (h : fold c = if afternoon then 'p' else 'a') : isKeywordLetter c = true := by
  rw [isKeywordLetter, h]
  cases afternoon <;> rfl

/-- A name that begins with a half of the day goes on in the same word. -/
theorem of_beginsNoHalf {a b : Char} {s : List Char} (h : beginsNoHalf (a :: b :: s) = true)
    {afternoon : Bool} (ha : fold a = if afternoon then 'p' else 'a') (hb : fold b = 'm') :
    ∃ c s', s = c :: s' ∧ isBlank c = false := by
  have hhalf : (decide (fold b = 'm') && (decide (fold a = 'a') || decide (fold a = 'p'))) = true := by
    rw [ha, hb]
    cases afternoon <;> rfl
  rw [beginsNoHalf, hhalf, Bool.not_true, Bool.false_or, Option.any_eq_true] at h
  obtain ⟨c, hc, hblank⟩ := h
  obtain ⟨s', rfl⟩ := List.head?_eq_some_iff.mp hc
  exact ⟨c, s', rfl, by simpa using hblank⟩

/-- No half of the day is read at the front of a name. -/
theorem zonesAfterWord_of_beginsNoHalf {name : List Char} (h : beginsNoHalf name = true)
    (hour : List Char) (minute : Option (List Char)) (afternoon : Bool) (r : List Char) :
    zonesAfterWord hour minute afternoon (name ++ r) = none := by
  rw [Option.eq_none_iff_forall_ne_some]
  intro q hq
  obtain ⟨taken, rest, hsplit, hfold, hzones⟩ := keyword_eq_some hq
  obtain ⟨a, b, rfl, ha, hb⟩ := of_halfWord hfold
  obtain ⟨ws, names, hws, hne, rfl, -⟩ := blanks_eq_some hzones
  obtain ⟨c, ws, rfl⟩ := List.exists_cons_of_ne_nil hne
  have hc : isBlank c = true := hws c List.mem_cons_self
  cases name with
  | nil => cases h
  | cons x name =>
    cases name with
    | nil => cases h
    | cons y s =>
      obtain ⟨rfl, rfl, hs⟩ : x = a ∧ y = b ∧ s ++ r = c :: (ws ++ names) := by
        simpa using hsplit
      obtain ⟨d, s', rfl, hd⟩ := of_beginsNoHalf h ha hb
      obtain rfl : d = c := (List.cons.inj hs).1
      rw [hc] at hd
      cases hd

/-- The digits in front of the half of the day stop there. -/
theorem stops_append_halfWord {gap half : List Char} (hgap : ∀ c ∈ gap, isBlank c = true)
    {afternoon : Bool} (hhalf : half.map fold = (halfWord afternoon).toList) (r : List Char) :
    ∀ c ∈ (gap ++ (half ++ r)).head?, isDecimalDigit c = false ∧ c ≠ ':' := by
  cases gap with
  | nil =>
      obtain ⟨a, b, rfl, ha, -⟩ := of_halfWord hhalf
      rintro _ ⟨⟩
      have hletter := isKeywordLetter_of_halfWord ha
      refine ⟨not_isDecimalDigit_of_isKeywordLetter hletter, ?_⟩
      rintro rfl
      cases hletter
  | cons c gap =>
      rintro _ ⟨⟩
      have hc := hgap c List.mem_cons_self
      refine ⟨isDecimalDigit_of_isBlank hc, ?_⟩
      rintro rfl
      cases hc

section

variable {source target : List Char} (hsource : canBeSource source = true)
  (htarget : canBeTarget target = true) {word : String} (hword : word ∈ connectives)
  (hour : List Char) (minute : Option (List Char))
include hsource htarget hword

theorem zonesWith_append (half : Option Bool) :
    zonesWith hour minute half (' ' :: (source ++ ' ' :: (word.toList ++ ' ' :: target))) =
      some ⟨hour, minute, half, source, some target⟩ := by
  have hnames := zoneNames_append hsource htarget hword
  obtain ⟨⟨c, s, rfl, hletter⟩, -⟩ := of_canBeSource hsource
  have hc := (of_isKeywordLetter hletter).2.1
  rw [zonesWith, ← List.singleton_append, blanks_append isBlank_of_mem_space (by simp)
    (by simpa using hc) (Or.inr (by rw [hnames]; rfl)), hnames]
  rfl

/-- Without a half of the day. -/
theorem zonesAfter_append :
    zonesAfter hour minute (' ' :: (source ++ ' ' :: (word.toList ++ ' ' :: target))) =
      some ⟨hour, minute, none, source, some target⟩ := by
  have hzones := zonesWith_append hsource htarget hword hour minute none
  obtain ⟨⟨c, s, rfl, hletter⟩, -, -, hhalf⟩ := of_canBeSource hsource
  have hc := (of_isKeywordLetter hletter).2.1
  have hname : zonesAfterHalf hour minute (c :: s ++ ' ' :: (word.toList ++ ' ' :: target)) =
      none := by
    rw [zonesAfterHalf_of_eq_none fun afternoon =>
      zonesAfterWord_of_beginsNoHalf hhalf hour minute afternoon _]
    exact blanks_of_not_isBlank hc _ _
  have hskip : blanks (zonesAfterHalf hour minute)
      (' ' :: (c :: s ++ ' ' :: (word.toList ++ ' ' :: target))) = none := by
    rw [blanks, if_pos (by decide), hname, List.cons_append, blanks_of_not_isBlank hc]
    rfl
  have hblank (afternoon : Bool) (r : List Char) :
      zonesAfterWord hour minute afternoon (' ' :: r) = none := by
    cases afternoon
    · exact keyword_cons_of_ne (d := 'a') rfl (by decide) _ r
    · exact keyword_cons_of_ne (d := 'p') rfl (by decide) _ r
  rw [zonesAfter_eq, maybeBlanks, optionally_of_eq_none hskip,
    zonesAfterHalf_of_eq_none fun afternoon => hblank afternoon _, hzones]

/-- With a half of the day. -/
theorem zonesAfter_append_halfWord {gap half : List Char} (hgap : ∀ c ∈ gap, isBlank c = true)
    {afternoon : Bool} (hhalf : half.map fold = (halfWord afternoon).toList) :
    zonesAfter hour minute
        (gap ++ (half ++ ' ' :: (source ++ ' ' :: (word.toList ++ ' ' :: target)))) =
      some ⟨hour, minute, some afternoon, source, some target⟩ := by
  have hzones := zonesWith_append hsource htarget hword hour minute (some afternoon)
  obtain ⟨a, b, hletters, ha, -⟩ := of_halfWord hhalf
  generalize ' ' :: (source ++ ' ' :: (word.toList ++ ' ' :: target)) = r at hzones ⊢
  have hword : zonesAfterWord hour minute afternoon (half ++ r) =
      some ⟨hour, minute, some afternoon, source, some target⟩ :=
    (keyword_append hhalf _ r).trans hzones
  have hread : zonesAfterHalf hour minute (half ++ r) =
      some ⟨hour, minute, some afternoon, source, some target⟩ := by
    cases afternoon with
    | false => exact firstOf_of_eq_some hword _
    | true =>
        have hskip : zonesAfterWord hour minute false (half ++ r) = none := by
          rw [hletters]
          exact keyword_cons_of_ne (d := 'a') rfl (by rw [ha]; decide) _ _
        rw [zonesAfterHalf, firstOf_of_eq_none hskip]
        exact firstOf_of_eq_some hword _
  have hhead : ∀ c ∈ (half ++ r).head?, isBlank c = false := by
    rw [hletters]
    rintro _ ⟨⟩
    exact (of_isKeywordLetter (isKeywordLetter_of_halfWord ha)).2.1
  rw [zonesAfter_eq, maybeBlanks_append_of_isSome hgap hhead (by rw [hread]; rfl), hread]

end

/-- The hour and the minutes are read as they are typed. -/
theorem timePhrase_append {hour minute : Nat} {t r : List Char} (h : WritesHour hour minute t)
    (hr : ∀ c ∈ r.head?, isDecimalDigit c = false ∧ c ≠ ':') :
    ∃ hs ms, natural? hs = some hour ∧ ms.elim (some 0) natural? = some minute ∧
      ∀ q, zonesAfter hs ms r = some q → timePhrase (t ++ r) = some q := by
  cases h with
  | hour h_eq short =>
      obtain ⟨hne, hdigits⟩ := natural?_eq_some h_eq
      refine ⟨t, none, h_eq, rfl, fun q hq => ?_⟩
      rw [timePhrase_eq, digits_append hdigits (fun c hc => (hr c hc).1) _
        ⟨List.length_pos_of_ne_nil hne, short⟩,
        firstOf_of_eq_none (char_of_head?_ne (fun c hc => (hr c hc).2) _)]
      exact firstOf_of_eq_some hq []
  | @minute _ hs mm h_eq short mm_eq two _ =>
      obtain ⟨hne, hdigits⟩ := natural?_eq_some h_eq
      refine ⟨hs, some mm, h_eq, mm_eq, fun q hq => ?_⟩
      rw [List.append_assoc, timePhrase_eq, List.cons_append,
        digits_append hdigits (by simp; decide) _ ⟨List.length_pos_of_ne_nil hne, short⟩]
      refine firstOf_of_eq_some ?_ _
      rw [char_cons, exactly_append two (natural?_eq_some mm_eq).2, hq]

/-! ### The answer -/

/-- The minutes since midnight that a phrase speaks of. -/
def Request.minutes? (q : Request) : Option Nat := do
  let hour ← natural? q.hour
  let minute ← q.minute.elim (some 0) natural?
  minutesOf? hour minute q.afternoon

theorem Request.convert_eq (q : Request) : q.convert = q.minutes?.bind fun minutes =>
    (Zone.typed? q.source).bind fun source =>
      q.target.elim (some (Conversion.awaiting minutes source)) fun name =>
        (Zone.typed? name).map (Conversion.between minutes source) := by
  obtain ⟨hour, minute, afternoon, source, target⟩ := q
  cases minute <;> cases target <;> cases natural? hour <;>
    simp [Request.convert, Request.minutes?, Option.bind_assoc]

/-- A phrase that gives the time and both zones is read as it is meant. -/
theorem timePhrase_zones {minutes : Nat} {t : List Char} (ht : WritesTime minutes t)
    {source target : List Char} (hsource : canBeSource source = true)
    (htarget : canBeTarget target = true) {word : String} (hword : word ∈ connectives) :
    ∃ q, timePhrase (t ++ ' ' :: (source ++ ' ' :: (word.toList ++ ' ' :: target))) = some q ∧
      q.minutes? = some minutes ∧ q.source = source ∧ q.target = some target := by
  cases ht with
  | @day hour minute t h hour_lt =>
      obtain ⟨hs, ms, hhour, hminute, hread⟩ := timePhrase_append h
        (r := ' ' :: (source ++ ' ' :: (word.toList ++ ' ' :: target))) (by simp; decide)
      refine ⟨_, hread _ (zonesAfter_append hsource htarget hword hs ms), ?_, rfl, rfl⟩
      simp only [Request.minutes?, hhour, hminute, Option.bind_eq_bind, Option.bind_some,
        minutesOf?_day h.minute_lt hour_lt]
  | @half hour minute t gap half h bounds hgap afternoon hhalf =>
      obtain ⟨hs, ms, hhour, hminute, hread⟩ := timePhrase_append h
        (r := gap ++ (half ++ ' ' :: (source ++ ' ' :: (word.toList ++ ' ' :: target))))
        (stops_append_halfWord hgap hhalf _)
      rw [List.append_assoc, List.append_assoc]
      refine ⟨_, hread _ (zonesAfter_append_halfWord hsource htarget hword hs ms hgap hhalf), ?_,
        rfl, rfl⟩
      simp only [Request.minutes?, hhour, hminute, Option.bind_eq_bind, Option.bind_some,
        minutesOf?_half h.minute_lt bounds]

/-- A text that begins with a time is read as a phrase about a time. -/
theorem detect_of_writesTime (now : Int) {minutes : Nat} {t : List Char}
    (ht : WritesTime minutes t) {target : List Char} (htarget : canBeTarget target = true)
    (between : List Char) :
    detect now (t ++ between ++ target) =
      (timePhrase (t ++ between ++ target)).bind Request.convert := by
  obtain ⟨-, ⟨d, hlast, hd⟩, -⟩ := of_canBeTarget htarget
  have hend : (t ++ between ++ target).getLast? = some d := by
    rw [List.getLast?_append, hlast]
    rfl
  obtain ⟨c, s, rfl, hc⟩ := ht.exists_cons
  have htrim : trim (c :: s ++ between ++ target) = c :: s ++ between ++ target :=
    trim_of_ends rfl (not_isBlank_of_isDecimalDigit hc) hend hd
  have hpresent : presentPhrase (c :: s ++ between ++ target) = none :=
    keywordAmong_of_not_isKeywordLetter (by decide) (not_isKeywordLetter_of_isDecimalDigit hc) _ _
  rw [detect, htrim]
  simp only [hpresent]

/-- **What is asked is converted.** -/
theorem detect_asked (now : Int) {minutes : Nat} {t : List Char} (ht : WritesTime minutes t)
    {source target : List Char} (hsource : canBeSource source = true)
    (htarget : canBeTarget target = true) {word : String} (hword : word ∈ connectives) :
    detect now (t ++ ' ' :: (source ++ ' ' :: (word.toList ++ ' ' :: target))) =
      (Zone.typed? source).bind fun a => (Zone.typed? target).map (Conversion.between minutes a) := by
  obtain ⟨q, hphrase, hminutes, hqsource, hqtarget⟩ := timePhrase_zones ht hsource htarget hword
  have htext : t ++ ' ' :: (source ++ ' ' :: (word.toList ++ ' ' :: target)) =
      t ++ ' ' :: (source ++ ' ' :: (word.toList ++ [' '])) ++ target := by
    simp
  rw [htext] at hphrase ⊢
  rw [detect_of_writesTime now ht htarget, hphrase, Option.bind_some, Request.convert_eq, hminutes,
    hqsource, hqtarget]
  rfl

end Composer.Clock
