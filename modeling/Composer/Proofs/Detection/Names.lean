import Composer.Proofs.Clock.Phrase
import Composer.Proofs.Detection.Marks
import Composer.Proofs.Text.Lowercase
/-!
# Composer.Proofs.Detection.Names

**Marks that are names.** A time of day is told by the name of its zone, a translation between two
languages by the code of the first one. Colors can be typed by name alone, with spaces anywhere;
such a text has no mark, but it is known letter by letter (`IsColorName`).
-/

namespace Composer.Detection

open Text

/-! ### Time zones -/

theorem opens_presentPhrase : Opens .gap Clock.presentPhrase fun _ o => HasMark .timezone o := by
  refine .keywordAmong fun word hword _ => .blanks (.stop fun _ => ?_)
  revert word
  decide

theorem opens_zoneNames (p : Spot) : Opens p Clock.zoneNames fun r o =>
    (∀ c ∈ r.1, Clock.inZoneName c = true) ∧ outlineFrom p r.1 <+: o := by
  intro s b hs
  cases s with
  | nil => cases hs
  | cons c s =>
      rw [Clock.zoneNames] at hs
      split at hs
      · refine Opens.shortest (H := fun r o => (∀ c ∈ r.1, Clock.inZoneName c = true) ∧
          outlineFrom p r.1 <+: o) (fun taken htaken => .stop fun _ => ⟨htaken, ?_⟩) _ _ hs
        exact List.prefix_append _ _
      · cases hs

/-- A time of day is told by its minutes, by the half of the day or by its zone. -/
theorem opens_timePhrase : Opens .gap Clock.timePhrase fun r o => HasMark .timezone o ∨
    (∀ c ∈ r.source, Clock.inZoneName c = true) ∧ '0' :: outline r.source <+: o := by
  have hways (p : Spot) (hp : p.space = [])
      {f g f' : List Char × Option (List Char) → Clock.Request} (hf : ∀ r, (f' r).source = r.1) :
      Opens p (firstOf [keyword "am" (blanks fun s => (Clock.zoneNames s).map f),
        keyword "pm" (blanks fun s => (Clock.zoneNames s).map g),
        blanks fun s => (Clock.zoneNames s).map f']) fun r o => HasMark .timezone ('0' :: o) ∨
        (∀ c ∈ r.source, Clock.inZoneName c = true) ∧ '0' :: outline r.source <+: '0' :: o := by
    refine .firstOf_cons (.keyword (.blanks (.stop fun _ => Or.inl ?_))) <|
      .firstOf_cons (.keyword (.blanks (.stop fun _ => Or.inl ?_))) <|
      .firstOf_cons (.blanks (.map fun s b hs => ?_)) .firstOf_nil
    · cases p <;> decide
    · cases p <;> decide
    · obtain ⟨o, ⟨hzone, hprefix⟩, ho⟩ := opens_zoneNames .gap s b hs
      refine ⟨o, Or.inr ?_, ho⟩
      rw [hf, hp]
      exact ⟨hzone, (List.prefix_cons_inj '0').mpr hprefix⟩
  refine .digits (fun h => absurd h (by decide)) fun hour =>
    .firstOf_cons (.char (.stop fun _ => Or.inl (by decide))) <| .firstOf_cons ?_ .firstOf_nil
  exact .maybeBlanks (hways .gap rfl fun _ => rfl) (hways .number rfl fun _ => rfl)

/-- No character of the name of a first zone has an accent in lower case. -/
theorem not_mem_lowerChar {c : Char} (h : Clock.inZoneName c = true) : 'ã' ∉ lowerChar c := by
  simp only [Clock.inZoneName, Bool.or_eq_true, decide_eq_true_eq] at h
  rcases h with (h | rfl) | rfl
  · refine fold_induction (P := fun c d => d.isLower = true → 'ã' ∉ lowerChar c) ?_
      (by decide) (by decide +kernel) (by decide +kernel) c h
    intro c hc
    exact forall_lower (P := fun c => 'ã' ∉ lowerChar c) (by decide) hc
  · decide
  · decide

/-- The name of a zone is written with letters and spaces, or with an accent. -/
theorem zones_spec : ∀ zone ∈ Clock.zones,
    zone.key.toList.all inKey = true ∨ 'ã' ∈ zone.key.toList := by
  decide

theorem isPlain_of_inKey {c : Char} (h : inKey c = true) : isPlain c = true := by
  simp only [inKey, Bool.or_eq_true, decide_eq_true_eq] at h
  rcases h with h | rfl
  · simp [isPlain, toNat_of_isLower h]
  · rfl

/-- Letters in lower case are their own outline. -/
theorem outline_of_isLower {w : List Char} (h : ∀ c ∈ w, c.isLower = true) : outline w = w := by
  have hletters : ∀ c ∈ w, isKeywordLetter c = true := by
    intro c hc
    rw [isKeywordLetter, fold_of_isLower (h c hc)]
    exact h c hc
  calc outline w = w.map fold := (outlineFrom_letters hletters .gap).1
    _ = w.map id := List.map_congr_left fun c hc => fold_of_isLower (h c hc)
    _ = w := List.map_id w

/-- The first word of the name of the zone is a mark. -/
theorem hasMark_of_zone {s : List Char} (hs : ∀ c ∈ s, Clock.inZoneName c = true)
    {zone : Clock.Zone} (h : Clock.Zone.typed? s = some zone) :
    HasMark .timezone ('0' :: outline s) := by
  unfold Clock.Zone.typed? at h
  dsimp only at h
  have hmem : zone ∈ Clock.zones := List.mem_of_find?_eq_some h
  have hasked : zone.key.toList = askedKey s := by simpa using List.find?_some h
  obtain ⟨ws, ws', -, -, htrim⟩ := trim_eq s
  obtain ⟨ws₂, ws₂', -, -, hcore⟩ := trim_eq (trim s)
  have htrimmed : ∀ c ∈ trim s, Clock.inZoneName c = true := fun c hc =>
    hs c (by rw [htrim]; simp [hc])
  -- No question mark stands at the end of the name.
  have hend : dropEndWhile (· = '?') (trim s) = trim s := by
    obtain ⟨r, hr, heq⟩ := dropEndWhile_eq (· = '?') (trim s)
    cases r with
    | nil => rw [List.append_nil] at heq; exact heq.symm
    | cons c r =>
        have hc : Clock.inZoneName c = true := htrimmed c (by rw [heq]; simp)
        rw [of_decide_eq_true (hr c List.mem_cons_self)] at hc
        exact absurd hc (by decide)
  rw [askedKey, hend] at hasked
  -- Keys with an accent cannot be typed.
  have hkey : zone.key.toList.all inKey = true := by
    refine (zones_spec zone hmem).resolve_right fun haccent => ?_
    rw [hasked] at haccent
    rcases exists_of_mem_lower haccent with h | h | ⟨c, hc, h⟩
    · revert h
      decide
    · revert h
      decide
    · refine not_mem_lowerChar (htrimmed c ?_) h
      rw [hcore]
      simp [hc]
  have hfold : zone.key.toList = (trim (trim s)).map fold := by
    rw [hasked]
    refine lower_eq_map_fold fun c hc => isPlain_of_inKey (List.all_eq_true.mp hkey c ?_)
    rwa [hasked]
  have hmark : '0' :: zone.key.toList.takeWhile Char.isLower ∈ marks .timezone :=
    List.mem_append_right _
      (List.mem_map.mpr ⟨zone, List.mem_filter.mpr ⟨hmem, hkey⟩, rfl⟩)
  refine ⟨_, hmark, (List.prefix_cons_inj '0').mpr ?_⟩
  have hfirst : outline (zone.key.toList.takeWhile Char.isLower) <+: outline zone.key.toList :=
    outlineFrom_mono (List.takeWhile_prefix _) .gap
  have hwhole : outline zone.key.toList <+: outline s := by
    rw [hfold, outline, outlineFrom_map_fold]
    exact (outline_trim_isPrefix _).trans (outline_trim_isPrefix s)
  rw [outline_of_isLower fun c hc => List.mem_takeWhile_imp hc] at hfirst
  exact hfirst.trans hwhole

/-- A time of day is only converted from a known zone. -/
theorem exists_of_convert {r : Clock.Request} {x : Clock.Conversion} (h : r.convert = some x) :
    ∃ zone, Clock.Zone.typed? r.source = some zone := by
  rw [Clock.Request.convert_eq] at h
  obtain ⟨_, -, h⟩ := Option.bind_eq_some_iff.mp h
  obtain ⟨zone, htyped, -⟩ := Option.bind_eq_some_iff.mp h
  exact ⟨zone, htyped⟩

theorem hasMark_timezone {now : Int} {text : List Char} {x : Clock.Conversion}
    (h : Clock.detect now text = some x) : HasMark .timezone (outline (trim text)) := by
  unfold Clock.detect at h
  dsimp only at h
  split at h
  · next hpresent => exact hasMark_of_opens opens_presentPhrase hpresent
  · obtain ⟨r, hphrase, hconvert⟩ := Option.bind_eq_some_iff.mp h
    obtain ⟨o, hmark | ⟨hzone, ho⟩, hprefix⟩ := opens_timePhrase _ _ hphrase
    · exact hmark.mono hprefix
    · obtain ⟨zone, htyped⟩ := exists_of_convert hconvert
      exact (hasMark_of_zone hzone htyped).mono (ho.trans hprefix)

/-! ### Languages -/

/-- A pair of languages begins with two letters and an arrow. -/
theorem opens_pairPhrase : Opens .gap Language.pairPhrase fun r o => r.1.length = 2 ∧
    (∀ c ∈ r.1, isKeywordLetter c = true) ∧ r.1.map fold ++ " to ".toList <+: o := by
  refine .exactly fun source hlength hletters => ?_
  obtain ⟨ho, hafter⟩ := outlineFrom_letters hletters .gap
  rw [ho, hafter (by rintro rfl; cases hlength)]
  -- Whatever follows the arrow, the first code is handed on.
  have hsource (p : Spot) : Opens p (maybeBlanks <| exactly 2 isKeywordLetter fun target =>
      optionally (char ':') <| blanks <| textToEnd fun text => some (source, target, text))
      fun r _ => r.1 = source := by
    have hletters (p : Spot) : Opens p (exactly 2 isKeywordLetter fun target =>
        optionally (char ':') <| blanks <| textToEnd fun text => some (source, target, text))
        fun r _ => r.1 = source := by
      have hend (target : List Char) (p : Spot) : Opens p
          (blanks <| textToEnd fun text => some (source, target, text)) fun r _ => r.1 = source :=
        .blanks (.textToEnd fun _ _ h => by cases h; rfl)
      exact .exactly fun target _ _ => .optionally (.char (hend target _)) (hend target _)
    exact .maybeBlanks (hletters _) (hletters _)
  have harrow (p : Spot) (o : List Char) (hp : ∀ arrow ∈ [">", "->", "→"],
      o ++ outlineFrom p arrow.toList = " to ".toList) :
      Opens p (keywordAmong [">", "->", "→"] fun _ => maybeBlanks <|
        exactly 2 isKeywordLetter fun target => optionally (char ':') <| blanks <|
          textToEnd fun text => some (source, target, text))
      fun r o' => r.1.length = 2 ∧ (∀ c ∈ r.1, isKeywordLetter c = true) ∧
        r.1.map fold ++ " to ".toList <+: source.map fold ++ (o ++ o') := by
    refine .keywordAmong fun arrow harrow _ => (hsource _).knowing ?_
    rintro r rfl
    have ho : o ++ (outlineFrom p arrow.toList ++ []) = " to ".toList := by
      rw [List.append_nil, hp arrow harrow]
    exact ⟨hlength, hletters, ho ▸ List.prefix_rfl⟩
  exact .maybeBlanks (harrow .gap [' '] (by decide)) (harrow .word [] (by decide))

/-- The names of languages are plain in lower case and longer than codes. -/
theorem languages_spec : Language.languages.all (fun (code, name) =>
    code.toList.all isPlain && (lower name.toList).all isPlain &&
      decide (2 < (lower name.toList).length)) = true := by
  decide +kernel

/-- Two letters only mean a language if they are its code. -/
theorem exists_of_code? {s : List Char} (hletters : ∀ c ∈ s, isKeywordLetter c = true)
    (hlength : s.length = 2) {code : String} (h : Language.code? s = some code) :
    ∃ name, (code, name) ∈ Language.languages ∧ code.toList = s.map fold := by
  unfold Language.code? at h
  obtain ⟨⟨code, name⟩, hfind, rfl⟩ := Option.map_eq_some_iff.mp h
  have hmem := List.mem_of_find?_eq_some hfind
  have htrim : trim s = s := trim_eq_self fun c hc => (of_isKeywordLetter (hletters c hc)).2.1
  have hspec := List.all_eq_true.mp languages_spec _ hmem
  rw [Bool.and_eq_true, Bool.and_eq_true, List.all_eq_true, List.all_eq_true,
    decide_eq_true_eq] at hspec
  obtain ⟨⟨hcode, hname⟩, hlong⟩ := hspec
  have hkey : code.toList = lower (trim s) ∨ lower name.toList = lower (trim s) := by
    simpa using List.find?_some hfind
  refine ⟨name, hmem, ?_⟩
  rw [htrim] at hkey
  rcases hkey with hkey | hkey
  · rw [hkey] at hcode ⊢
    exact lower_eq_map_fold hcode
  · rw [hkey] at hname hlong
    rw [lower_eq_map_fold hname, List.length_map, hlength] at hlong
    exact absurd hlong (by decide)

theorem hasMark_translator {text : List Char} {x : Language.Translation}
    (h : Language.detect text = some x) : HasMark .translator (outline (trim text)) := by
  have htranslate {β : Type} (k : Reading β) :
      Opens .gap (keyword "translate" k) fun _ o => HasMark .translator o :=
    .keyword (.stop fun _ => by decide)
  unfold Language.detect at h
  dsimp only at h
  split at h
  · next hfromTo => exact hasMark_of_opens (htranslate _) hfromTo
  · split at h
    · next hto => exact hasMark_of_opens (htranslate _) hto
    · split at h
      · next source target body hpair =>
          simp only [Option.bind_eq_bind, Option.bind_eq_some_iff] at h
          obtain ⟨code, hcode, -⟩ := h
          obtain ⟨o, ⟨hlength, hletters, ho⟩, hprefix⟩ := opens_pairPhrase _ _ hpair
          obtain ⟨name, hmem, hfold⟩ := exists_of_code? hletters hlength hcode
          refine HasMark.mono ⟨_, ?_, ho⟩ hprefix
          rw [← hfold]
          exact List.mem_cons_of_mem _ (List.mem_map.mpr ⟨_, hmem, rfl⟩)
      · split at h
        · next hshort =>
            refine hasMark_of_opens (.keyword (.stop fun _ => ?_)) hshort
            decide
        · obtain ⟨body, hbare, -⟩ := Option.map_eq_some_iff.mp h
          exact hasMark_of_opens (htranslate _) hbare

/-! ### Names of colors -/

/-- A text that is the name of a color but for case and spaces. -/
structure IsColorName (s : List Char) : Prop where
  /-- It has no characters but letters and spaces. -/
  chars : ∀ c ∈ s, isKeywordLetter c = true ∨ c = ' '
  /-- Its letters are those of the name. -/
  letters : (s.map fold).filter (· ≠ ' ') ∈ Color.named.map (·.1.toList)

theorem eq_space_of_fold {c : Char} (h : fold c = ' ') : c = ' ' :=
  fold_induction (P := fun c d => d = ' ' → c = ' ') (fun _ h => h) (by decide)
    (by decide) (by decide) c h

theorem named_spec : Color.named.all (·.1.toList.all Char.isLower) = true := by
  decide

theorem isLower_of_mem_named {color : String × Color.Rgb} (hcolor : color ∈ Color.named) {c : Char}
    (hc : c ∈ color.1.toList) : c.isLower = true :=
  List.all_eq_true.mp (List.all_eq_true.mp named_spec color hcolor) c hc

theorem isColorName_of_ofName? {s : List Char} {x : Color.Swatch} (h : Color.ofName? s = some x) :
    IsColorName s := by
  unfold Color.ofName? at h
  obtain ⟨⟨name, rgb⟩, hfind, -⟩ := Option.map_eq_some_iff.mp h
  have hmem := List.mem_of_find?_eq_some hfind
  have hkey : name.toList = (lower s).filter (· ≠ ' ') := by simpa using List.find?_some hfind
  have hchars : ∀ c ∈ lower s, c.isLower = true ∨ c = ' ' := by
    intro c hc
    by_cases hspace : c = ' '
    · exact Or.inr hspace
    · refine Or.inl (isLower_of_mem_named hmem ?_)
      rw [hkey]
      exact List.mem_filter.mpr ⟨hc, by simpa using hspace⟩
  -- A lower case of plain characters only comes from folding.
  have hfold : lower s = s.map fold := by
    refine lower_eq_map_fold fun c hc => isPlain_of_inKey ?_
    rw [inKey, Bool.or_eq_true, decide_eq_true_eq]
    exact hchars c hc
  rw [hfold] at hchars hkey
  refine ⟨fun c hc => ?_, ?_⟩
  · exact (hchars _ (List.mem_map_of_mem hc)).imp_right eq_space_of_fold
  · rw [← hkey]
    exact List.mem_map.mpr ⟨_, hmem, rfl⟩

/-- Colors are told by their notation or by their name. -/
theorem hasMark_color {text : List Char} {x : Color.Swatch} (h : Color.detect text = some x) :
    HasMark .color (outline (trim text)) ∨ IsColorName (trim text) := by
  unfold Color.detect at h
  dsimp only at h
  split at h
  · next hhex =>
      refine Or.inl ?_
      unfold Color.ofHex? at hhex
      split at hhex
      · next heq =>
          have hmark : HasMark .color (outline ['#']) := by decide
          rw [heq]
          exact hmark.mono (outlineFrom_mono ((List.prefix_cons_inj _).mpr List.nil_prefix) _)
      · cases hhex
  · split at h
    · next hchannels =>
        refine Or.inl (hasMark_of_opens (.keyword (.stop fun _ => ?_)) hchannels)
        decide
    · split at h
      · next hhue =>
          refine Or.inl (hasMark_of_opens (.keyword (.stop fun _ => ?_)) hhue)
          decide
      · exact Or.inr (isColorName_of_ofName? h)

/-- The outline of a text of letters and spaces has the letters of the text. -/
theorem filter_outlineFrom {s : List Char} (h : ∀ c ∈ s, isKeywordLetter c = true ∨ c = ' ')
    (p : Spot) : (outlineFrom p s).filter (· ≠ ' ') = (s.map fold).filter (· ≠ ' ') := by
  induction s generalizing p with
  | nil => rfl
  | cons c s ih =>
      rw [outlineFrom_cons, List.filter_append, ih fun d hd => h d (List.mem_cons_of_mem c hd),
        List.map_cons, ← List.singleton_append, List.filter_append]
      congr 1
      rcases h c List.mem_cons_self with hc | rfl
      · rw [Spot.trace, if_pos hc]
      · cases p <;> decide

end Composer.Detection
