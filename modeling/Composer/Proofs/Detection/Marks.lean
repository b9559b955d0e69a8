import Composer.Detection
import Composer.Proofs.Text.Reading
/-!
# Composer.Proofs.Detection.Marks

**The marks of the tools.** Every text that a tool answers has an outline that begins with one of
the marks of the tool; the names of colors and calculations without a percentage are the only
exceptions. A mark goes as far into a phrase as is needed to tell the tools apart, so most marks
are single words.
-/

namespace Composer.Detection

open Text

/-- The names of the units of measure. -/
def unitNames : List (List Char) :=
  Measure.units.flatMap fun u => lower u.symbol.toList :: u.aliases.map String.toList

/-- The names of spans of time, which are units of measure too. -/
def spans : List String :=
  ["days", "day", "weeks", "week", "months", "month", "years", "year"]

/-- A character of the name of a time zone that needs no accent. -/
def inKey (c : Char) : Bool :=
  c.isLower || c = ' '

/-- What the outlines of the texts of a tool begin with. -/
def marks : Tool → List (List Char)
  | .color => ["#", "rgb", "hsl"].map String.toList
  | .units =>
    ["0degrees ".toList, "0degree ".toList] ++ unitNames.flatMap fun name =>
      (if spans.any (·.toList = name) then Measure.connectors else [""]).map fun word =>
        '0' :: outlineFrom .gap (name ++ ' ' :: word.toList)
  | .currency =>
    Money.signs.map (fun (sign, _) => [sign]) ++
      Money.currencies.map fun (code, _) => '0' :: (code.toList.map Char.toLower ++ [' '])
  | .timezone =>
    ["now ", "time ", "what time", "current time", "0:", "0am ", "0pm "].map String.toList ++
      (Clock.zones.filter fun zone => zone.key.toList.all inKey).map fun zone =>
        '0' :: zone.key.toList.takeWhile Char.isLower
  | .date =>
    ["days ", "how many"].map String.toList ++ spans.flatMap fun span =>
      ["from", "later", "ago", "after", "before"].map fun word =>
        '0' :: (span.toList ++ ' ' :: word.toList)
  | .random =>
    ["roll", "flip", "toss", "coin", "heads", "rand", "pick", "d0", "0d0", "a d0", "a 0d0", "an d0",
      "an 0d0"].map String.toList
  | .translator =>
    "tr".toList :: Language.languages.map fun (code, _) => code.toList ++ " to ".toList
  | .dictionary => ["def", "dict", "meaning of", "what is", "what does"].map String.toList
  | .wordCount => ["wc", "word", "count"].map String.toList
  | .calculator => ["0%".toList]
  | .timer => []

/-- An outline that begins with a mark of the tool. -/
def HasMark (t : Tool) (o : List Char) : Prop :=
  ∃ m ∈ marks t, m <+: o

instance (t : Tool) (o : List Char) : Decidable (HasMark t o) :=
  inferInstanceAs (Decidable (∃ m ∈ marks t, m <+: o))

theorem HasMark.mono {t : Tool} {o o' : List Char} (h : HasMark t o) (ho : o <+: o') :
    HasMark t o' := by
  obtain ⟨m, hm, hprefix⟩ := h
  exact ⟨m, hm, hprefix.trans ho⟩

/-- What a reading accepts has a mark if all that is known of it has one. -/
theorem hasMark_of_opens {β : Type} {t : Tool} {k : Reading β} {s : List Char} {b : β}
    (h : Opens .gap k fun _ o => HasMark t o) (hs : k s = some b) : HasMark t (outline s) := by
  obtain ⟨o, ho, hprefix⟩ := h s b hs
  exact ho.mono hprefix

/-! ### Words and lists of words -/

theorem hasMark_wordCount {text : List Char} {c : Prose.Count} (h : Prose.detect text = some c) :
    HasMark .wordCount (outline (trim text)) := by
  obtain ⟨body, hbody, -⟩ := Option.map_eq_some_iff.mp h
  refine hasMark_of_opens (.firstOf_cons (.keyword (.stop fun _ => ?_)) <|
    .firstOf_cons (.keyword (.stop fun _ => ?_)) <|
    .firstOf_cons (.keyword (.stop fun _ => ?_)) .firstOf_nil) hbody
  all_goals decide

theorem hasMark_dictionary {text : List Char} {d : Lexicon.Definition}
    (h : Lexicon.detect text = some d) : HasMark .dictionary (outline (trim text)) := by
  obtain ⟨word, hword, -⟩ := Option.map_eq_some_iff.mp h
  obtain ⟨body, hbody, -⟩ := Option.bind_eq_some_iff.mp hword
  rw [Option.orElse_eq_orElse, Option.orElse_eq_or, Option.or_eq_some_iff] at hbody
  rcases hbody with hbody | ⟨-, hbody⟩
  · refine hasMark_of_opens (.keywordAmong fun word hword _ => .stop fun _ => ?_) hbody
    revert word
    decide
  · refine hasMark_of_opens (.keyword <| .blanks <| .keyword <| .stop fun _ => ?_) hbody
    decide

/-! ### Chance -/

/-- Dice in the notation of games; the count may be missing. -/
theorem opens_dice {p : Spot} {H : Chance.ThrowText → List Char → Prop}
    (hone : ∀ b, H b (outlineFrom p "d".toList ++ ['0']))
    (hmany : ∀ b, H b (p.nought ++ "d0".toList)) :
    Opens p (digits 0 3 fun count => keyword "d" <| digits 1 4 fun sides =>
      Chance.bonus (.mk count sides)) H := by
  refine .digits (fun _ => ?_) fun _ => ?_
  · refine .keyword (.digits (fun h => absurd h (by decide)) fun _ => .stop fun b => ?_)
    exact hone b
  · refine .keyword (.digits (fun h => absurd h (by decide)) fun _ => .stop fun b => ?_)
    exact hmany b

theorem opens_throwPhrase : Opens .gap Chance.throwPhrase fun _ o => HasMark .random o := by
  refine .optionally (.keyword (.stop fun _ => by decide)) (.optionally ?_ ?_)
  · refine .firstOf_cons (.keyword (.blanks (opens_dice (fun _ => ?_) fun _ => ?_))) <|
      .firstOf_cons (.keyword (.blanks (opens_dice (fun _ => ?_) fun _ => ?_))) .firstOf_nil
    all_goals decide
  · exact opens_dice (fun _ => by decide) fun _ => by decide

theorem opens_coinPhrase : Opens .gap Chance.coinPhrase fun _ o => HasMark .random o := by
  refine .firstOf_cons (.keywordAmong fun word hword _ => .stop fun _ => ?_) <|
    .firstOf_cons (.keyword (.stop fun _ => ?_)) <|
    .firstOf_cons (.keyword (.stop fun _ => ?_)) .firstOf_nil
  · revert word
    decide
  · decide
  · decide

theorem hasMark_random {seed : UInt64} {text : List Char} {r : Chance.Outcome}
    (h : Chance.detect seed text = some r) : HasMark .random (outline (trim text)) := by
  unfold Chance.detect at h
  dsimp only at h
  split at h
  · next t ht => exact hasMark_of_opens opens_throwPhrase ht
  · split at h
    · next hroll =>
        obtain ⟨b, hb⟩ := Option.isSome_iff_exists.mp hroll
        refine hasMark_of_opens (.keyword (.stop fun _ => ?_)) hb
        decide
    · split at h
      · next hcoin =>
          obtain ⟨b, hb⟩ := Option.isSome_iff_exists.mp hcoin
          exact hasMark_of_opens opens_coinPhrase hb
      · split at h
        · next hnumber =>
            refine hasMark_of_opens (.keywordAmong fun word hword _ => .stop fun _ => ?_) hnumber
            revert word
            decide
        · split at h
          · next hbare =>
              obtain ⟨b, hb⟩ := Option.isSome_iff_exists.mp hbare
              refine hasMark_of_opens (.keywordAmong fun word hword _ => .stop fun _ => ?_) hb
              revert word
              decide
          · cases h

/-! ### Days -/

theorem opens_distancePhrase : Opens .gap Calendar.distancePhrase fun _ o => HasMark .date o := by
  refine .optionally (.keyword (.stop fun _ => ?_)) (.keyword (.blanks (.stop fun _ => ?_)))
  all_goals decide

theorem opens_stepPhrase : Opens .gap Calendar.stepPhrase fun _ o => HasMark .date o := by
  refine .digits (fun h => absurd h (by decide)) fun _ => .blanks <|
    .keywordAmong fun span hspan _ => .blanks <|
      .keywordAmong fun word hword _ => .stop fun _ => ?_
  revert span word
  decide

theorem hasMark_date {today : Calendar.Date} {text : List Char} {r : Calendar.Reckoning}
    (h : Calendar.detect today text = some r) : HasMark .date (outline (trim text)) := by
  unfold Calendar.detect at h
  dsimp only at h
  split at h
  · next hdistance => exact hasMark_of_opens opens_distancePhrase hdistance
  · obtain ⟨s, hs, -⟩ := Option.bind_eq_some_iff.mp h
    exact hasMark_of_opens opens_stepPhrase hs

/-! ### Percentages -/

theorem hasMark_percentOf {text : List Char} {b : List Char × List Char}
    (h : Arithmetic.percentOf text = some b) : HasMark .calculator (outline text) := by
  have hmark : HasMark .calculator "0%".toList := by decide
  have hopens (n : Nat) (sign : List Char) : Opens .gap
      (numeral 1 n fun percent => maybeBlanks <| char '%' <| maybeBlanks <| keyword "of" <|
        blanks <| lineToEnd fun base => some (sign ++ percent, base))
      fun _ o => HasMark .calculator o :=
    .numeral (by decide) fun _ =>
      .maybeBlanks (.char (.stop fun _ => hmark)) (.char (.stop fun _ => hmark))
  unfold Arithmetic.percentOf at h
  dsimp only at h
  split at h
  · rw [outline_minus]
    exact hasMark_of_opens (hopens _ _) h
  · exact hasMark_of_opens (hopens _ _) h

end Composer.Detection
