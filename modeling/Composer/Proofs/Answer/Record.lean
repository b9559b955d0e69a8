import Composer.Answer.Record
import Composer.Proofs.Calendar.Layout
import Composer.Proofs.Json.Decode
/-!
# Composer.Proofs.Answer.Record

**Answers survive their records.** For every kind of answer there are two facts: which columns its
record has (`columns?_encode`), and that all of them are read back (`decode?_encode`). A record can
only carry doubles that are finite and whole numbers of the widths of its fields; everything else
is read back whatever it is, a column that was left out included.
-/

namespace Composer

open Json

/-! ### Names -/

theorem Tool.named?_name (t : Tool) : named? t.name = some t := by
  cases t <;> decide

theorem Measure.Dimension.decode?_name (d : Dimension) : decode? (.string d.name) = some d := by
  cases d <;> decide

theorem Chance.Kind.decode?_name (k : Kind) : decode? (.string k.name) = some k := by
  cases k <;> decide

@[simp] theorem flag_bool (b : Bool) : flag (some (.bool b)) = some b := rfl

/-! ### Calculations -/

namespace Arithmetic.Calculation

theorem columns?_encode (r : Calculation) :
    columns? ["expression", "value", "display", "is_partial"] r.encode =
      some [some (.string r.expression), some (.real r.value), some (.string r.display),
        some (.bool r.isPartial)] :=
  columns?_ofFields (by decide) rfl rfl

theorem decode?_encode {r : Calculation} (hvalue : r.value.isFinite = true) :
    decode? r.encode = some r := by
  simp [decode?, columns?_encode, asFloat?_real hvalue]

end Arithmetic.Calculation

/-! ### Conversions between units -/

namespace Measure.Conversion

theorem columns?_encode (r : Conversion) :
    columns? ["value", "from", "to", "category", "converted", "suggestions", "display",
      "is_partial"] r.encode =
      some [some (.real r.value), some (.string r.source), r.target.map .string,
        some (.string r.dimension.name), r.converted.map .real,
        if r.suggestions.isEmpty then none else some (.ofStrings r.suggestions),
        some (.string r.display), some (.bool r.isPartial)] := by
  obtain ⟨_, _, _, _, _, suggestions, _, _⟩ := r
  cases suggestions <;> exact columns?_ofFields (by decide) rfl rfl

theorem decode?_encode {r : Conversion} (hvalue : r.value.isFinite = true)
    (hconverted : ∀ x, r.converted = some x → x.isFinite = true) :
    decode? r.encode = some r := by
  have hsuggestions : orElse [] (asList? asString?)
      (if r.suggestions.isEmpty then none else some (.ofStrings r.suggestions)) =
      some r.suggestions := orElse_list fun _ _ => rfl
  simp only [decode?, columns?_encode, Option.bind_eq_bind, Option.bind_some, required_some,
    asString?_string, asBool?_bool, orNone_string, asFloat?_real hvalue, orNone_real hconverted,
    Dimension.decode?_name, hsuggestions]

end Measure.Conversion

/-! ### Conversions between currencies -/

namespace Money.Exchange

theorem columns?_encode (r : Exchange) :
    columns? ["amount", "from", "to", "rate", "converted", "display", "is_partial", "is_loading",
      "error"] r.encode =
      some [some (.real r.amount), some (.string r.source), r.target.map .string,
        r.rate.map .real, r.converted.map .real, some (.string r.display),
        some (.bool r.isPartial), some (.bool r.isLoading), r.error.map .string] :=
  columns?_ofFields (by decide) rfl rfl

theorem decode?_encode {r : Exchange} (hamount : r.amount.isFinite = true)
    (hrate : ∀ x, r.rate = some x → x.isFinite = true)
    (hconverted : ∀ x, r.converted = some x → x.isFinite = true) :
    decode? r.encode = some r := by
  simp [decode?, columns?_encode, asFloat?_real hamount, orNone_real hrate, orNone_real hconverted]

end Money.Exchange

/-! ### Conversions between time zones -/

namespace Clock.Conversion

theorem columns?_encode (r : Conversion) :
    columns? ["source_time", "from", "to", "converted_time", "day_offset", "utc_offset", "display",
      "is_partial"] r.encode =
      some [r.sourceTime.map .string, r.source.map .string, r.target.map .string,
        r.convertedTime.map .string, some (.integer r.dayOffset), r.utcOffset.map .string,
        some (.string r.display), some (.bool r.isPartial)] :=
  columns?_ofFields (by decide) rfl rfl

theorem decode?_encode {r : Conversion}
    (hdays : -Int.pow 2 31 ≤ r.dayOffset ∧ r.dayOffset ≤ Int.pow 2 31 - 1) :
    decode? r.encode = some r := by
  simp only [decode?, columns?_encode, Option.bind_eq_bind, Option.bind_some, required_some,
    asString?_string, asBool?_bool, orNone_string, orElse_some, asIntBetween?_integer hdays]

end Clock.Conversion

/-! ### Colors -/

namespace Color.Swatch

theorem channel?_toNat (c : UInt8) : channel? (.ofNat c.toNat) = some c := by
  rw [channel?, asNatBelow?_ofNat c.toNat_lt, Option.map_some]
  exact congrArg some (UInt8.ofNat_toNat)

theorem columns?_encode (r : Swatch) :
    columns? ["input", "hex", "rgb", "hsl", "r", "g", "b", "alpha", "name", "display",
      "is_partial"] r.encode =
      some [some (.string r.input), some (.string r.hex), some (.string r.rgbText),
        some (.string r.hslText), some (.ofNat r.rgb.r.toNat), some (.ofNat r.rgb.g.toNat),
        some (.ofNat r.rgb.b.toNat), r.alpha.map .real, r.name.map .string,
        some (.string r.display), some (.bool r.isPartial)] :=
  columns?_ofFields (by decide) rfl rfl

theorem decode?_encode {r : Swatch} (halpha : ∀ x, r.alpha = some x → x.isFinite = true) :
    decode? r.encode = some r := by
  simp [decode?, columns?_encode, channel?_toNat, orNone_real halpha]

end Color.Swatch

/-! ### Days -/

namespace Calendar

theorem Date.decode?_record (d : Date) : Date.decode? (.string d.record) = some d :=
  Date.ofRecord?_record d

namespace Reckoning

theorem columns?_encode (r : Reckoning) :
    columns? ["target", "days", "display", "is_partial"] r.encode =
      some [r.target.map fun d => .string d.record, some (.integer r.days),
        some (.string r.display), some (.bool r.isPartial)] :=
  columns?_ofFields (by decide) rfl rfl

theorem decode?_encode {r : Reckoning}
    (hdays : -Int.pow 2 63 ≤ r.days ∧ r.days ≤ Int.pow 2 63 - 1) : decode? r.encode = some r := by
  have htarget : orNone Date.decode? (r.target.map fun d => .string d.record) = some r.target :=
    orNone_map fun d _ => ⟨Date.decode?_record d, nofun⟩
  simp only [decode?, columns?_encode, Option.bind_eq_bind, Option.bind_some, required_some,
    asString?_string, asBool?_bool, orElse_some, htarget, asIntBetween?_integer hdays]

end Reckoning

end Calendar

/-! ### Countdowns -/

namespace Countdown

theorem columns?_encode (r : Countdown) :
    columns? ["total_seconds", "remaining_seconds", "is_running", "is_paused", "is_complete",
      "label", "display", "progress"] r.encode =
      some [some (.ofNat r.total), some (.ofNat r.remaining), some (.bool r.isRunning),
        some (.bool r.isPaused), some (.bool r.isComplete), r.label.map .string,
        some (.string r.display), some (.real r.progress)] :=
  columns?_ofFields (by decide) rfl rfl

theorem decode?_encode {r : Countdown} (htotal : r.total < 2 ^ 64)
    (hremaining : r.remaining < 2 ^ 64) (hprogress : r.progress.isFinite = true) :
    decode? r.encode = some r := by
  -- Every step is an equation here, since the bound of 64 bits is too large to be unfolded.
  simp -implicitDefEqProofs only [decode?, columns?_encode, Option.bind_eq_bind,
    Option.bind_some, required_some, asString?_string, asBool?_bool, orNone_string, flag_bool,
    asNat64?_ofNat htotal, asNat64?_ofNat hremaining, asFloat?_real hprogress]

end Countdown

/-! ### Random answers -/

namespace Chance.Outcome

theorem columns?_encode (r : Outcome) :
    columns? ["kind", "values", "total", "display", "is_partial"] r.encode =
      some [some (.string r.kind.name), some (.array (r.values.map .integer)),
        some (.integer r.total), some (.string r.display), some (.bool r.isPartial)] :=
  columns?_ofFields (by decide) rfl rfl

theorem decode?_encode {r : Outcome}
    (hvalues : ∀ n ∈ r.values, -Int.pow 2 63 ≤ n ∧ n ≤ Int.pow 2 63 - 1)
    (htotal : -Int.pow 2 63 ≤ r.total ∧ r.total ≤ Int.pow 2 63 - 1) :
    decode? r.encode = some r := by
  have hlist : asList? asInt64? (.array (r.values.map .integer)) = some r.values :=
    asList?_array_map fun n hn => asIntBetween?_integer (hvalues n hn)
  have hsum : asInt64? (.integer r.total) = some r.total := asIntBetween?_integer htotal
  simp [decode?, columns?_encode, Kind.decode?_name, hlist, hsum]

end Chance.Outcome

/-! ### Counts -/

namespace Prose.Count

theorem columns?_encode (r : Count) :
    columns? ["words", "characters", "characters_no_spaces", "sentences", "paragraphs",
      "reading_minutes", "display", "is_partial"] r.encode =
      some [some (.ofNat r.words), some (.ofNat r.characters),
        some (.ofNat r.charactersNoSpaces), some (.ofNat r.sentences), some (.ofNat r.paragraphs),
        some (.ofNat r.readingMinutes), some (.string r.display), some (.bool r.isPartial)] :=
  columns?_ofFields (by decide) rfl rfl

/-- The numbers of a count. -/
def numbers (r : Count) : List Nat :=
  [r.words, r.characters, r.charactersNoSpaces, r.sentences, r.paragraphs, r.readingMinutes]

theorem decode?_encode {r : Count} (h : ∀ n ∈ r.numbers, n < 2 ^ 64) :
    decode? r.encode = some r := by
  have hnumber : ∀ n ∈ r.numbers, asNat64? (.ofNat n) = some n := fun n hn =>
    asNat64?_ofNat (h n hn)
  simp only [numbers, List.forall_mem_cons] at hnumber
  obtain ⟨hwords, hcharacters, hnoSpaces, hsentences, hparagraphs, hminutes, -⟩ := hnumber
  simp -implicitDefEqProofs only [decode?, columns?_encode, Option.bind_eq_bind,
    Option.bind_some, required_some, asString?_string, asBool?_bool, hwords, hcharacters,
    hnoSpaces, hsentences, hparagraphs, hminutes]

end Prose.Count

/-! ### Translations -/

namespace Language.Translation

theorem columns?_encode (r : Translation) :
    columns? ["text", "source", "target", "translated", "display", "is_partial", "is_loading",
      "error"] r.encode =
      some [some (.string r.text), r.source.map .string, r.target.map .string,
        r.translated.map .string, some (.string r.display), some (.bool r.isPartial),
        some (.bool r.isLoading), r.error.map .string] :=
  columns?_ofFields (by decide) rfl rfl

theorem decode?_encode (r : Translation) : decode? r.encode = some r := by
  simp [decode?, columns?_encode]

end Language.Translation

/-! ### Definitions -/

namespace Lexicon

namespace Meaning

theorem columns?_encode (r : Meaning) :
    columns? ["part_of_speech", "definitions", "example"] r.encode =
      some [some (.string r.partOfSpeech), some (.ofStrings r.definitions),
        r.sample.map .string] :=
  columns?_ofFields (by decide) rfl rfl

theorem decode?_encode (r : Meaning) : decode? r.encode = some r := by
  have hdefinitions : asList? asString? (.ofStrings r.definitions) = some r.definitions :=
    asList?_array_map fun _ _ => rfl
  simp [decode?, columns?_encode, hdefinitions]

end Meaning

namespace Definition

theorem columns?_encode (r : Definition) :
    columns? ["word", "phonetic", "meanings", "display", "is_partial", "is_loading", "error"]
      r.encode =
      some [some (.string r.word), r.phonetic.map .string,
        if r.meanings.isEmpty then none else some (.array (r.meanings.map Meaning.encode)),
        some (.string r.display), some (.bool r.isPartial), some (.bool r.isLoading),
        r.error.map .string] := by
  obtain ⟨_, _, meanings, _, _, _, _⟩ := r
  cases meanings <;> exact columns?_ofFields (by decide) rfl rfl

theorem decode?_encode (r : Definition) : decode? r.encode = some r := by
  have hmeanings := orElse_list fun (m : Meaning) (_ : m ∈ r.meanings) => m.decode?_encode
  simp only [decode?, columns?_encode, Option.bind_eq_bind, Option.bind_some, required_some,
    asString?_string, asBool?_bool, orNone_string, flag_bool, hmeanings]

end Definition

end Lexicon

/-! ### Any answer -/

namespace Answer

/-- The doubles of an answer. -/
def floats : Answer → List Float
  | calculator r => [r.value]
  | units r => r.value :: r.converted.toList
  | currency r => r.amount :: (r.rate.toList ++ r.converted.toList)
  | color r => r.alpha.toList
  | timer r => [r.progress]
  | timezone _ | date _ | random _ | wordCount _ | translator _ | dictionary _ => []

/-- The whole numbers of an answer fit the fields of its record: 32 bits with a sign for the days
between two time zones, 64 bits for everything else. -/
def InRange : Answer → Prop
  | timezone r => -Int.pow 2 31 ≤ r.dayOffset ∧ r.dayOffset ≤ Int.pow 2 31 - 1
  | date r => -Int.pow 2 63 ≤ r.days ∧ r.days ≤ Int.pow 2 63 - 1
  | timer r => r.total < 2 ^ 64 ∧ r.remaining < 2 ^ 64
  | random r => (∀ n ∈ r.values, -Int.pow 2 63 ≤ n ∧ n ≤ Int.pow 2 63 - 1) ∧
      -Int.pow 2 63 ≤ r.total ∧ r.total ≤ Int.pow 2 63 - 1
  | wordCount r => ∀ n ∈ r.numbers, n < 2 ^ 64
  | calculator _ | units _ | currency _ | color _ | translator _ | dictionary _ => True

/-- The fields of an answer are read back by the reader of its tool. -/
theorem decodeFields?_encodeFields {a : Answer} (hfinite : ∀ x ∈ a.floats, x.isFinite = true)
    (hrange : a.InRange) : decodeFields? a.tool a.encodeFields = some a := by
  cases a with
  | calculator r =>
      have hvalue : r.value.isFinite = true := hfinite _ List.mem_cons_self
      exact congrArg (·.map calculator) (Arithmetic.Calculation.decode?_encode hvalue)
  | units r =>
      have hvalue : r.value.isFinite = true := hfinite _ List.mem_cons_self
      have hconverted : ∀ x, r.converted = some x → x.isFinite = true := fun x hx =>
        hfinite x (by simp [floats, hx])
      exact congrArg (·.map units) (Measure.Conversion.decode?_encode hvalue hconverted)
  | currency r =>
      have hamount : r.amount.isFinite = true := hfinite _ List.mem_cons_self
      have hrate : ∀ x, r.rate = some x → x.isFinite = true := fun x hx =>
        hfinite x (by simp [floats, hx])
      have hconverted : ∀ x, r.converted = some x → x.isFinite = true := fun x hx =>
        hfinite x (by simp [floats, hx])
      exact congrArg (·.map currency) (Money.Exchange.decode?_encode hamount hrate hconverted)
  | timezone r => exact congrArg (·.map timezone) (Clock.Conversion.decode?_encode hrange)
  | color r =>
      have halpha : ∀ x, r.alpha = some x → x.isFinite = true := fun x hx =>
        hfinite x (by simp [floats, hx])
      exact congrArg (·.map color) (Color.Swatch.decode?_encode halpha)
  | date r => exact congrArg (·.map date) (Calendar.Reckoning.decode?_encode hrange)
  | timer r =>
      have hprogress : r.progress.isFinite = true := hfinite _ List.mem_cons_self
      exact congrArg (·.map timer) (Countdown.decode?_encode hrange.1 hrange.2 hprogress)
  | random r => exact congrArg (·.map random) (Chance.Outcome.decode?_encode hrange.1 hrange.2)
  | wordCount r => exact congrArg (·.map wordCount) (Prose.Count.decode?_encode hrange)
  | translator r => exact congrArg (·.map translator) (Language.Translation.decode?_encode r)
  | dictionary r => exact congrArg (·.map dictionary) (Lexicon.Definition.decode?_encode r)

theorem columns?_encode (a : Answer) : columns? ["module", "result"] a.encode =
    some [some (.string a.tool.name), some a.encodeFields] :=
  columns?_ofFields (by decide) rfl rfl

/-- **The record of an answer is read back as that answer.** An answer whose doubles are finite and
whose whole numbers fit their fields loses nothing in its record, and no other such answer has the
same record. -/
theorem survives_record {a : Answer} (hfinite : ∀ x ∈ a.floats, x.isFinite = true)
    (hrange : a.InRange) : decode? a.encode = some a ∧
      ∀ b : Answer, (∀ x ∈ b.floats, x.isFinite = true) → b.InRange →
        b.encode = a.encode → b = a := by
  have hread : ∀ c : Answer, (∀ x ∈ c.floats, x.isFinite = true) → c.InRange →
      decode? c.encode = some c := by
    intro c hfinite hrange
    simp [decode?, columns?_encode, Tool.named?_name, decodeFields?_encodeFields hfinite hrange]
  refine ⟨hread a hfinite hrange, fun b hfinite' hrange' hsame => ?_⟩
  have hboth := hread b hfinite' hrange'
  rw [hsame, hread a hfinite hrange] at hboth
  exact (Option.some.inj hboth).symm

/-- A conversion with a missing column and an empty list beside its doubles. -/
theorem survives_record_of_conversion :
    let a : Answer := .units ⟨5, "km", some "mi", .length, some 3.1, [], "5 km = 3.1 mi", false⟩
    let b : Answer := .units ⟨5, "km", none, .length, none, ["mi"], "5 km → …", true⟩
    (∀ x ∈ a.floats, x.isFinite = true) ∧ a.InRange ∧ decode? a.encode = some a ∧
      b.encode ≠ a.encode := by
  intro a b
  have hfinite : ∀ x ∈ a.floats, x.isFinite = true := by decide
  obtain ⟨hread, honly⟩ := survives_record hfinite trivial
  exact ⟨hfinite, trivial, hread, fun hsame =>
    absurd (honly b (by decide) trivial hsame) (by decide)⟩

end Answer

end Composer
