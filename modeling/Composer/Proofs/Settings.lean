import Composer.Proofs.Json.Decode
import Composer.Proofs.Json.Text
import Composer.Settings.Basic
/-!
# Composer.Proofs.Settings

**Settings are read as they were written.** Which settings an object gives is said field by field
(`Settings.GivenBy`), with nothing about how they are decoded; decoding finds exactly these
(`Settings.decode?_object_iff`), and so neither the order of the fields nor unknown ones matter. What
was found is accepted if it can be used (`Settings.Valid`). The main statement is
`Settings.ofText_spec`.
-/

namespace Composer

namespace Endpoints

/-! ### Addresses -/

/-- The names of the fields. -/
def fieldNames : List String :=
  ["currency_base_url", "translate_base_url", "dictionary_base_url"]

/-- The values of the fields in their order. -/
def row (e : Endpoints) : List Json :=
  [.string e.currency, .string e.translation, .string e.dictionary]

/-- The fields give these addresses, each one by itself. -/
structure GivenBy (e : Endpoints) (fields : List (String × Json)) : Prop where
  currency : Json.Gives fields "currency_base_url" (· = .string e.currency)
    (e.currency = Endpoints.default.currency)
  translation : Json.Gives fields "translate_base_url" (· = .string e.translation)
    (e.translation = Endpoints.default.translation)
  dictionary : Json.Gives fields "dictionary_base_url" (· = .string e.dictionary)
    (e.dictionary = Endpoints.default.dictionary)

/-- A value gives these addresses: an object by its fields, or a sequence of the first of them with
the defaults of the others. -/
inductive ReadFrom (e : Endpoints) : Json → Prop where
  | object {fields : List (String × Json)} : e.GivenBy fields → ReadFrom e (.object fields)
  | array {items : List Json} :
      items ++ Endpoints.default.row.drop items.length = e.row → ReadFrom e (.array items)

theorem decode?_object_iff {fields : List (String × Json)} {e : Endpoints} :
    decode? (.object fields) = some e ↔ e.GivenBy fields := by
  constructor
  · intro h
    obtain ⟨_, hcolumns, h⟩ := Option.bind_eq_some_iff.mp h
    obtain _ | ⟨hc, _ | ⟨ht, _ | ⟨hd, _ | _⟩⟩⟩ := Json.forall₂_of_columns? hcolumns
    obtain ⟨_, hcurrency, h⟩ := Option.bind_eq_some_iff.mp h
    obtain ⟨_, htranslation, h⟩ := Option.bind_eq_some_iff.mp h
    obtain ⟨_, hdictionary, h⟩ := Option.bind_eq_some_iff.mp h
    obtain rfl := Option.some.inj h
    exact ⟨Json.gives_string_iff.mpr ⟨_, hc, hcurrency⟩,
      Json.gives_string_iff.mpr ⟨_, ht, htranslation⟩,
      Json.gives_string_iff.mpr ⟨_, hd, hdictionary⟩⟩
  · intro h
    obtain ⟨_, hc, hcurrency⟩ := Json.gives_string_iff.mp h.currency
    obtain ⟨_, ht, htranslation⟩ := Json.gives_string_iff.mp h.translation
    obtain ⟨_, hd, hdictionary⟩ := Json.gives_string_iff.mp h.dictionary
    simp [decode?, Json.columns?, List.mapM_cons, hc, ht, hd, hcurrency, htranslation,
      hdictionary]

theorem decode?_array_iff {items : List Json} {e : Endpoints} :
    decode? (.array items) = some e ↔
      items ++ Endpoints.default.row.drop items.length = e.row := by
  obtain ⟨currency, translation, dictionary⟩ := e
  rcases items with _ | ⟨a, _ | ⟨b, _ | ⟨c, _ | ⟨d, rest⟩⟩⟩⟩ <;>
    simp [decode?, Json.columns?, row, Json.orElse, Option.bind_eq_some_iff,
      Json.asString?_eq_some_iff]

/-- Addresses are decoded from what gives them. -/
theorem decode?_eq_some_iff {j : Json} {e : Endpoints} : decode? j = some e ↔ e.ReadFrom j := by
  constructor
  · intro h
    cases j with
    | object fields => exact .object (decode?_object_iff.mp h)
    | array items => exact .array (decode?_array_iff.mp h)
    | _ => cases h
  · rintro (h | h)
    · exact decode?_object_iff.mpr h
    · exact decode?_array_iff.mpr h

theorem ReadFrom.of_same {e : Endpoints} {fields fields' : List (String × Json)}
    (hsame : Json.SameFields fieldNames fields fields') (h : e.ReadFrom (.object fields)) :
    e.ReadFrom (.object fields') := by
  cases h with
  | object h =>
      exact .object ⟨h.currency.of_same hsame (by decide), h.translation.of_same hsame (by decide),
        h.dictionary.of_same hsame (by decide)⟩

theorem readFrom_encode (e : Endpoints) : e.ReadFrom e.encode :=
  .object ⟨Or.inl ⟨_, by simp, rfl⟩, Or.inl ⟨_, by simp, rfl⟩, Or.inl ⟨_, by simp, rfl⟩⟩

end Endpoints

namespace Settings

/-! ### Decoding -/

/-- The names of the fields. -/
def fieldNames : List String :=
  ["command_trigger", "default_target_lang", "dictionary_lang", "timer_tick_ms",
    "rate_cache_ttl_secs", "user_agent", "endpoints"]

/-- The whole numbers have 64 bits. -/
structure Fits64 (s : Settings) : Prop where
  tickMilliseconds : s.tickMilliseconds < 2 ^ 64
  rateLifetime : s.rateLifetime < 2 ^ 64

/-- The fields give these settings, each one by itself. -/
structure GivenBy (s : Settings) (fields : List (String × Json)) : Prop where
  trigger : Json.Gives fields "command_trigger" (· = .string (String.singleton s.trigger))
    (s.trigger = Settings.default.trigger)
  targetLanguage : Json.Gives fields "default_target_lang" (· = .string s.targetLanguage)
    (s.targetLanguage = Settings.default.targetLanguage)
  dictionaryLanguage : Json.Gives fields "dictionary_lang" (· = .string s.dictionaryLanguage)
    (s.dictionaryLanguage = Settings.default.dictionaryLanguage)
  tickMilliseconds : Json.Gives fields "timer_tick_ms" (· = .ofNat s.tickMilliseconds)
    (s.tickMilliseconds = Settings.default.tickMilliseconds)
  rateLifetime : Json.Gives fields "rate_cache_ttl_secs" (· = .ofNat s.rateLifetime)
    (s.rateLifetime = Settings.default.rateLifetime)
  userAgent : Json.Gives fields "user_agent" (· = .string s.userAgent)
    (s.userAgent = Settings.default.userAgent)
  endpoints : Json.Gives fields "endpoints" s.endpoints.ReadFrom
    (s.endpoints = Settings.default.endpoints)

theorem gives_endpoints_iff {fields : List (String × Json)} {name : String} {d v : Endpoints} :
    Json.Gives fields name v.ReadFrom (v = d) ↔
      ∃ c, Json.column? fields name = some c ∧ Json.orElse d Endpoints.decode? c = some v := by
  rw [← Json.gives_iff]
  simp only [Endpoints.decode?_eq_some_iff]

theorem decode?_object_iff {fields : List (String × Json)} {s : Settings} :
    decode? (.object fields) = some s ↔ s.Fits64 ∧ s.GivenBy fields := by
  constructor
  · intro h
    obtain ⟨_, hcolumns, h⟩ := Option.bind_eq_some_iff.mp h
    obtain _ | ⟨ht, _ | ⟨hl, _ | ⟨hd, _ | ⟨hk, _ | ⟨hr, _ | ⟨ha, _ | ⟨he, _ | _⟩⟩⟩⟩⟩⟩⟩ :=
      Json.forall₂_of_columns? hcolumns
    obtain ⟨_, htrigger, h⟩ := Option.bind_eq_some_iff.mp h
    obtain ⟨_, htarget, h⟩ := Option.bind_eq_some_iff.mp h
    obtain ⟨_, hdictionary, h⟩ := Option.bind_eq_some_iff.mp h
    obtain ⟨_, htick, h⟩ := Option.bind_eq_some_iff.mp h
    obtain ⟨_, hlifetime, h⟩ := Option.bind_eq_some_iff.mp h
    obtain ⟨_, hagent, h⟩ := Option.bind_eq_some_iff.mp h
    obtain ⟨_, hendpoints, h⟩ := Option.bind_eq_some_iff.mp h
    obtain rfl := Option.some.inj h
    obtain ⟨htick64, htick⟩ := (Json.gives_ofNat_iff (by decide)).mpr ⟨_, hk, htick⟩
    obtain ⟨hlifetime64, hlifetime⟩ := (Json.gives_ofNat_iff (by decide)).mpr ⟨_, hr, hlifetime⟩
    exact ⟨⟨htick64, hlifetime64⟩, Json.gives_char_iff.mpr ⟨_, ht, htrigger⟩,
      Json.gives_string_iff.mpr ⟨_, hl, htarget⟩, Json.gives_string_iff.mpr ⟨_, hd, hdictionary⟩,
      htick, hlifetime, Json.gives_string_iff.mpr ⟨_, ha, hagent⟩,
      gives_endpoints_iff.mpr ⟨_, he, hendpoints⟩⟩
  · rintro ⟨hfits, h⟩
    obtain ⟨_, ht, htrigger⟩ := Json.gives_char_iff.mp h.trigger
    obtain ⟨_, hl, htarget⟩ := Json.gives_string_iff.mp h.targetLanguage
    obtain ⟨_, hd, hdictionary⟩ := Json.gives_string_iff.mp h.dictionaryLanguage
    obtain ⟨_, hk, htick⟩ :=
      (Json.gives_ofNat_iff (by decide)).mp ⟨hfits.tickMilliseconds, h.tickMilliseconds⟩
    obtain ⟨_, hr, hlifetime⟩ :=
      (Json.gives_ofNat_iff (by decide)).mp ⟨hfits.rateLifetime, h.rateLifetime⟩
    obtain ⟨_, ha, hagent⟩ := Json.gives_string_iff.mp h.userAgent
    obtain ⟨_, he, hendpoints⟩ := gives_endpoints_iff.mp h.endpoints
    simp [decode?, Json.columns?, List.mapM_cons, ht, hl, hd, hk, hr, ha, he, htrigger, htarget,
      hdictionary, htick, hlifetime, hagent, hendpoints]

/-- What is known of fields one by one carries over to settings. -/
theorem GivenBy.of_gives {s : Settings} {fields fields' : List (String × Json)}
    (h : s.GivenBy fields)
    (hgives : ∀ name ∈ fieldNames, ∀ kind isDefault,
      (name = "endpoints" → kind = s.endpoints.ReadFrom) →
        Json.Gives fields name kind isDefault → Json.Gives fields' name kind isDefault) :
    s.GivenBy fields' where
  trigger := hgives _ (by decide) _ _ (by simp) h.trigger
  targetLanguage := hgives _ (by decide) _ _ (by simp) h.targetLanguage
  dictionaryLanguage := hgives _ (by decide) _ _ (by simp) h.dictionaryLanguage
  tickMilliseconds := hgives _ (by decide) _ _ (by simp) h.tickMilliseconds
  rateLifetime := hgives _ (by decide) _ _ (by simp) h.rateLifetime
  userAgent := hgives _ (by decide) _ _ (by simp) h.userAgent
  endpoints := hgives _ (by decide) _ _ (fun _ => rfl) h.endpoints

/-- Objects that give the same settings are decoded alike. -/
theorem ofJson_congr {fields fields' : List (String × Json)}
    (h : ∀ s : Settings, s.GivenBy fields ↔ s.GivenBy fields') :
    ofJson (.object fields) = ofJson (.object fields') := by
  have hdecode : decode? (.object fields) = decode? (.object fields') := by
    ext s
    rw [decode?_object_iff, decode?_object_iff, h s]
  rw [ofJson, ofJson, hdecode]

/-- Neither the order of the fields nor unknown fields make a difference. -/
theorem ofJson_of_same {fields fields' : List (String × Json)}
    (hsame : Json.SameFields fieldNames fields fields') :
    ofJson (.object fields) = ofJson (.object fields') := by
  refine ofJson_congr fun s => ⟨fun h => h.of_gives ?_, fun h => h.of_gives ?_⟩
  · exact fun name hname _ _ _ hg => hg.of_same hsame hname
  · exact fun name hname _ _ _ hg => hg.of_same hsame.symm hname

/-- The same is true of the addresses inside. -/
theorem ofJson_of_same_endpoints {fields fields' : List (String × Json)}
    (hsame : Json.SameFields Endpoints.fieldNames fields fields')
    (before after : List (String × Json)) :
    ofJson (.object (before ++ ("endpoints", .object fields) :: after)) =
      ofJson (.object (before ++ ("endpoints", .object fields') :: after)) := by
  refine ofJson_congr fun s => ⟨fun h => h.of_gives ?_, fun h => h.of_gives ?_⟩
  · intro name _ kind _ hkind hg
    refine hg.of_replaced fun heq => ?_
    rw [hkind heq.symm]
    exact Endpoints.ReadFrom.of_same hsame
  · intro name _ kind _ hkind hg
    refine hg.of_replaced fun heq => ?_
    rw [hkind heq.symm]
    exact Endpoints.ReadFrom.of_same hsame.symm

/-! ### Checks -/

/-- Settings that can be used: the trigger does not begin ordinary text, time passes between ticks,
and both languages are named. -/
structure Valid (s : Settings) : Prop where
  not_isAlphanumeric : Text.isAlphanumeric s.trigger = false
  not_isBlank : Text.isBlank s.trigger = false
  tickMilliseconds_pos : 0 < s.tickMilliseconds
  targetLanguage_not_blank : Text.allBlank s.targetLanguage.toList = false
  dictionaryLanguage_not_blank : Text.allBlank s.dictionaryLanguage.toList = false

theorem validate_eq_ok {s : Settings} (h : s.Valid) : s.validate = .ok s := by
  have hfault : s.fault? = none := by
    simp [fault?, h.not_isAlphanumeric, h.not_isBlank, h.tickMilliseconds_pos.ne',
      h.targetLanguage_not_blank, h.dictionaryLanguage_not_blank]
  rw [validate, hfault]

/-- What is wrong with settings is said of one of their fields. -/
theorem exists_fault {s : Settings} (h : ¬ s.Valid) :
    ∃ field ∈ fieldNames, ∃ reason, s.fault? = some (.invalid field reason) := by
  unfold fault?
  split
  · exact ⟨_, by decide, _, rfl⟩
  rename_i htrigger
  split
  · exact ⟨_, by decide, _, rfl⟩
  rename_i htick
  split
  · exact ⟨_, by decide, _, rfl⟩
  rename_i htarget
  split
  · exact ⟨_, by decide, _, rfl⟩
  rename_i hdictionary
  simp only [Bool.or_eq_true, not_or, Bool.not_eq_true] at htrigger htarget hdictionary
  exact absurd ⟨htrigger.1, htrigger.2, Nat.pos_of_ne_zero htick, htarget, hdictionary⟩ h

theorem validate_eq_error {s : Settings} (h : ¬ s.Valid) :
    ∃ field ∈ fieldNames, ∃ reason, s.validate = .error (.invalid field reason) := by
  obtain ⟨field, hfield, reason, hfault⟩ := exists_fault h
  exact ⟨field, hfield, reason, by rw [validate, hfault]⟩

theorem validate_eq_ok_iff {s s' : Settings} : s.validate = .ok s' ↔ s = s' ∧ s.Valid := by
  by_cases h : s.Valid
  · simp [validate_eq_ok h, h]
  · obtain ⟨field, -, reason, herror⟩ := validate_eq_error h
    simp [herror, h]

theorem ofJson_object_eq_ok_iff {fields : List (String × Json)} {s : Settings} :
    ofJson (.object fields) = .ok s ↔ s.Valid ∧ s.Fits64 ∧ s.GivenBy fields := by
  rw [← decode?_object_iff, ofJson]
  cases decode? (.object fields) with
  | none => simp
  | some s' =>
      simp only [validate_eq_ok_iff, Option.some.injEq]
      constructor
      · rintro ⟨rfl, h⟩
        exact ⟨h, rfl⟩
      · rintro ⟨h, rfl⟩
        exact ⟨rfl, h⟩

/-! ### Written settings -/

/-- What is written gives what was written. -/
theorem decode?_encode {s : Settings} (h : s.Fits64) : decode? s.encode = some s := by
  rw [encode, decode?_object_iff]
  exact ⟨h, Or.inl ⟨_, by simp, rfl⟩, Or.inl ⟨_, by simp, rfl⟩, Or.inl ⟨_, by simp, rfl⟩,
    Or.inl ⟨_, by simp, rfl⟩, Or.inl ⟨_, by simp, rfl⟩, Or.inl ⟨_, by simp, rfl⟩,
    Or.inl ⟨_, by simp, s.endpoints.readFrom_encode⟩⟩

theorem exact_encode {s : Settings} (h : s.Fits64) : s.encode.Exact := by
  have htick := Json.exact_ofNat h.tickMilliseconds
  have hlifetime := Json.exact_ofNat h.rateLifetime
  have hendpoints : s.endpoints.encode.Exact := by
    refine .object ?_
    simp [Json.Exact.string]
  refine .object ?_
  simp [Json.Exact.string, htick, hlifetime, hendpoints]

/-- **Settings are read as they were written, and field by field.** Settings whose whole numbers have
64 bits are read back from the text that writes them, on one line or over several, if they can be
used, and otherwise one of their fields is said to be invalid. An object is accepted exactly if its
fields give settings that can be used: each known field is there once and sets what it names, or it
is missing and this has its default. Neither the order of the fields nor unknown fields make a
difference, to the settings and to the addresses inside. -/
theorem ofText_spec :
    (∀ s : Settings, s.Fits64 → ∀ text ∈ [s.encode.compact, s.encode.pretty],
      (s.Valid → ofText text = .ok s) ∧
        (¬ s.Valid →
          ∃ field ∈ fieldNames, ∃ reason, ofText text = .error (.invalid field reason))) ∧
    (∀ text fields, Json.parse? text = some (.object fields) →
      ∀ s, ofText text = .ok s ↔ s.Valid ∧ s.Fits64 ∧ s.GivenBy fields) ∧
    (∀ text text' fields fields', Json.parse? text = some (.object fields) →
      Json.parse? text' = some (.object fields') → Json.SameFields fieldNames fields fields' →
        ofText text = ofText text') ∧
    ∀ text text' before after fields fields',
      Json.parse? text = some (.object (before ++ ("endpoints", .object fields) :: after)) →
      Json.parse? text' = some (.object (before ++ ("endpoints", .object fields') :: after)) →
        Json.SameFields Endpoints.fieldNames fields fields' → ofText text = ofText text' := by
  refine ⟨fun s hfits text htext => ?_, fun text fields htext s => ?_,
    fun text text' fields fields' htext htext' hsame => ?_,
    fun text text' before after fields fields' htext htext' hsame => ?_⟩
  · have hparse : Json.parse? text = some s.encode := by
      simp only [List.mem_cons, List.not_mem_nil, or_false] at htext
      rcases htext with rfl | rfl
      · exact Json.parse?_compact (exact_encode hfits)
      · exact Json.parse?_pretty (exact_encode hfits)
    have hread : ofText text = s.validate := by
      rw [ofText, hparse]
      simp only [ofJson, decode?_encode hfits]
    rw [hread]
    exact ⟨validate_eq_ok, validate_eq_error⟩
  · simp only [ofText, htext, ofJson_object_eq_ok_iff]
  · simp only [ofText, htext, htext', ofJson_of_same hsame]
  · simp only [ofText, htext, htext', ofJson_of_same_endpoints hsame before after]

/-- The settings that hold when nothing is set, written on one line. -/
theorem ofText_spec_of_default :
    Settings.default.Fits64 ∧ Settings.default.Valid ∧
      ofText Settings.default.encode.compact = .ok Settings.default := by
  have hfits : Settings.default.Fits64 := ⟨by decide, by decide⟩
  have hvalid : Settings.default.Valid :=
    ⟨by decide, by decide, by decide, by decide, by decide⟩
  exact ⟨hfits, hvalid,
    (ofText_spec.1 Settings.default hfits _ List.mem_cons_self).1 hvalid⟩

end Settings

end Composer
