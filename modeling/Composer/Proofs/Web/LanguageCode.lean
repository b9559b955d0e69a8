import Composer.Web.Service
import Composer.Proofs.Text.Trim
import Mathlib.Data.List.Basic
/-!
# Composer.Proofs.Web.LanguageCode

**The languages that are sent.** A question is sent only if each of its languages is a code once the
blanks around it are taken off (`address_eq_unsupported_iff`). What is sent is the text as it was
given: a blank is escaped and sent along. So the segment or the side of the pair that stands for a
language is a code exactly if no blank surrounds it, tabs and line ends of a segment apart, which no
address keeps (`sent_languages`).
-/

namespace Composer.Web

open Text (isBlank trim)

/-! ### Codes -/

/-- The code of a language: 1 to 12 letters and digits of ASCII, hyphens and underscores. -/
def IsCode (s : List Char) : Prop :=
  s ≠ [] ∧ s.length ≤ 12 ∧ ∀ c ∈ s, inLanguageCode c = true

theorem isCode_iff_all {s : List Char} :
    (s ≠ [] ∧ s.length ≤ 12 ∧ s.all inLanguageCode = true) ↔ IsCode s := by
  rw [IsCode, List.all_eq_true]

instance (s : List Char) : Decidable (IsCode s) :=
  decidable_of_iff _ isCode_iff_all

theorem isLanguageCode_iff {language : String} :
    isLanguageCode language = true ↔ IsCode (trim language.toList) := by
  simp [isLanguageCode, IsCode, and_assoc]

theorem toNat_of_inLanguageCode {c : Char} (h : inLanguageCode c = true) : c.toNat < 0x80 := by
  have hkinds : (c.isUpper || c.isLower || c.isDigit || c = '-' || c = '_') = true := h
  simp only [Bool.or_eq_true, decide_eq_true_eq, Text.isUpper_iff, Text.isLower_iff,
    Char.isDigit_iff_toNat] at hkinds
  rcases hkinds with (((h | h) | h) | rfl) | rfl
  · omega
  · omega
  · exact Nat.lt_of_le_of_lt h.2 (by decide)
  · decide
  · decide

/-- The characters of a code stand in an address as they are. -/
theorem plain_of_inLanguageCode {c : Char} (h : inLanguageCode c = true) :
    isBlank c = false ∧ inSegment c = true ∧ inField c = true := by
  have htable : ∀ n < 0x80, inLanguageCode (Char.ofNat n) = true →
      isBlank (Char.ofNat n) = false ∧ inSegment (Char.ofNat n) = true ∧
        inField (Char.ofNat n) = true := by
    decide
  have hc := htable c.toNat (toNat_of_inLanguageCode h)
  rw [Char.ofNat_toNat] at hc
  exact hc h

theorem not_inSegment_of_isBlank {c : Char} (h : isBlank c = true) : inSegment c = false := by
  have hvisible : isVisible c = false := by
    simp [isBlank, isVisible] at *
    omega
  simp [inSegment, inPath, inFragment, hvisible]

theorem not_inField_of_isBlank {c : Char} (h : isBlank c = true) : inField c = false := by
  rw [← Bool.not_eq_true]
  intro hfield
  simp only [inField, Bool.or_eq_true, List.contains_eq_mem, decide_eq_true_eq, List.mem_cons,
    List.not_mem_nil, or_false] at hfield
  rcases hfield with halphanum | rfl | rfl | rfl | rfl
  · have hcode : inLanguageCode c = true := by simp [inLanguageCode, halphanum]
    rw [(plain_of_inLanguageCode hcode).1] at h
    cases h
  all_goals cases h

/-! ### Codes in an address -/

theorem percent_mem_escapeChar (c : Char) : '%' ∈ escapeChar c := by
  obtain ⟨b, bs, hbytes⟩ := List.exists_cons_of_ne_nil (String.utf8EncodeChar_ne_nil (c := c))
  simp [escapeChar, hbytes, escapeByte]

/-- A text around a code is written as a code exactly if no blank surrounds it. -/
theorem isCode_flatMap_iff {write : Char → List Char} {s : List Char} (hs : IsCode (trim s))
    (hplain : ∀ c, inLanguageCode c = true → write c = [c])
    (hblank : ∀ c, isBlank c = true → ∃ d ∈ write c, inLanguageCode d = false) :
    IsCode (s.flatMap write) ↔ ∀ c ∈ s, isBlank c = false := by
  constructor
  · intro hcode c hc
    rw [← Bool.not_eq_true]
    intro hb
    obtain ⟨d, hd, hout⟩ := hblank c hb
    have hin := hcode.2.2 d (List.mem_flatMap.mpr ⟨c, hc, hd⟩)
    rw [hout] at hin
    cases hin
  · intro hnone
    rw [Text.trim_eq_self hnone] at hs
    have hsame : s.flatMap write = s := by
      calc s.flatMap write = s.flatMap fun c => [c] :=
            List.flatMap_congr fun c hc => hplain c (hs.2.2 c hc)
        _ = s := List.flatMap_singleton' s
    rwa [hsame]

/-- A side of a pair of languages is a code exactly if no blank surrounds it. -/
theorem isCode_escapeField_iff {s : List Char} (hs : IsCode (trim s)) :
    IsCode (escapeField s) ↔ ∀ c ∈ s, isBlank c = false := by
  refine isCode_flatMap_iff hs (fun c hc => ?_) (fun c hc => ?_)
  · obtain ⟨hblank, -, hfield⟩ := plain_of_inLanguageCode hc
    have hspace : c ≠ ' ' := by
      rintro rfl
      cases hblank
    rw [if_neg hspace, if_pos hfield]
  · by_cases hspace : c = ' '
    · exact ⟨'+', by simp [hspace], rfl⟩
    · refine ⟨'%', ?_, rfl⟩
      rw [if_neg hspace, if_neg (by simp [not_inField_of_isBlank hc])]
      exact percent_mem_escapeChar c

/-- What an address keeps of a text. -/
def kept (text : String) : List Char :=
  text.toList.filter (!isLeftOut ·)

/-- A text as a segment of a path. -/
def segment (text : String) : List Char :=
  escape inSegment (kept text)

theorem isBlank_of_isLeftOut {c : Char} (h : isLeftOut c = true) : isBlank c = true := by
  simp only [isLeftOut, Bool.or_eq_true, decide_eq_true_eq] at h
  rcases h with (rfl | rfl) | rfl
  · rfl
  · rfl
  · rfl

/-- Leaving blanks out does not touch a code between blanks. -/
theorem trim_filter_of_isCode {s : List Char} (hs : IsCode (trim s)) :
    trim (s.filter (!isLeftOut ·)) = trim s := by
  obtain ⟨ws, ws', hws, hws', heq⟩ := Text.trim_eq s
  have hkept : (trim s).filter (!isLeftOut ·) = trim s := by
    rw [List.filter_eq_self]
    intro c hc
    have hblank := (plain_of_inLanguageCode (hs.2.2 c hc)).1
    cases hout : isLeftOut c with
    | false => rfl
    | true => rw [isBlank_of_isLeftOut hout] at hblank; cases hblank
  have hfilter {r : List Char} (hr : ∀ c ∈ r, isBlank c = true) :
      ∀ c ∈ r.filter (!isLeftOut ·), isBlank c = true :=
    fun c hc => hr c (List.mem_of_mem_filter hc)
  calc trim (s.filter (!isLeftOut ·))
      = trim (ws.filter (!isLeftOut ·) ++ trim s ++ ws'.filter (!isLeftOut ·)) := by
        conv_lhs => rw [heq, List.filter_append, List.filter_append, hkept]
    _ = trim s := by
        rw [Text.trim_append_blanks (hfilter hws'), Text.trim_blanks_append (hfilter hws),
          Text.trim_trim]

theorem ne_dots_of_isCode {s : List Char} (h : IsCode (trim s)) : s ≠ ['.'] ∧ s ≠ ['.', '.'] := by
  constructor
  · intro hs
    rw [hs] at h
    exact absurd h (by decide)
  · intro hs
    rw [hs] at h
    exact absurd h (by decide)

theorem isCode_trim_kept {language : String} (h : IsCode (trim language.toList)) :
    IsCode (trim (kept language)) := by
  rwa [kept, trim_filter_of_isCode h]

/-- A segment is a code exactly if the address leaves out all blanks around it. -/
theorem isCode_segment_iff {language : String} (h : IsCode (trim language.toList)) :
    IsCode (segment language) ↔ ∀ c ∈ language.toList, isBlank c = true → isLeftOut c = true := by
  rw [segment, escape, isCode_flatMap_iff (isCode_trim_kept h)]
  · constructor
    · intro hnone c hc hblank
      by_contra hout
      rw [hnone c (List.mem_filter.mpr ⟨hc, by simp [hout]⟩)] at hblank
      cases hblank
    · intro hall c hc
      obtain ⟨hc, hkept⟩ := List.mem_filter.mp hc
      rw [← Bool.not_eq_true]
      intro hblank
      rw [hall c hc hblank] at hkept
      cases hkept
  · intro c hc
    rw [if_pos (plain_of_inLanguageCode hc).2.1]
  · intro c hc
    refine ⟨'%', ?_, rfl⟩
    rw [if_neg (by simp [not_inSegment_of_isBlank hc])]
    exact percent_mem_escapeChar c

/-! ### Addresses -/

/-- The languages that a question names. -/
def languages (s : Settings) : Query → List String
  | .rate _ _ => []
  | .translation _ source target => [source.getD assumedSource, target]
  | .definition _ => [s.dictionaryLanguage]

/-- The address that a question is sent to. -/
def address (s : Settings) (q : Query) : Except LookupError Url := do
  (← requestOf s q).url

variable {s : Settings} {q : Query}

/-- Nothing is sent but to the address of the question. -/
theorem ask_eq (send : Transport) : ask s send q = address s q >>= send := by
  rw [ask, address]
  cases requestOf s q <;> rfl

/-- The first language that is no code is refused. -/
theorem requestOf_eq_error_iff {e : LookupError} : requestOf s q = .error e ↔
    ∃ language, (languages s q).find? (!isLanguageCode ·) = some language ∧
      e = .unsupportedLanguage language := by
  cases q with
  | rate source target => simp [requestOf, languages]
  | translation text source target =>
      simp only [requestOf, languages, List.find?_cons, List.find?_nil]
      by_cases hsource : isLanguageCode (source.getD assumedSource) = true
      · by_cases htarget : isLanguageCode target = true
        · simp [hsource, htarget]
        · simp [hsource, htarget, eq_comm]
      · simp [hsource, eq_comm]
  | definition word =>
      simp only [requestOf, languages, List.find?_cons, List.find?_nil]
      by_cases hlanguage : isLanguageCode s.dictionaryLanguage = true
      · simp [hlanguage]
      · simp [hlanguage, eq_comm]

/-- What a request leads to: the question is not even sent, or its address has the segments and
fields of the request at its end. -/
theorem Request.url_cases (r : Request) : (∃ cause, r.url = .error (.request cause)) ∨
    ∃ base : Url, r.url = .ok ((base.join r.segments).withoutUser.withFields r.fields) := by
  rw [Request.url]
  split
  · exact Or.inl ⟨_, rfl⟩
  · rename_i base _
    by_cases hpath : base.path.isNone = true
    · exact Or.inl ⟨_, if_pos hpath⟩
    · rw [if_neg hpath]
      dsimp only
      split
      · exact Or.inl ⟨_, rfl⟩
      · split
        · exact Or.inr ⟨base, rfl⟩
        · exact Or.inl ⟨_, rfl⟩

/-- An unsupported language is the first one that is no code between its blanks. -/
theorem address_eq_unsupported_iff {language : String} :
    address s q = .error (.unsupportedLanguage language) ↔
      (languages s q).find? (fun l => ¬ IsCode (trim l.toList)) = some language := by
  have hcheck : (fun l : String => decide (¬ IsCode (trim l.toList))) = (!isLanguageCode ·) := by
    funext l
    simp [← isLanguageCode_iff]
  rw [hcheck, address]
  cases hr : requestOf s q with
  | error e =>
      obtain ⟨l, hl, rfl⟩ := requestOf_eq_error_iff.mp hr
      rw [hl]
      simp [bind, Except.bind]
  | ok r =>
      have hnone : (languages s q).find? (!isLanguageCode ·) ≠ some language := by
        intro hl
        cases hr.symm.trans (requestOf_eq_error_iff.mpr ⟨language, hl, rfl⟩)
      refine iff_of_false ?_ hnone
      rcases r.url_cases with ⟨cause, hurl⟩ | ⟨base, hurl⟩
      · simp [bind, Except.bind, hurl]
      · simp [bind, Except.bind, hurl]

/-- The address of a question comes from a request whose languages are codes. -/
theorem exists_request {u : Url} (h : address s q = .ok u) :
    (∀ l ∈ languages s q, IsCode (trim l.toList)) ∧ ∃ r, requestOf s q = .ok r ∧
      ∃ base : Url, u = (base.join r.segments).withoutUser.withFields r.fields := by
  rw [address] at h
  cases hr : requestOf s q with
  | error e => rw [hr] at h; cases h
  | ok r =>
      rw [hr] at h
      refine ⟨fun l hl => ?_, r, rfl, ?_⟩
      · by_contra hcode
        cases hfind : (languages s q).find? (!isLanguageCode ·) with
        | none =>
            have hall := List.find?_eq_none.mp hfind l hl
            rw [← isLanguageCode_iff] at hcode
            simp [hcode] at hall
        | some l' => cases hr.symm.trans (requestOf_eq_error_iff.mpr ⟨l', hfind, rfl⟩)
      · rcases r.url_cases with ⟨cause, hurl⟩ | ⟨base, hurl⟩
        · cases hurl.symm.trans h
        · exact ⟨base, Except.ok.inj (h.symm.trans hurl)⟩

theorem path_withFields (u : Url) (fields : List (String × String)) :
    (u.withFields fields).path = u.path := by
  rw [Url.withFields]
  split
  · rfl
  · split <;> rfl

/-- Fields stand at the end of the query. -/
theorem query_withFields (u : Url) {fields : List (String × String)} (h : fields ≠ []) :
    ∃ front, (u.withFields fields).query = some (front ++ writeFields fields) := by
  rw [Url.withFields, if_neg (by simpa using h)]
  split
  · exact ⟨[], rfl⟩
  · exact ⟨[], rfl⟩
  · rename_i query _ _
    exact ⟨query ++ ['&'], by simp⟩

/-- The path behind one segment and more. Dots are left as they are or carried out. -/
theorem pushSegment_of_ne {path : List (List Char)} (h : path ≠ [[]]) (text : String) :
    pushSegment path text.toList =
      if text.toList = ['.'] ∨ text.toList = ['.', '.'] then path
      else if kept text = ['.', '.'] then path.dropLast ++ [[]]
      else if kept text = ['.'] then path ++ [[]]
      else path ++ [segment text] := by
  unfold pushSegment
  rw [if_neg h]
  rfl

theorem exists_pushSegment_entries (path : List (List Char)) :
    ∃ front, pushSegment path "entries".toList = front ++ ["entries".toList] := by
  have hescape : escape inSegment ("entries".toList.filter (!isLeftOut ·)) = "entries".toList := by
    decide
  unfold pushSegment
  rw [if_neg (by decide), if_neg (by decide), if_neg (by decide), hescape]
  exact ⟨_, rfl⟩

/-- A code is not dots, so the language becomes a segment. -/
theorem pushSegment_language {language : String} (h : IsCode (trim language.toList))
    {path : List (List Char)} (hpath : path ≠ [[]]) :
    pushSegment path language.toList = path ++ [segment language] := by
  obtain ⟨hdot, hdots⟩ := ne_dots_of_isCode h
  obtain ⟨hdot', hdots'⟩ := ne_dots_of_isCode (isCode_trim_kept h)
  rw [pushSegment_of_ne hpath, if_neg (by simp [hdot, hdots]), if_neg hdots', if_neg hdot']

/-- The path of a definition. The language is a segment behind `entries`, unless the word comes to
two dots without its tabs and line ends: these lead back over the language. -/
theorem path_join_definition (u : Url) {language : String} (h : IsCode (trim language.toList))
    (word : String) :
    ∃ front, (u.join ["entries", language, word]).path = some (front ++ "entries".toList ::
      if word.toList = ['.'] ∨ word.toList = ['.', '.'] then [segment language]
      else if kept word = ['.', '.'] then [[]]
      else if kept word = ['.'] then [segment language, []]
      else [segment language, segment word]) := by
  obtain ⟨front, hfront⟩ := exists_pushSegment_entries u.basePath
  have hentries : front ++ ["entries".toList] ≠ [[]] := by
    intro hpath
    have hlast := congrArg List.getLast? hpath
    rw [List.getLast?_concat] at hlast
    exact absurd hlast (by decide)
  have hlanguage : front ++ ["entries".toList] ++ [segment language] ≠ [[]] := by
    intro hpath
    have hlength := congrArg List.length hpath
    simp at hlength
  refine ⟨front, ?_⟩
  show some (pushSegment (pushSegment (pushSegment _ _) language.toList) word.toList) = _
  rw [hfront, pushSegment_language h hentries, pushSegment_of_ne hlanguage, List.dropLast_concat]
  split_ifs <;> simp

theorem escapeField_append (a b : List Char) :
    escapeField (a ++ b) = escapeField a ++ escapeField b :=
  List.flatMap_append

/-- The fields of a translation, as they are written. -/
theorem writeFields_translation (text source target : String) :
    writeFields [("q", text), ("langpair", source ++ "|" ++ target)] =
      "q=".toList ++ escapeField text.toList ++ "&langpair=".toList ++
        escapeField source.toList ++ "%7C".toList ++ escapeField target.toList := by
  have hpair : escapeField (source ++ "|" ++ target).toList =
      escapeField source.toList ++ "%7C".toList ++ escapeField target.toList := by
    rw [String.toList_append, String.toList_append, escapeField_append, escapeField_append]
    rfl
  have hnames : escapeField "q".toList = ['q'] ∧
      escapeField "langpair".toList = "langpair".toList := by
    decide
  have hfields : writeFields [("q", text), ("langpair", source ++ "|" ++ target)] =
      escapeField "q".toList ++ '=' :: escapeField text.toList ++ '&' ::
        (escapeField "langpair".toList ++ '=' ::
          escapeField (source ++ "|" ++ target).toList) := by
    rw [writeFields, List.map_cons, List.map_cons, List.map_nil, List.intercalate_cons_cons,
      List.intercalate_singleton]
    simp only [List.append_assoc, List.cons_append, List.nil_append]
  rw [hfields, hpair, hnames.1, hnames.2]
  simp

/-- **Which languages are sent.** A question is refused exactly if one of its languages is no code
between its blanks; the first such language is named, and nothing is sent. Otherwise the language of
a definition is the whole segment after `entries`, and the two languages of a translation are the
two sides of the pair. Such a segment is a code exactly if the blanks around the language are tabs
and line ends, and such a side exactly if there are none. Only a word of two dots with tabs or line
ends in it takes the language out of the path. -/
theorem sent_languages (s : Settings) :
    (∀ q language, address s q = .error (.unsupportedLanguage language) ↔
      (languages s q).find? (fun l => ¬ IsCode (trim l.toList)) = some language) ∧
    (∀ q send, ask s send q = address s q >>= send) ∧
    (∀ word u, address s (.definition word) = .ok u →
      (∃ front, u.path = some (front ++ "entries".toList ::
        if word.toList = ['.'] ∨ word.toList = ['.', '.'] then [segment s.dictionaryLanguage]
        else if kept word = ['.', '.'] then [[]]
        else if kept word = ['.'] then [segment s.dictionaryLanguage, []]
        else [segment s.dictionaryLanguage, segment word])) ∧
      (IsCode (segment s.dictionaryLanguage) ↔
        ∀ c ∈ s.dictionaryLanguage.toList, isBlank c = true → isLeftOut c = true)) ∧
    ∀ text source target u, address s (.translation text source target) = .ok u →
      (∃ front, u.query = some (front ++ ("q=".toList ++ escapeField text.toList ++
        "&langpair=".toList ++ escapeField (source.getD assumedSource).toList ++ "%7C".toList ++
          escapeField target.toList))) ∧
      ∀ l ∈ languages s (.translation text source target),
        (IsCode (escapeField l.toList) ↔ ∀ c ∈ l.toList, isBlank c = false) := by
  refine ⟨fun q language => address_eq_unsupported_iff, fun q send => ask_eq send,
    fun word u hu => ?_, fun text source target u hu => ?_⟩
  · obtain ⟨hcodes, r, hr, base, rfl⟩ := exists_request hu
    have hcode := hcodes s.dictionaryLanguage List.mem_cons_self
    rw [requestOf, if_neg (by simp [isLanguageCode_iff, hcode])] at hr
    obtain rfl := Except.ok.inj hr
    refine ⟨?_, isCode_segment_iff hcode⟩
    rw [path_withFields]
    exact path_join_definition base hcode word
  · obtain ⟨hcodes, r, hr, base, rfl⟩ := exists_request hu
    have hsource := hcodes (source.getD assumedSource) List.mem_cons_self
    have htarget := hcodes target (List.mem_cons_of_mem _ List.mem_cons_self)
    refine ⟨?_, fun l hl => isCode_escapeField_iff (hcodes l hl)⟩
    dsimp only [requestOf] at hr
    rw [if_neg (by simp [isLanguageCode_iff, hsource]),
      if_neg (by simp [isLanguageCode_iff, htarget])] at hr
    obtain rfl := Except.ok.inj hr
    have hfields : [("q", text), ("langpair", source.getD assumedSource ++ "|" ++ target)] ≠ [] :=
      List.cons_ne_nil _ _
    obtain ⟨front, hquery⟩ := query_withFields (base.join ["get"]).withoutUser hfields
    rw [writeFields_translation] at hquery
    exact ⟨front, hquery⟩

/-- The line end after a language is not sent, and what is sent is a code. -/
theorem sent_languages_newline :
    ∃ u, address { Settings.default with dictionaryLanguage := "zh-CN\n" } (.definition "cat") =
        .ok u ∧
      (∃ front, u.path = some (front ++ ["entries".toList, "zh-CN".toList, "cat".toList])) ∧
      IsCode (segment "zh-CN\n") := by
  have haddress : ∃ u, address { Settings.default with dictionaryLanguage := "zh-CN\n" }
      (.definition "cat") = .ok u := ⟨_, rfl⟩
  obtain ⟨u, hu⟩ := haddress
  obtain ⟨⟨front, hpath⟩, hcode⟩ := (sent_languages _).2.2.1 "cat" u hu
  have hblanks : ∀ c ∈ "zh-CN\n".toList, isBlank c = true → isLeftOut c = true := by
    simp [isBlank, isLeftOut]
  exact ⟨u, hu, ⟨front, hpath⟩, hcode.mpr hblanks⟩

/-- Settings that pass their check send a language that is no code, and so does a translation. -/
theorem sent_languages_space :
    (∃ s, ({ Settings.default with dictionaryLanguage := " en" } : Settings).validate = .ok s ∧
      ∃ u, address s (.definition "cat") = .ok u ∧
        u.path = some ["api".toList, "v2".toList, "entries".toList, "%20en".toList, "cat".toList] ∧
        ¬ IsCode "%20en".toList) ∧
    ∃ u, address Settings.default (.translation "cat" none " es") = .ok u ∧
      u.query = some "q=cat&langpair=en%7C+es".toList ∧ ¬ IsCode "+es".toList := by
  exact ⟨⟨_, rfl, _, rfl, rfl, by decide⟩, _, rfl, rfl, by decide⟩

end Composer.Web
