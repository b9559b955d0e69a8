import Composer.Proofs.Detection.Marks
import Composer.Proofs.Text.Lowercase
/-!
# Composer.Proofs.Detection.Amounts

**Marks behind amounts.** Conversions of units and of currencies begin with a number, and what
tells them from other phrases is the name behind it. The name is read up to the next word of the
phrase and looked up afterwards, so the answer of a reading says how its text begins, and the table
says that this is a mark.
-/

namespace Composer.Detection

open Text

/-! ### Amounts -/

theorem inNumber_of_isDigit {c : Char} (h : c.isDigit = true) : inNumber c = true := by
  simp [inNumber, isDecimalDigit, h]

theorem inNumber_of_inAmount {c : Char} (h : Measure.inAmount c = true) : inNumber c = true := by
  simp only [Measure.inAmount, Bool.or_eq_true, decide_eq_true_eq] at h
  rcases h with h | rfl
  · exact inNumber_of_isDigit h
  · rfl

/-- The characters of a number at the beginning of a text, and what is left of it. -/
theorem number_split {p : Char → Bool} (hp : ∀ c, p c = true → inNumber c = true) {c : Char}
    (hc : inNumber c = true) (s : List Char) :
    c :: s = (c :: s.takeWhile p) ++ s.dropWhile p ∧ ∀ d ∈ c :: s.takeWhile p, inNumber d = true :=
  ⟨by rw [List.cons_append, List.takeWhile_append_dropWhile],
    List.forall_mem_cons.mpr ⟨hc, fun d hd => hp d (List.mem_takeWhile_imp hd)⟩⟩

/-- The fraction of an amount, from its point on. -/
def fractionAfter {β : Type} (k : List Char → Reading β) (whole : List Char) : Reading β
  | '.' :: r =>
    match r.takeWhile Char.isDigit with
    | [] => none
    | part => k (whole ++ '.' :: part) (r.dropWhile Char.isDigit)
  | _ => none

theorem fractionAfter_eq_some {β : Type} {k : List Char → Reading β} {whole s : List Char} {b : β}
    (h : fractionAfter k whole s = some b) : ∃ number ds rest, s = ds ++ rest ∧
      (∀ c ∈ ds, inNumber c = true) ∧ ds ≠ [] ∧ k number rest = some b := by
  unfold fractionAfter at h
  split at h
  · split at h
    · cases h
    · obtain ⟨hsplit, hnumber⟩ := number_split (c := '.') (fun _ => inNumber_of_isDigit) rfl _
      exact ⟨_, _, _, hsplit, hnumber, by simp, h⟩
  · cases h

/-- An amount is a number behind a sign or none. -/
theorem amount_eq_some {β : Type} {k : List Char → Reading β} {s : List Char} {b : β}
    (h : Measure.amount k s = some b) :
    ∃ sign number ds rest, (sign = [] ∨ sign = ['-']) ∧ s = sign ++ (ds ++ rest) ∧
      (∀ c ∈ ds, inNumber c = true) ∧ ds ≠ [] ∧ k number rest = some b := by
  unfold Measure.amount at h
  split at h
  next sign t hsplit =>
  have hsign : (sign = [] ∨ sign = ['-']) ∧ s = sign ++ t := by
    split at hsplit <;> cases hsplit
    · exact ⟨Or.inr rfl, rfl⟩
    · exact ⟨Or.inl rfl, rfl⟩
  obtain ⟨hsign, rfl⟩ := hsign
  dsimp only at h
  split at h
  · next c r =>
      split at h
      · next hc =>
          obtain ⟨hsplit, hnumber⟩ :=
            number_split (fun _ => inNumber_of_inAmount) (inNumber_of_isDigit hc) r
          rw [Option.orElse_eq_orElse, Option.orElse_eq_or, Option.or_eq_some_iff] at h
          -- The number goes on with a fraction if what follows can be read behind it.
          rcases h with h | ⟨-, h⟩
          · obtain ⟨number, ds, rest, hrest, hds, -, hk⟩ := fractionAfter_eq_some h
            refine ⟨sign, number, (c :: r.takeWhile Measure.inAmount) ++ ds, rest, hsign, ?_, ?_,
              by simp, hk⟩
            · rw [hsplit, hrest, List.append_assoc]
            · exact fun d hd => (List.mem_append.mp hd).elim (hnumber d) (hds d)
          · exact ⟨sign, _, _, _, hsign, congrArg (sign ++ ·) hsplit, hnumber, by simp, h⟩
      · obtain ⟨number, ds, rest, hrest, hds, hne, hk⟩ := fractionAfter_eq_some h
        exact ⟨sign, number, ds, rest, hsign, congrArg (sign ++ ·) hrest, hds, hne, hk⟩
  · cases h

/-- An amount is a number, whose sign does not show. -/
theorem opens_amount {β : Type} {k : List Char → Reading β} {H : β → List Char → Prop}
    (h : ∀ n, Opens .number (k n) fun b o => H b ('0' :: o)) :
    Opens .gap (Measure.amount k) H := by
  intro s b hs
  obtain ⟨sign, number, ds, rest, hsign, rfl, hds, hne, hk⟩ := amount_eq_some hs
  obtain ⟨o, ho, hprefix⟩ := (h number).appendNumber (p := .gap) hds hne hk
  refine ⟨o, ho, ?_⟩
  rcases hsign with rfl | rfl
  · exact hprefix
  · have hminus : outlineFrom .gap ('-' :: (ds ++ rest)) = outlineFrom .gap (ds ++ rest) :=
      outline_minus _
    rw [List.singleton_append, hminus]
    exact hprefix

/-! ### Names among blanks -/

/-- Blanks before a name do not show, unless they end a word. -/
theorem outlineFrom_skip {p : Spot} (hp : p ≠ .word) {ws : List Char}
    (hws : ∀ c ∈ ws, isBlank c = true) (s : List Char) :
    ∃ q : Spot, q ≠ .word ∧ outlineFrom p (ws ++ s) = outlineFrom q s := by
  cases ws with
  | nil => exact ⟨p, hp, rfl⟩
  | cons c ws =>
      refine ⟨.gap, by decide, ?_⟩
      rw [outlineFrom_blanks hws (by simp)]
      cases p with
      | word => exact absurd rfl hp
      | gap | number => rfl

theorem outlineFrom_space (p : Spot) (s : List Char) :
    outlineFrom p (' ' :: s) = p.space ++ outlineFrom .gap s :=
  outlineFrom_blanks (List.forall_mem_singleton.mpr rfl) (List.cons_ne_nil ' ' []) p s

/-- Blanks behind a name show as one. -/
theorem outlineFrom_blanks_eq_space {ws : List Char} (hws : ∀ c ∈ ws, isBlank c = true)
    (hne : ws ≠ []) (p : Spot) (s : List Char) :
    outlineFrom p (ws ++ s) = outlineFrom p (' ' :: s) := by
  rw [outlineFrom_blanks hws hne, outlineFrom_space]

/-- Whether a number stands before a text does not show if the text does not go on with it. -/
theorem outlineFrom_of_ne_word {p : Spot} (hp : p ≠ .word) {c : Char} (hc : inNumber c = false)
    (s : List Char) : outlineFrom p (c :: s) = outlineFrom .gap (c :: s) := by
  have hspace : p.space = Spot.gap.space := by
    cases p with
    | word => exact absurd rfl hp
    | gap | number => rfl
  have htrace : p.trace c = Spot.gap.trace c := by
    simp only [Spot.trace, hspace, hc, Bool.false_eq_true, if_false]
  rw [outlineFrom_cons, outlineFrom_cons, htrace]

/-- The other spelling of arrows, and blanks, do not show. -/
theorem outline_spelled_isPrefix (s : List Char) :
    outline (trim (spellArrows (trim s))) <+: outline (trim s) := by
  have htrim := outline_trim_isPrefix (spellArrows (trim s))
  rwa [outline, outline, outlineFrom_spellArrows] at htrim

/-! ### Units -/

/-- The text of the first unit stands between the amount and a connecting word. -/
theorem opens_unitPhrase : Opens .gap Measure.phrase fun r o => ∃ p : Spot, ∃ word,
    p ≠ .word ∧ word ∈ Measure.connectors ∧
      o = '0' :: outlineFrom p (r.2.1 ++ ' ' :: word.toList) := by
  have htail (p : Spot) (hp : p ≠ .word)
      (f : List Char × Option (List Char) → List Char × List Char × Option (List Char))
      (hf : ∀ r, (f r).2.1 = r.1) : Opens p
      (fun s => (shortest inLine (blanks <| keywordAmong Measure.connectors fun _ =>
        firstOf [blanks <| lineToEnd fun target => some (some target), stop none]) s).map f)
      fun r o => ∃ p : Spot, ∃ word, p ≠ .word ∧ word ∈ Measure.connectors ∧
        '0' :: o = '0' :: outlineFrom p (r.2.1 ++ ' ' :: word.toList) := by
    refine .map (.shortest fun source _ => .blanks <| .keywordAmong fun word hword _ => .stop ?_)
    intro target
    refine ⟨p, word, hp, hword, ?_⟩
    rw [hf, outlineFrom_append, List.append_nil, outlineFrom_space]
  exact opens_amount fun _ =>
    .maybeBlanks (htail .gap (by decide) _ fun _ => rfl) (htail .number (by decide) _ fun _ => rfl)

/-- The names of units are plain and do not begin with a number. -/
theorem unitNames_spec :
    unitNames.all (fun name => name.all isPlain && name.head?.any (!inNumber ·)) = true := by
  decide +kernel

theorem of_mem_unitNames {name : List Char} (h : name ∈ unitNames) :
    (∀ c ∈ name, isPlain c = true) ∧ name.head?.any (!inNumber ·) = true := by
  have hspec := List.all_eq_true.mp unitNames_spec name h
  rw [Bool.and_eq_true, List.all_eq_true] at hspec
  exact hspec

/-- The word *degrees* is what is taken off the front of a name. -/
theorem dropDegrees_eq (key : List Char) : ∃ degrees ∈ ["", "degrees ", "degree "],
    degrees.toList ++ Measure.Unit.dropDegrees key = key := by
  unfold Measure.Unit.dropDegrees
  split
  · next h =>
      exact ⟨"degrees ", by decide, List.prefix_iff_eq_append.mp (List.isPrefixOf_iff_prefix.mp h)⟩
  · split
    · next h =>
        exact ⟨"degree ", by decide, List.prefix_iff_eq_append.mp (List.isPrefixOf_iff_prefix.mp h)⟩
    · exact ⟨"", by decide, rfl⟩

/-- A typed unit is a name of the table but for blanks, case and the word *degrees*. -/
theorem exists_of_unit_typed? {s : List Char} {u : Measure.Unit}
    (h : Measure.Unit.typed? s = some u) :
    ∃ degrees ∈ ["", "degrees ", "degree "], ∃ name ∈ unitNames, ∃ ws ws',
      (∀ c ∈ ws, isBlank c = true) ∧ (∀ c ∈ ws', isBlank c = true) ∧
      (trim s).map fold = degrees.toList ++ (ws ++ name ++ ws') := by
  obtain ⟨degrees, hdegrees, hkey⟩ := dropDegrees_eq (lower (trim s))
  obtain ⟨ws, ws', hws, hws', htrim⟩ := trim_eq (Measure.Unit.dropDegrees (lower (trim s)))
  have hname : trim (Measure.Unit.dropDegrees (lower (trim s))) ∈ unitNames := by
    have hanswers := List.find?_some h
    rw [Measure.Unit.answersTo, Bool.or_eq_true, decide_eq_true_eq, List.any_eq_true] at hanswers
    refine List.mem_flatMap.mpr ⟨u, List.mem_of_find?_eq_some h, ?_⟩
    rcases hanswers with hsymbol | ⟨a, ha, halias⟩
    · exact hsymbol ▸ List.mem_cons_self
    · exact List.mem_cons_of_mem _ (List.mem_map.mpr ⟨a, ha, of_decide_eq_true halias⟩)
  generalize trim (Measure.Unit.dropDegrees (lower (trim s))) = name at htrim hname
  rw [htrim] at hkey
  refine ⟨degrees, hdegrees, name, hname, ws, ws', hws, hws', ?_⟩
  rw [hkey]
  -- Where lower case is plain, it is folding.
  refine (lower_eq_map_fold fun c hc => ?_).symm
  rw [← hkey, List.mem_append, List.mem_append, List.mem_append] at hc
  rcases hc with hc | (hc | hc) | hc
  · have hplain : ["", "degrees ", "degree "].all (·.toList.all isPlain) = true := by decide
    exact List.all_eq_true.mp (List.all_eq_true.mp hplain degrees hdegrees) c hc
  · exact isPlain_of_isBlank (hws c hc)
  · exact (of_mem_unitNames hname).1 c hc
  · exact isPlain_of_isBlank (hws' c hc)

/-- Nothing shows of a name with blanks around it but the name in lower case. -/
theorem outlineFrom_trim {p : Spot} (hp : p ≠ .word) {s key : List Char}
    (h : (trim s).map fold = key) (r : List Char) :
    ∃ q : Spot, q ≠ .word ∧ ∃ ws, (∀ c ∈ ws, isBlank c = true) ∧
      outlineFrom p (s ++ r) = outlineFrom q (key ++ (ws ++ r)) := by
  obtain ⟨ws, ws', hws, hws', hs⟩ := trim_eq s
  obtain ⟨q, hq, hskip⟩ := outlineFrom_skip hp hws (trim s ++ (ws' ++ r))
  refine ⟨q, hq, ws', hws', ?_⟩
  calc outlineFrom p (s ++ r)
      = outlineFrom p (ws ++ (trim s ++ (ws' ++ r))) := by
        conv => lhs; rw [hs]
        simp only [List.append_assoc]
    _ = outlineFrom q (trim s ++ (ws' ++ r)) := hskip
    _ = outlineFrom q (key ++ (ws' ++ r)) := by rw [← h, outlineFrom_map_fold_append]

/-- What shows of the name of a unit and a connecting word is a mark. -/
theorem hasMark_unitName {name : List Char} (hname : name ∈ unitNames) {word : String}
    (hword : word ∈ Measure.connectors) :
    HasMark .units ('0' :: outlineFrom .gap (name ++ ' ' :: word.toList)) := by
  have hmark (end_ : String) (hend : end_ ∈ if spans.any (·.toList = name) then Measure.connectors
      else [""]) : '0' :: outlineFrom .gap (name ++ ' ' :: end_.toList) ∈ marks .units :=
    List.mem_append_right _ (List.mem_flatMap.mpr ⟨name, hname, List.mem_map.mpr ⟨end_, hend, rfl⟩⟩)
  by_cases hspan : spans.any (·.toList = name) = true
  · exact ⟨_, hmark word (by rwa [if_pos hspan]), List.prefix_rfl⟩
  · refine ⟨_, hmark "" (by rw [if_neg hspan]; exact List.mem_singleton_self _), ?_⟩
    refine (List.prefix_cons_inj '0').mpr (outlineFrom_mono ?_ _)
    rw [List.prefix_append_right_inj]
    exact (List.prefix_cons_inj ' ').mpr List.nil_prefix

/-- The first unit and the connecting word are a mark. -/
theorem hasMark_of_unit {p : Spot} (hp : p ≠ .word) {source : List Char} {u : Measure.Unit}
    (h : Measure.Unit.typed? source = some u) {word : String} (hword : word ∈ Measure.connectors) :
    HasMark .units ('0' :: outlineFrom p (source ++ ' ' :: word.toList)) := by
  obtain ⟨degrees, hdegrees, name, hname, ws, ws', hws, hws', hkey⟩ := exists_of_unit_typed? h
  obtain ⟨q, hq, ws₂, hws₂, hout⟩ := outlineFrom_trim hp hkey (' ' :: word.toList)
  rw [hout]
  -- Without *degrees* the name comes first, else the word is a mark by itself.
  by_cases hempty : degrees = ""
  · subst hempty
    have hblanks : ∀ c ∈ ws' ++ (ws₂ ++ [' ']), isBlank c = true := by
      simp only [List.mem_append, List.mem_singleton]
      rintro c (hc | hc | rfl)
      · exact hws' c hc
      · exact hws₂ c hc
      · rfl
    obtain ⟨q', hq', hskip⟩ :=
      outlineFrom_skip hq hws (name ++ ((ws' ++ (ws₂ ++ [' '])) ++ word.toList))
    have hsplit : "".toList ++ (ws ++ name ++ ws') ++ (ws₂ ++ ' ' :: word.toList) =
        ws ++ (name ++ ((ws' ++ (ws₂ ++ [' '])) ++ word.toList)) := by
      simp
    obtain ⟨-, hhead⟩ := of_mem_unitNames hname
    have hshown : outlineFrom q' (name ++ ((ws' ++ (ws₂ ++ [' '])) ++ word.toList)) =
        outlineFrom .gap (name ++ ' ' :: word.toList) := by
      rw [outlineFrom_append, outlineFrom_blanks_eq_space hblanks (by simp), ← outlineFrom_append]
      cases name with
      | nil => cases hhead
      | cons c name => exact outlineFrom_of_ne_word hq' (by simpa using hhead) _
    rw [hsplit, hskip, hshown]
    exact hasMark_unitName hname hword
  · have hmark : ∀ degrees ∈ ["", "degrees ", "degree "], degrees ≠ "" → ∀ q ≠ Spot.word,
        HasMark .units ('0' :: outlineFrom q degrees.toList) := by
      intro degrees hdegrees hempty q hq
      cases q with
      | word => exact absurd rfl hq
      | gap | number =>
          revert degrees
          decide
    refine (hmark degrees hdegrees hempty q hq).mono ((List.prefix_cons_inj '0').mpr ?_)
    refine outlineFrom_mono ?_ q
    rw [List.append_assoc]
    exact List.prefix_append _ _

theorem hasMark_units {text : List Char} {x : Measure.Conversion}
    (h : Measure.detect text = some x) : HasMark .units (outline (trim text)) := by
  simp only [Measure.detect, Option.bind_eq_bind, Option.bind_eq_some_iff] at h
  obtain ⟨⟨number, source, target⟩, hphrase, -, -, u, hu, -⟩ := h
  obtain ⟨o, ⟨p, word, hp, hword, rfl⟩, hprefix⟩ := opens_unitPhrase _ _ hphrase
  exact ((hasMark_of_unit hp hu hword).mono hprefix).mono (outline_spelled_isPrefix text)

/-! ### Currencies -/

theorem opens_moneyAmount {β : Type} {k : List Char → Reading β} {H : β → List Char → Prop}
    (h : ∀ n, Opens .number (k n) fun b o => H b ('0' :: o)) :
    Opens .gap (Money.amount k) H := by
  intro s b hs
  cases s with
  | nil => cases hs
  | cons c s =>
      rw [Money.amount] at hs
      split at hs
      · exact opens_amount h _ _ hs
      · cases hs

theorem opens_target {p : Spot} {request : Option (List Char) → Money.Request}
    {H : Money.Request → List Char → Prop} (h : ∀ code o, H (request code) (p.space ++ o)) :
    Opens p (Money.target request) H :=
  .blanks <| .keywordAmong fun _ _ _ =>
    .firstOf_cons (.blanks <| .run fun _ _ _ => .end_ (h _ _)) <|
    .firstOf_cons (.end_ (h _ _)) .firstOf_nil

/-- The code of the first currency stands behind the amount, and no other letter follows it. -/
theorem opens_body : Opens .gap (Money.body none) fun r o => r.sign = none ∧
    ∀ code, r.source = some code → (∀ c ∈ code, isKeywordLetter c = true) ∧
      ('0' :: (code.map fold ++ [' '])) <+: o := by
  have hways (p : Spot) (number : List Char) : Opens p (firstOf [
      exactly 3 isKeywordLetter fun code => Money.target (.mk none number (some code)),
      Money.target (.mk none number none)]) fun r o => r.sign = none ∧
        ∀ code, r.source = some code → (∀ c ∈ code, isKeywordLetter c = true) ∧
          ('0' :: (code.map fold ++ [' '])) <+: '0' :: o := by
    refine .firstOf_cons
      (.exactly fun code hlength hcode => opens_target fun target o => ⟨rfl, ?_⟩) <|
      .firstOf_cons (opens_target fun target o => ⟨rfl, fun _ hcode => by cases hcode⟩) .firstOf_nil
    rintro _ ⟨⟩
    obtain ⟨ho, hafter⟩ := outlineFrom_letters hcode p
    rw [ho, hafter (by rintro rfl; cases hlength)]
    refine ⟨hcode, (List.prefix_cons_inj '0').mpr ?_⟩
    exact (List.prefix_append_right_inj _).mpr (List.prefix_append [' '] o)
  exact opens_moneyAmount fun number => .maybeBlanks (hways .gap number) (hways .number number)

/-- A capital of ASCII is that of the folded letter. -/
theorem toLower_toUpper_capital {c : Char} (h : isKeywordLetter c = true)
    (hascii : (Money.capital c).toUpper.toNat < 0x80) :
    (Money.capital c).toUpper.toLower = fold c := by
  refine fold_induction (P := fun c d => d.isLower = true →
    (Money.capital c).toUpper.toNat < 0x80 → (Money.capital c).toUpper.toLower = d) ?_
    (by decide) (by decide) (by decide) c h hascii
  intro c hlower
  exact forall_lower (P := fun c => (Money.capital c).toUpper.toNat < 0x80 →
    (Money.capital c).toUpper.toLower = c) (by decide) hlower

/-- A known code in lower case is the folded text of the code. -/
theorem map_toLower_of_isKnown {code known : List Char}
    (hletters : ∀ c ∈ code, isKeywordLetter c = true) (hascii : ∀ c ∈ known, c.toNat < 0x80)
    (h : known = (Money.capitals code).toList.map Char.toUpper) :
    known.map Char.toLower = code.map fold := by
  subst h
  rw [Money.capitals, String.toList_ofList, List.map_map, List.map_map]
  refine List.map_congr_left fun c hc => toLower_toUpper_capital (hletters c hc) (hascii _ ?_)
  rw [Money.capitals, String.toList_ofList, List.map_map]
  exact List.mem_map_of_mem hc

theorem hasMark_of_code {code : List Char} (hletters : ∀ c ∈ code, isKeywordLetter c = true)
    (h : Money.isKnown (Money.capitals code) = true) :
    HasMark .currency ('0' :: (code.map fold ++ [' '])) := by
  obtain ⟨⟨known, name⟩, hmem, hknown⟩ := List.any_eq_true.mp h
  have hascii : Money.currencies.all (·.1.toList.all fun c => c.toNat < 0x80) = true := by decide
  have hcapitals : ∀ c ∈ known.toList, c.toNat < 0x80 := fun c hc =>
    of_decide_eq_true (List.all_eq_true.mp (List.all_eq_true.mp hascii _ hmem) c hc)
  rw [← map_toLower_of_isKnown hletters hcapitals (of_decide_eq_true hknown)]
  exact ⟨_, List.mem_append_right _ (List.mem_map.mpr ⟨_, hmem, rfl⟩), List.prefix_rfl⟩

theorem hasMark_of_sign {c : Char} (h : (Money.ofSign? c).isSome = true) (s : List Char) :
    HasMark .currency (outline (c :: s)) := by
  obtain ⟨code, hcode⟩ := Option.isSome_iff_exists.mp h
  obtain ⟨⟨sign, code⟩, hfind, rfl⟩ := Option.map_eq_some_iff.mp hcode
  obtain rfl : sign = c := by simpa using List.find?_some hfind
  have hmark : ∀ x ∈ Money.signs, HasMark .currency (outline [x.1]) := by decide +kernel
  refine (hmark _ (List.mem_of_find?_eq_some hfind)).mono (outlineFrom_mono ?_ _)
  exact (List.prefix_cons_inj _).mpr List.nil_prefix

theorem hasMark_currency {text : List Char} {x : Money.Exchange}
    (h : Money.detect text = some x) : HasMark .currency (outline (trim text)) := by
  simp only [Money.detect, Option.bind_eq_bind, Option.bind_eq_some_iff] at h
  obtain ⟨r, hphrase, amount, -, code, hcode, h⟩ := h
  refine HasMark.mono ?_ (outline_spelled_isPrefix text)
  generalize trim (spellArrows (trim text)) = s at hphrase
  cases s with
  | nil => cases hphrase
  | cons c s =>
      rw [Money.phrase] at hphrase
      split at hphrase
      · next hsign => exact hasMark_of_sign hsign s
      · obtain ⟨o, ⟨hsign, hsource⟩, hprefix⟩ := opens_body _ _ hphrase
        unfold Money.Request.sourceCode? at hcode
        split at hcode
        · next hr =>
            split at h
            · next hknown =>
                obtain ⟨hletters, ho⟩ := hsource _ hr
                rw [← Option.some.inj hcode] at hknown
                exact (hasMark_of_code hletters hknown).mono (ho.trans hprefix)
            · cases h
        · next hr =>
            rw [hsign] at hr
            cases hr
        · cases hcode

end Composer.Detection
