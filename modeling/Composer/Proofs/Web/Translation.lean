import Composer.Web.Service
import Composer.Proofs.Text.Phrase
/-!
# Composer.Proofs.Web.Translation

**What a reply with a translation says.** A reply has a status of its own, which is a number in one
reply and a text in the next. A status *names* a number if it is a whole number that is not negative
or a text of digits (`Names`), and only such a status is looked at (`statusNumber?_eq_some_iff`). A
number other than 200 makes the reply an error, of which 16 bits are reported. Every other status, a
negative number or a text with a blank among them, is taken as none, and the text of such a reply
counts as a translation (`text?_of_decode?`).
-/

namespace Composer.Web

/-! ### The status -/

/-- A status that names a number. -/
inductive Names : Json → Nat → Prop where
  /-- The number itself. -/
  | number (n : Nat) : Names (.integer n) n
  /-- A text of digits. -/
  | digits {s : String} {n : Nat} (h : Text.natural? s.toList = some n) (small : n < Nat.pow 2 64) :
      Names (.string s) n
  /-- A text of digits behind a plus sign. -/
  | plus {ds : List Char} {n : Nat} (h : Text.natural? ds = some n) (small : n < Nat.pow 2 64) :
      Names (.string (String.ofList ('+' :: ds))) n

theorem natural?_plus (ds : List Char) : Text.natural? ('+' :: ds) = none := by
  cases h : Text.natural? ('+' :: ds) with
  | none => rfl
  | some n => exact absurd ((Text.isDigit_of_natural? h).2 '+' List.mem_cons_self) (by decide)

theorem Names.statusNumber? {j : Json} {n : Nat} (h : Names j n) : statusNumber? j = some n := by
  cases h with
  | number n =>
      rw [Web.statusNumber?, if_pos (Int.natCast_nonneg n)]
      rfl
  | @digits s n h small =>
      have hsign : ∀ ds, s.toList ≠ '+' :: ds := by
        intro ds hs
        rw [hs, natural?_plus] at h
        cases h
      have hnumber : (Text.natural? s.toList).filter (· < Nat.pow 2 64) = some n := by
        rw [h]
        exact if_pos (decide_eq_true small)
      rw [Web.statusNumber?]
      split
      · rename_i ds hs
        exact absurd hs (hsign ds)
      · exact hnumber
  | plus h small =>
      simp only [Web.statusNumber?, String.toList_ofList, h]
      exact if_pos (decide_eq_true small)

theorem names_of_statusNumber? {j : Json} {n : Nat} (h : statusNumber? j = some n) :
    Names j n := by
  cases j with
  | integer i =>
      by_cases hi : 0 ≤ i
      · rw [statusNumber?, if_pos hi] at h
        obtain rfl : i.toNat = n := Option.some.inj h
        simpa [Int.toNat_of_nonneg hi] using Names.number i.toNat
      · rw [statusNumber?, if_neg hi] at h
        cases h
  | string s =>
      rw [statusNumber?, Option.filter_eq_some_iff, decide_eq_true_iff] at h
      obtain ⟨hnumber, hsmall⟩ := h
      split at hnumber
      · rename_i ds hs
        rw [← String.ofList_toList (s := s), hs]
        exact .plus hnumber hsmall
      · exact .digits hnumber hsmall
  | _ => cases h

/-- Only a status that names a number is looked at. -/
theorem statusNumber?_eq_some_iff {j : Json} {n : Nat} : statusNumber? j = some n ↔ Names j n :=
  ⟨names_of_statusNumber?, Names.statusNumber?⟩

/-! ### The reply -/

namespace TranslationReply

/-- The columns of a reply. -/
theorem columns_of_decode? {j : Json} {r : TranslationReply} (h : decode? j = some r) :
    ∃ text status details,
      Json.columns? ["responseData", "responseStatus", "responseDetails"] j =
        some [text, status, details] ∧
      Json.orNone decodeText? text = some r.text ∧
      r.status = status.getD .null ∧
      Json.orNone Json.asString? details = some r.details := by
  obtain ⟨columns, hcolumns, hr⟩ := Option.bind_eq_some_iff.mp h
  split at hr
  · cases hr
  · rename_i text status details _
    dsimp only at hr
    split at hr
    · cases hr
    · obtain ⟨translated, htext, hr⟩ := Option.bind_eq_some_iff.mp hr
      obtain ⟨reason, hdetails, hr⟩ := Option.bind_eq_some_iff.mp hr
      obtain rfl := Option.some.inj hr
      exact ⟨text, status, details, hcolumns, htext, rfl, hdetails⟩
  · cases hr

variable {r : TranslationReply} {n : Nat}

theorem filter_statusNumber?_of_names (h : Names r.status n) (hn : n ≠ 200) :
    (statusNumber? r.status).filter (· ≠ 200) = some n := by
  rw [statusNumber?_eq_some_iff.mpr h]
  exact if_pos (decide_eq_true hn)

theorem filter_statusNumber?_eq_none (h : ∀ n, Names r.status n → n = 200) :
    (statusNumber? r.status).filter (· ≠ 200) = none := by
  rw [Option.filter_eq_none_iff]
  intro n hn
  simp [h n (statusNumber?_eq_some_iff.mp hn)]

/-- A number other than 200 makes the reply an error, for the reason that it gives. -/
theorem text?_of_details {d : String} (h : Names r.status n) (hn : n ≠ 200)
    (hd : r.details = some d) (hne : d ≠ "") : r.text? = .error (.invalidResponse d) := by
  have hfilter : r.details.filter (· ≠ "") = some d := by
    rw [hd]
    exact if_pos (decide_eq_true hne)
  rw [text?, filter_statusNumber?_of_names h hn]
  simp only [hfilter]

/-- Without a reason 16 bits of the number are reported. -/
theorem text?_of_no_details (h : Names r.status n) (hn : n ≠ 200)
    (hd : ∀ d, r.details = some d → d = "") : r.text? = .error (.status (n % Nat.pow 2 16)) := by
  have hfilter : r.details.filter (· ≠ "") = none := by
    rw [Option.filter_eq_none_iff]
    intro d hdetails
    simp [hd d hdetails]
  rw [text?, filter_statusNumber?_of_names h hn]
  simp only [hfilter]

theorem exists_error_of_names (h : Names r.status n) (hn : n ≠ 200) : ∃ e, r.text? = .error e := by
  by_cases hd : ∀ d, r.details = some d → d = ""
  · exact ⟨_, text?_of_no_details h hn hd⟩
  · simp only [not_forall, exists_prop] at hd
    obtain ⟨d, hd, hne⟩ := hd
    exact ⟨_, text?_of_details h hn hd hne⟩

/-- Any other status is as good as none, and the text counts. -/
theorem text?_of_text {s : String} (h : ∀ n, Names r.status n → n = 200)
    (hs : r.text = some s) (hne : Text.trim s.toList ≠ []) :
    r.text? = .ok (String.ofList (Text.trim s.toList)) := by
  have hfilter : (r.text.map fun s => Text.trim s.toList).filter (!·.isEmpty) =
      some (Text.trim s.toList) := by
    rw [hs]
    exact if_pos (by simpa using hne)
  rw [text?, filter_statusNumber?_eq_none h]
  simp only [hfilter]

theorem text?_of_no_text (h : ∀ n, Names r.status n → n = 200)
    (hs : ∀ s, r.text = some s → Text.trim s.toList = []) :
    r.text? = .error (.invalidResponse "empty translation") := by
  have hfilter : (r.text.map fun s => Text.trim s.toList).filter (!·.isEmpty) = none := by
    rw [Option.filter_eq_none_iff]
    intro t ht
    obtain ⟨s, htext, rfl⟩ := Option.map_eq_some_iff.mp ht
    simp [hs s htext]
  rw [text?, filter_statusNumber?_eq_none h]
  simp only [hfilter]

theorem text?_eq_ok_iff {t : String} :
    r.text? = .ok t ↔ (∀ n, Names r.status n → n = 200) ∧ t ≠ "" ∧
      ∃ s, r.text = some s ∧ t = String.ofList (Text.trim s.toList) := by
  constructor
  · intro hok
    have hnames : ∀ n, Names r.status n → n = 200 := by
      intro n hn
      by_contra hne
      obtain ⟨e, he⟩ := exists_error_of_names hn hne
      cases he.symm.trans hok
    by_cases hs : ∀ s, r.text = some s → Text.trim s.toList = []
    · cases (text?_of_no_text hnames hs).symm.trans hok
    · simp only [not_forall, exists_prop] at hs
      obtain ⟨s, hs, hne⟩ := hs
      obtain rfl := Except.ok.inj ((text?_of_text hnames hs hne).symm.trans hok)
      refine ⟨hnames, ?_, s, hs, rfl⟩
      simpa using hne
  · rintro ⟨hnames, hne, s, hs, rfl⟩
    exact text?_of_text hnames hs (by simpa using hne)

theorem text?_of_not_names (h : ∀ n, ¬ Names r.status n) :
    r.text? = ({ r with status := .null } : TranslationReply).text? := by
  have hnames : ∀ n, Names r.status n → n = 200 := fun n hn => absurd hn (h n)
  have hnull : ∀ n, Names ({ r with status := .null } : TranslationReply).status n → n = 200 :=
    nofun
  rw [text?, text?, filter_statusNumber?_eq_none hnames, filter_statusNumber?_eq_none hnull]

/-- **What a reply with a translation says.** The reply is a translation exactly if its status names
no number but 200 and its text is not blank; the translation is the text without the blanks around
it. A blank text is an error. If the status names another number, the reply is an error with its
details or, without details, with the number modulo `2 ^ 16`. A status that names no number is taken
as none at all. -/
theorem text?_of_decode? {j : Json} (h : decode? j = some r) :
    ∃ text status details,
      Json.columns? ["responseData", "responseStatus", "responseDetails"] j =
        some [text, status, details] ∧
      Json.orNone decodeText? text = some r.text ∧
      r.status = status.getD .null ∧
      Json.orNone Json.asString? details = some r.details ∧
      (∀ t, r.text? = .ok t ↔ (∀ n, Names r.status n → n = 200) ∧ t ≠ "" ∧
        ∃ s, r.text = some s ∧ t = String.ofList (Text.trim s.toList)) ∧
      (∀ n, Names r.status n → n ≠ 200 →
        (∀ d, r.details = some d → d ≠ "" → r.text? = .error (.invalidResponse d)) ∧
        ((∀ d, r.details = some d → d = "") → r.text? = .error (.status (n % Nat.pow 2 16)))) ∧
      ((∀ n, Names r.status n → n = 200) →
        (∀ s, r.text = some s → Text.trim s.toList = []) →
          r.text? = .error (.invalidResponse "empty translation")) ∧
      ((∀ n, ¬ Names r.status n) →
        r.text? = ({ r with status := .null } : TranslationReply).text?) := by
  obtain ⟨text, status, details, hcolumns, htext, hstatus, hdetails⟩ := columns_of_decode? h
  exact ⟨text, status, details, hcolumns, htext, hstatus, hdetails, fun _ => text?_eq_ok_iff,
    fun _ hn hne => ⟨fun _ hd hd' => text?_of_details hn hne hd hd', text?_of_no_details hn hne⟩,
    text?_of_no_text, text?_of_not_names⟩

/-- A reply with a text, a status and a reason. -/
def sample (status : Json) (details : String) : Json :=
  .object [("responseData", .object [("translatedText", .string " hola\n")]),
    ("responseStatus", status), ("responseDetails", .string details)]

/-- A number behind a plus sign makes the text no translation. -/
theorem text?_of_decode?_plus :
    ∃ r, decode? (sample (.string "+403") "no such pair") = some r ∧
      (∀ t, r.text? ≠ .ok t) ∧ r.text? = .error (.invalidResponse "no such pair") := by
  have hdecode : decode? (sample (.string "+403") "no such pair") =
      some ⟨some " hola\n", .string "+403", some "no such pair"⟩ := rfl
  obtain ⟨_, _, _, -, -, -, -, hok, herror, -⟩ := text?_of_decode? hdecode
  have hdigits : Text.natural? ['4', '0', '3'] = some 403 := rfl
  have hnames : Names (.string "+403") 403 := .plus hdigits (by decide)
  refine ⟨_, hdecode, fun t ht => ?_, (herror 403 hnames (by decide)).1 _ rfl (by decide)⟩
  exact absurd (((hok t).mp ht).1 403 hnames) (by decide)

/-- What is no plain number is no status, and a number is cut to 16 bits. -/
theorem text?_of_decode?_unread :
    (∀ status ∈ [Json.integer (-403), .real 403.0, .string " 403", .bool false],
      ∃ r, decode? (sample status "no such pair") = some r ∧ r.text? = .ok "hola") ∧
    ∃ r, decode? (sample (.integer 65936) "") = some r ∧ r.text? = .error (.status 400) := by
  refine ⟨fun status hstatus => ?_, _, rfl, rfl⟩
  simp only [List.mem_cons, List.not_mem_nil, or_false] at hstatus
  rcases hstatus with rfl | rfl | rfl | rfl
  all_goals exact ⟨_, rfl, rfl⟩

end TranslationReply

end Composer.Web
