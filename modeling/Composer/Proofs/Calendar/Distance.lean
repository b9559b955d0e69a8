import Composer.Calendar.Reckoning
import Composer.Proofs.Calendar.TypedDay
import Composer.Proofs.Text.Lowercase
/-!
# Composer.Proofs.Calendar.Distance

**Questions for a distance.** A question that names a day of a month without a year, on one line, is
read as it is meant: up to the question mark, with the word of direction as the way in which the
day is looked for (`detect_distance`).
-/

namespace Composer.Calendar

open Text

/-! ### Question marks -/

/-- One question mark at the end makes no difference to what is asked. -/
theorem askedKey_trim {s d : List Char} (hmark : '?' ∉ askedKey s) (hd : d ≠ [])
    (hs : trim s = d ∨ trim s = d ++ ['?']) : askedKey (trim d) = askedKey s := by
  rcases hs with hs | hs
  · rw [askedKey, askedKey, ← hs, trim_trim, trim_trim]
  · have hkey : askedKey s = lower (trim (dropEndWhile (· = '?') d)) := by
      rw [askedKey, hs, dropEndWhile_concat (by decide)]
    rw [askedKey, trim_trim, hkey]
    by_cases hlast : d.getLast? = some '?'
    · -- There is no blank at either end.
      obtain ⟨c, r, rfl⟩ := List.exists_cons_of_ne_nil hd
      have hhead : c ∈ (trim s).head? := by rw [hs]; rfl
      rw [trim_of_ends rfl (not_isBlank_of_head?_trim c hhead) hlast rfl]
    · have hdrop : dropEndWhile (· = '?') d = d := by
        refine dropEndWhile_of_getLast? fun c hc => decide_eq_false ?_
        rintro rfl
        exact hlast hc
      rw [hdrop] at hkey ⊢
      have hnone : dropEndWhile (· = '?') (trim d) = trim d := by
        refine dropEndWhile_of_getLast? fun c hc => decide_eq_false ?_
        rintro rfl
        refine hmark (hkey ▸ mem_lower_of_mem (List.mem_of_getLast? hc) (by decide) ?_)
        decide
      rw [hnone, trim_trim]

/-! ### The phrase -/

/-- The end of the phrase. -/
def questionMark : Reading Unit :=
  optionally (Text.char '?') (stop ())

theorem questionMark_eq_some {t : List Char} (h : questionMark t = some ()) :
    t = [] ∨ t = ['?'] := by
  have hstop {r : List Char} (hr : stop () r = some ()) : r = [] := by
    cases r with
    | nil => rfl
    | cons c r => cases hr
  rw [questionMark, optionally, Option.orElse_eq_orElse, Option.orElse_eq_or,
    Option.or_eq_some_iff] at h
  rcases h with h | ⟨-, h⟩
  · obtain ⟨r, rfl, hr⟩ := char_eq_some h
    exact Or.inr (congrArg ('?' :: ·) (hstop hr))
  · exact Or.inl (hstop h)

/-- What is asked about goes on to the end, but for one question mark. -/
theorem shortest_questionMark {t : List Char} (ht : t ≠ []) (hline : '\n' ∉ t) :
    ∃ d, shortest inLine questionMark t = some (d, ()) ∧ d ≠ [] ∧ (t = d ∨ t = d ++ ['?']) := by
  induction t with
  | nil => exact absurd rfl ht
  | cons c t ih =>
      obtain ⟨hc, ht'⟩ := not_or.mp (mt List.mem_cons.mpr hline)
      have hin : inLine c = true := decide_eq_true fun heq => hc heq.symm
      rw [shortest, if_pos hin]
      cases hmark : questionMark t with
      | some =>
          refine ⟨[c], rfl, List.cons_ne_nil c [], ?_⟩
          rcases questionMark_eq_some hmark with rfl | rfl
          · exact Or.inl rfl
          · exact Or.inr rfl
      | none =>
          have hne : t ≠ [] := by
            rintro rfl
            cases hmark
          obtain ⟨d, hd, -, hsplit⟩ := ih hne ht'
          exact ⟨c :: d, by rw [hd]; rfl, List.cons_ne_nil c d,
            hsplit.imp (congrArg (c :: ·)) (congrArg (c :: ·))⟩

/-- What follows the word of direction. -/
def afterDirection (word : List Char) : Reading (List Char × Option (List Char)) :=
  firstOf [
    blanks fun s => (shortest inLine questionMark s).map fun (day, _) => (word, some day),
    fun s => (questionMark s).map fun _ => (word, none)]

theorem distancePhrase_eq : distancePhrase =
    optionally (fun k => keyword "how many" <| blanks k)
      (keyword "days" <| blanks <|
        keywordAmong ["until", "till", "til", "to", "since"] afterDirection) := rfl

/-- The words of direction: how long until a day, and how long since. -/
def directionWord (since : Bool) : String :=
  if since then "since" else "until"

/-- The word of direction is read as that word. -/
theorem keywordAmong_directionWord {β : Type} (since : Bool) {k : List Char → Reading β}
    {r : List Char} {b : β} (hk : k (directionWord since).toList r = some b) :
    keywordAmong ["until", "till", "til", "to", "since"] k ((directionWord since).toList ++ r) =
      some b := by
  cases since with
  | false => exact keywordAmong_append (by decide) hk _
  | true =>
      have hskip {word : String} {d : Char} (hword : word.toList.head? = some d) (hne : fold 's' ≠ d)
          (words : List String) : keywordAmong (word :: words) k ("since".toList ++ r) =
            keywordAmong words k ("since".toList ++ r) :=
        keywordAmong_cons_of_ne hword hne k words _
      calc keywordAmong ["until", "till", "til", "to", "since"] k ("since".toList ++ r)
          = keywordAmong ["till", "til", "to", "since"] k ("since".toList ++ r) :=
            hskip rfl (by decide) _
        _ = keywordAmong ["til", "to", "since"] k ("since".toList ++ r) := hskip rfl (by decide) _
        _ = keywordAmong ["to", "since"] k ("since".toList ++ r) := hskip rfl (by decide) _
        _ = keywordAmong ["since"] k ("since".toList ++ r) := hskip rfl (by decide) _
        _ = some b := keywordAmong_append (by decide) hk _

/-- The phrase takes all that is asked about. -/
theorem distancePhrase_append (since : Bool) {t : List Char} (ht : t ≠ []) (hline : '\n' ∉ t)
    {ws : List Char} (hws : ∀ c ∈ ws, isBlank c = true) (hhead : ∀ c ∈ t.head?, isBlank c = false) :
    ∃ d, distancePhrase ("days ".toList ++ (directionWord since).toList ++ ' ' :: ws ++ t) =
        some ((directionWord since).toList, some d) ∧ d ≠ [] ∧ (t = d ∨ t = d ++ ['?']) := by
  obtain ⟨d, hd, hne, hsplit⟩ := shortest_questionMark ht hline
  refine ⟨d, ?_, hne, hsplit⟩
  have htext : "days ".toList ++ (directionWord since).toList ++ ' ' :: ws ++ t =
      "days".toList ++ ([' '] ++ ((directionWord since).toList ++ ((' ' :: ws) ++ t))) := by
    simp
  have hspaces : ∀ c ∈ ' ' :: ws, isBlank c = true := List.forall_mem_cons.mpr ⟨rfl, hws⟩
  have hend : afterDirection (directionWord since).toList ((' ' :: ws) ++ t) =
      some ((directionWord since).toList, some d) := by
    refine firstOf_of_eq_some ?_ _
    rw [blanks_append hspaces (List.cons_ne_nil _ _) hhead (Or.inr (by rw [hd]; rfl)), hd]
    rfl
  have hword := keywordAmong_directionWord since hend
  have hbegins : ∀ c ∈ ((directionWord since).toList ++ ((' ' :: ws) ++ t)).head?,
      isBlank c = false := by
    intro c hc
    cases since with
    | false =>
        obtain rfl : 'u' = c := Option.some.inj hc
        rfl
    | true =>
        obtain rfl : 's' = c := Option.some.inj hc
        rfl
  have hmany (k : Reading (List Char × Option (List Char))) :
      keyword "how many" k
        ("days".toList ++ ([' '] ++ ((directionWord since).toList ++ ((' ' :: ws) ++ t)))) = none :=
    keyword_cons_of_ne (d := 'h') rfl (by decide) k _
  rw [htext, distancePhrase_eq, optionally, hmany, keyword_append (by decide),
    blanks_append isBlank_of_mem_space (by simp) hbegins (Or.inr (by rw [hword]; rfl)), hword]
  rfl

/-! ### Answers -/

/-- A text asks for a day of a month if it names one, on one line. -/
structure AsksFor (month day : Nat) (s : List Char) : Prop where
  /-- The name of the day. -/
  key : NamesDay month day (askedKey s)
  /-- No line breaks inside. -/
  line : '\n' ∉ trim s

/-- The day that is named is looked for in the direction of the question. -/
theorem detect_distance (today : Date) (since : Bool) {month day : Nat} {s : List Char}
    (h : AsksFor month day s) :
    detect today ("days ".toList ++ (directionWord since).toList ++ ' ' :: s) =
      (MonthDay.resolve ⟨month, day, none⟩ today (!since)).map fun t =>
        Reckoning.distance today t since := by
  obtain ⟨hkey, hmark⟩ := h.key.not_mem
  have hne : trim s ≠ [] := by
    intro hnil
    rw [askedKey, hnil] at hkey
    exact hkey rfl
  obtain ⟨ws, ws', hws, hws', hs⟩ := trim_eq s
  have htext : trim ("days ".toList ++ (directionWord since).toList ++ ' ' :: s) =
      "days ".toList ++ (directionWord since).toList ++ ' ' :: ws ++ trim s := by
    have hlast := List.getLast?_eq_some_getLast hne
    have hend : ("days ".toList ++ (directionWord since).toList ++ ' ' :: ws ++ trim s).getLast? =
        some ((trim s).getLast hne) := by
      rw [List.getLast?_append, hlast]
      rfl
    calc trim ("days ".toList ++ (directionWord since).toList ++ ' ' :: s)
        = trim ("days ".toList ++ (directionWord since).toList ++ ' ' :: ws ++ trim s ++ ws') := by
          rw [List.append_assoc _ (trim s), List.append_assoc _ (' ' :: ws), List.cons_append,
            ← List.append_assoc ws, ← hs]
      _ = "days ".toList ++ (directionWord since).toList ++ ' ' :: ws ++ trim s := by
          rw [trim_append_blanks hws',
            trim_of_ends (c := 'd') rfl rfl hend (not_isBlank_of_getLast?_trim _ hlast)]
  obtain ⟨d, hphrase, hd, hsplit⟩ :=
    distancePhrase_append since hne h.line hws not_isBlank_of_head?_trim
  have hasked := askedKey_trim hmark hd hsplit
  have hnames : NamesDay month day (askedKey (trim d)) := hasked ▸ h.key
  obtain ⟨c, r, hcons⟩ : ∃ c r, trim d = c :: r := by
    refine List.exists_cons_of_ne_nil fun hnil => hnames.not_mem.1 ?_
    rw [hnil]
    rfl
  have hlower : lower (directionWord since).toList = (directionWord since).toList := by
    cases since <;> decide
  have hsince : decide ((directionWord since).toList = "since".toList) = since := by
    cases since <;> decide
  have htyped : typedDate? today (!since) (c :: r) =
      MonthDay.resolve ⟨month, day, none⟩ today (!since) :=
    hcons ▸ typedDate?_of_namesDay hnames today (!since)
  rw [detect, htext]
  simp only [hphrase, distance?, Option.map_some, hcons, hlower, hsince, htyped]

/-- A day of a year without a 29th of February. -/
def autumnDay : Date :=
  ⟨2026, 10, 19, by decide, by decide⟩

end Composer.Calendar
