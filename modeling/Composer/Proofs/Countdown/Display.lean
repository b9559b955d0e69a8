import Composer.Detection
import Composer.Proofs.Countdown.Duration
import Composer.Proofs.Decimal.Digits
import Composer.Proofs.Text.Words
/-!
# Composer.Proofs.Countdown.Display

**Durations that are shown can be typed.** A duration is shown as a clock reading, and it is read
back as long as its hours have two digits at most; a longer one is no duration when it is typed. No
two durations are shown alike: `shownSeconds` reads all of them.
-/

namespace Composer.Countdown

open Text

/-! ### Reading what is shown -/

/-- One more character of a clock reading: a colon closes a part, which counts sixty of the next
one, and a digit goes on with it. -/
def readShown : Nat × Nat → Char → Nat × Nat
  | (closed, part), c =>
    if c = ':' then ((closed + part) * 60, 0) else (closed, 10 * part + (c.toNat - '0'.toNat))

/-- The seconds of a clock reading, however many parts it has and however long they are. -/
def shownSeconds (s : List Char) : Nat :=
  let (closed, part) := s.foldl readShown (0, 0)
  closed + part

theorem foldl_readShown {ds : List Char} (hds : ∀ c ∈ ds, c.isDigit = true) (closed part : Nat) :
    ds.foldl readShown (closed, part) = (closed, Decimal.foldDigits part ds) := by
  induction ds generalizing part with
  | nil => rfl
  | cons d ds ih =>
      obtain ⟨hd, hds⟩ := List.forall_mem_cons.mp hds
      have hcolon : d ≠ ':' := by
        intro hcolon
        subst hcolon
        cases hd
      rw [List.foldl_cons, readShown, if_neg hcolon, ih hds]
      rfl

theorem readShown_colon (closed part : Nat) :
    readShown (closed, part) ':' = ((closed + part) * 60, 0) :=
  rfl

theorem foldl_readShown_padded (closed width n : Nat) :
    (Decimal.padded width n).foldl readShown (closed, 0) = (closed, n) := by
  rw [foldl_readShown fun _ => Decimal.isDigit_of_mem_padded, Decimal.foldDigits_padded]

/-- **What is shown says how many seconds there are.** -/
theorem shownSeconds_durationChars (s : Nat) : shownSeconds (durationChars s) = s := by
  unfold shownSeconds durationChars
  dsimp only
  split
  · have hseconds : ((0 + s / 3600) * 60 + s % 3600 / 60) * 60 + s % 60 = s := by omega
    rw [List.foldl_append, List.foldl_append, List.foldl_cons,
      foldl_readShown fun _ => Decimal.isDigit_of_mem_digitsOf, Decimal.foldDigits_digitsOf,
      readShown_colon, foldl_readShown_padded, List.foldl_cons, readShown_colon,
      foldl_readShown_padded]
    exact hseconds
  · have hseconds : (0 + s % 3600 / 60) * 60 + s % 60 = s := by omega
    rw [List.foldl_append, foldl_readShown_padded, List.foldl_cons, readShown_colon,
      foldl_readShown_padded]
    exact hseconds

/-! ### What is shown as a clock reading -/

/-- What is shown has a first part, the hours if there are any, and behind it a colon. -/
theorem durationChars_eq (s : Nat) :
    ∃ a r, durationChars s = a ++ ':' :: r ∧ (∀ c ∈ a, c.isDigit = true) ∧
      (360000 ≤ s → 2 < a.length) := by
  unfold durationChars
  dsimp only
  split
  · refine ⟨Decimal.digitsOf (s / 3600), _, List.append_assoc _ _ _,
      fun _ => Decimal.isDigit_of_mem_digitsOf, fun hlong => ?_⟩
    rw [← Nat.not_le, Decimal.digitsOf, Nat.length_toDigits_le_iff (by decide) (by decide)]
    omega
  · next hhours =>
    refine ⟨_, _, rfl, fun _ => Decimal.isDigit_of_mem_padded, fun hlong => ?_⟩
    exact absurd (by omega : 0 < s / 3600) hhours

theorem of_mem_durationChars {s : Nat} {c : Char} (h : c ∈ durationChars s) :
    c.isDigit = true ∨ c = ':' := by
  have hpadded (n : Nat) : c ∈ ':' :: Decimal.padded 2 n → c.isDigit = true ∨ c = ':' := by
    intro hc
    rcases List.mem_cons.mp hc with hc | hc
    · exact Or.inr hc
    · exact Or.inl (Decimal.isDigit_of_mem_padded hc)
  unfold durationChars at h
  dsimp only at h
  split at h
  · rcases List.mem_append.mp h with h | h
    · rcases List.mem_append.mp h with h | h
      · exact Or.inl (Decimal.isDigit_of_mem_digitsOf h)
      · exact hpadded _ h
    · exact hpadded _ h
  · rcases List.mem_append.mp h with h | h
    · exact Or.inl (Decimal.isDigit_of_mem_padded h)
    · exact hpadded _ h

/-- What is shown is a word of plain characters that have no other case. -/
theorem isWord_durationChars (s : Nat) : IsWord (durationChars s) := by
  obtain ⟨a, r, heq, -⟩ := durationChars_eq s
  refine ⟨by simp [heq], fun c hc => ?_⟩
  rcases of_mem_durationChars hc with hdigit | rfl
  · exact not_isBlank_of_isDecimalDigit (by rw [isDecimalDigit, hdigit, Bool.true_or])
  · rfl

theorem lower_trim_durationChars (s : Nat) :
    lower (trim (durationChars s)) = durationChars s := by
  have hplain : ∀ c ∈ durationChars s, isPlain c = true ∧ c.toLower = c := by
    intro c hc
    rcases of_mem_durationChars hc with hdigit | rfl
    · exact ⟨isPlain_of_isDigit hdigit, toLower_eq_self (isUpper_of_isDigit hdigit)⟩
    · exact ⟨rfl, rfl⟩
  rw [trim_eq_self (isWord_durationChars s).2, lower_eq_map_toLower fun c hc => (hplain c hc).1]
  exact (List.map_congr_left fun c hc => (hplain c hc).2).trans (List.map_id _)

/-- Up to a hundred hours, what is shown is a clock reading, -/
theorem writesClock_durationChars {s : Nat} (h : s < 360000) : WritesClock s (durationChars s) := by
  have hpart (n : Nat) : (Decimal.padded 2 (n % 60)).length = 2 :=
    Decimal.length_padded (by decide) (by omega)
  unfold durationChars
  dsimp only
  split
  · have hseconds : s / 3600 * 3600 + (s % 3600 / 60 * 60 + s % 60) = s := by omega
    have hshort : (Decimal.digitsOf (s / 3600)).length ≤ 2 :=
      (Nat.length_toDigits_le_iff (by decide) (by decide)).mpr (by omega)
    have hclock := WritesClock.hours (Decimal.natural?_digitsOf (s / 3600)) hshort
      (Decimal.natural?_padded 2 (s % 3600 / 60)) (Decimal.length_padded (by decide) (by omega))
      (Decimal.natural?_padded 2 (s % 60)) (hpart s) (by omega) (by omega)
    rw [hseconds] at hclock
    rw [List.append_assoc]
    exact hclock
  · have hseconds : s % 3600 / 60 * 60 + s % 60 = s := by omega
    have htwo : (Decimal.padded 2 (s % 3600 / 60)).length = 2 :=
      Decimal.length_padded (by decide) (by omega)
    have hclock := WritesClock.minutes (Decimal.natural?_padded 2 (s % 3600 / 60)) htwo.le
      (Decimal.natural?_padded 2 (s % 60)) (hpart s) (by omega)
    rw [hseconds] at hclock
    exact hclock

/-- but from then on its first part is too long. -/
theorem not_writesClock_durationChars {s n : Nat} (h : 360000 ≤ s) :
    ¬ WritesClock n (durationChars s) := by
  obtain ⟨a, r, heq, hdigits, hlong⟩ := durationChars_eq s
  rw [heq]
  intro hclock
  have hcolon (u : List Char) : ∀ c ∈ (':' :: u).head?, c.isDigit = false := by
    intro c hc
    obtain rfl := Option.some.inj hc
    rfl
  -- The digits up to the first colon are the first part, in whichever way the text is cut.
  have hfirst {b u : List Char} {m : Nat} (hb : natural? b = some m) (hshort : b.length ≤ 2)
      (hcut : a ++ ':' :: r = b ++ ':' :: u) : False := by
    obtain ⟨htake, -⟩ := takeWhile_append_of_stop hdigits (hcolon r)
    obtain ⟨htake', -⟩ := takeWhile_append_of_stop (isDigit_of_natural? hb).2 (hcolon u)
    rw [hcut, htake'] at htake
    have hlength := hlong h
    rw [← htake] at hlength
    omega
  generalize hs : a ++ ':' :: r = t at hclock
  cases hclock with
  | minutes hb hshort => exact hfirst hb hshort hs
  | hours hb hshort => exact hfirst hb hshort hs

theorem duration?_durationChars (s : Nat) :
    duration? (durationChars s) = if s < 360000 then some s else none := by
  split
  · next h =>
    rw [duration?_eq_some_iff, lower_trim_durationChars]
    exact .clock (writesClock_durationChars h)
  · next h =>
    rw [Option.eq_none_iff_forall_ne_some]
    intro n hn
    rw [duration?_eq_some_iff, lower_trim_durationChars] at hn
    obtain ⟨a, r, heq, -⟩ := durationChars_eq s
    rcases hn.apart with hclock | ⟨hcolon, -⟩
    · exact not_writesClock_durationChars (Nat.not_lt.mp h) hclock
    · exact hcolon (by simp [heq])

/-! ### Typing what is shown -/

/-- A word that says a duration is read without a label. -/
theorem typed?_of_isWord {w : List Char} (hw : IsWord w) {n : Nat} (h : duration? w = some n)
    (hpos : n ≠ 0) (hle : n ≤ maxSeconds) : typed? w = some (n, none) := by
  have hspaced : spaced [w] = w := by simp [spaced, joinWith]
  have hfirst : durationFirst? [w] 1 = some (n, []) := by
    have hfull : duration? (spaced ([w].take (0 + 1))) = some n := by
      rw [List.take_succ_cons, List.take_zero, hspaced, h]
    rw [durationFirst?, hfull]
    rfl
  have hlabel : ¬ (n = 0 ∨ maxSeconds < n) := by omega
  rw [typed?, words_of_isWord hw]
  show (durationFirst? [w] 1 <|> _).bind _ = _
  rw [hfirst]
  exact if_neg hlabel

/-- **Durations that are shown.** Below a hundred hours a duration is read back from what is shown,
and no other one from then on. So what a timer shows when it is new can be typed into the timer,
whatever its label was, and gives a new timer of the same duration without a label. No two durations
are shown alike. -/
theorem duration?_durationText :
    (∀ s, duration? (durationText s).toList = if s < 360000 then some s else none) ∧
      (∀ s label ctx, 1 ≤ s → s ≤ maxSeconds →
        Detection.focused .timer (ofSeconds s label).display.toList ctx =
          some (.timer (ofSeconds s none))) ∧
      Function.Injective durationText := by
  have hchars (s : Nat) : (durationText s).toList = durationChars s := String.toList_ofList
  refine ⟨fun s => ?_, fun s label ctx hpos hle => ?_, fun s t h => ?_⟩
  · rw [hchars, duration?_durationChars]
  · have hword := isWord_durationChars s
    have hread : duration? (durationChars s) = some s := by
      rw [duration?_durationChars]
      exact if_pos (hle.trans_lt (by decide))
    have htyped := typed?_of_isWord hword hread (Nat.ne_of_gt hpos) hle
    have hfull : (durationChars s).isEmpty = false := by simpa using hword.1
    have hdisplay : (ofSeconds s label).display.toList = durationChars s := hchars s
    have htrim : trim (durationChars s) = durationChars s := trim_eq_self hword.2
    simp [Detection.focused, Detection.ofTool, hdisplay, htrim, hfull, detect, htyped]
  · have hseconds := congrArg (fun u => shownSeconds u.toList) h
    simpa [hchars, shownSeconds_durationChars] using hseconds

/-- The last second that is read back, the first that is not, and the longest timer. -/
theorem duration?_durationText_longest :
    duration? (durationText 359999).toList = some 359999 ∧
      duration? (durationText 360000).toList = none ∧
      Detection.focused .timer (ofSeconds maxSeconds (some "tea")).display.toList ⟨0, 0, "en"⟩ =
        some (.timer (ofSeconds maxSeconds none)) ∧
      durationText 3599 ≠ durationText 3600 := by
  obtain ⟨hread, htyped, hinjective⟩ := duration?_durationText
  exact ⟨hread 359999, hread 360000,
    htyped maxSeconds (some "tea") ⟨0, 0, "en"⟩ (by decide) (Nat.le_refl _),
    hinjective.ne (by decide)⟩

end Composer.Countdown
