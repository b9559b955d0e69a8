import Composer.Chance.Outcome
import Composer.Proofs.Text.Piece
/-!
# Composer.Proofs.Chance.Request

**What a text asks to be left to chance.** A text asks for a throw of dice, for the toss of a coin or
for a whole number between two bounds (`Asks`), and it asks for one thing at most. Which one does not
depend on the seed: an answer is found by reading the request (`request?`) and answering it
(`detect_eq`).
-/

namespace Composer.Chance

open Text

variable {β : Type} {s : List Char}

/-! ### Requests -/

/-- What is left to chance. -/
inductive Request where
  /-- A throw of dice. -/
  | throw (t : Throw)
  /-- The toss of a coin. -/
  | coin
  /-- A whole number between two bounds, in either order. -/
  | number (a b : Int)

/-! ### Texts about dice -/

/-- What may stand in front of dice: `roll` and an article. -/
def ThrowLead : List Char → Prop :=
  Joined (Maybe (Joined (Spelled ["roll"]) IsGap)) (Maybe (Joined (Spelled ["an", "a"]) IsGap))

/-- A sign in front of a number. -/
def signOf (minus : Bool) : Char :=
  if minus then '-' else '+'

/-- What is added to dice, if anything is. -/
inductive BonusText : List Char → Option (Bool × List Char) → Prop
  | nothing : BonusText [] none
  | signed {ws ws' ds : List Char} (minus : Bool) (before : AllBlank ws) (behind : AllBlank ws')
      (size : 1 ≤ ds.length ∧ ds.length ≤ 4) (digits : ∀ c ∈ ds, isDecimalDigit c = true) :
      BonusText (ws ++ signOf minus :: (ws' ++ ds)) (some (minus, ds))

/-- Dice in the notation of games. -/
inductive DiceText : List Char → ThrowText → Prop
  | mk {count d sides rest : List Char} {bonus : Option (Bool × List Char)}
      (few : count.length ≤ 3) (digits : ∀ c ∈ count, isDecimalDigit c = true)
      (word : Spelled ["d"] d) (size : 1 ≤ sides.length ∧ sides.length ≤ 4)
      (digits' : ∀ c ∈ sides, isDecimalDigit c = true) (rest_ : BonusText rest bonus) :
      DiceText (count ++ (d ++ (sides ++ rest))) ⟨count, sides, bonus⟩

/-- The number that a sign and ASCII digits say. -/
def Says (x : Bool × List Char) (v : Int) : Prop :=
  ∃ n : Nat, natural? x.2 = some n ∧ v = if x.1 then -(n : Int) else n

/-- The throw that a text about dice says. Without a count it is one die. -/
structure ThrowText.Says (t : ThrowText) (w : Throw) : Prop where
  /-- The number of dice. -/
  count : t.count = [] ∧ w.count = 1 ∨ natural? t.count = some w.count
  /-- The number of sides. -/
  sides : natural? t.sides = some w.sides
  /-- What is added. -/
  bonus : t.bonus = none ∧ w.bonus = 0 ∨ ∃ x, t.bonus = some x ∧ Chance.Says x w.bonus

/-- `roll`, perhaps with an article, and perhaps with the word for dice. -/
def DieText : List Char → Prop :=
  Joined (Spelled ["roll"]) <|
    Joined (Maybe (Joined IsGap (Spelled ["an", "a", "the"]))) <|
      Maybe (Joined IsGap (Spelled ["die", "dice"]))

/-! ### Texts about coins -/

/-- `flip a coin`. -/
def TossText : List Char → Prop :=
  Joined (Spelled ["flip", "toss"]) <|
    Joined (Maybe (Joined IsGap (Spelled ["an", "a"]))) (Joined IsGap (Spelled ["coin"]))

/-- `coin flip`. -/
def FlipText : List Char → Prop :=
  Joined (Spelled ["coin"]) (Joined AllBlank (Spelled ["flip", "toss"]))

/-- `heads or tails?` -/
def SideText : List Char → Prop :=
  Joined (Spelled ["heads"]) <| Joined IsGap <| Joined (Spelled ["or"]) <| Joined IsGap <|
    Joined (Spelled ["tails"]) (Maybe (· = ['?']))

/-! ### Texts about numbers -/

/-- What stands in front of bounds. -/
def NumberLead : List Char → Prop :=
  Joined (Spelled ["random", "rand", "pick"]) <|
    Joined (Maybe (Joined IsGap (Joined (Maybe (Joined (Spelled ["a"]) IsGap))
      (Spelled ["number"])))) <|
      Joined (Maybe (Joined IsGap (Spelled ["between", "from"]))) IsGap

/-- A bound: digits, with a minus sign if it is negative. -/
def BoundText (s : List Char) (x : Bool × List Char) : Prop :=
  s = (if x.1 then '-' :: x.2 else x.2) ∧ (1 ≤ x.2.length ∧ x.2.length ≤ 9) ∧
    ∀ c ∈ x.2, isDecimalDigit c = true

/-- The words between two bounds. -/
def joiners : List String :=
  ["-", "to", "and", ".."]

/-- Two bounds. -/
inductive BoundsText : List Char → (Bool × List Char) × (Bool × List Char) → Prop
  | mk {low ws join ws' high : List Char} {x y : Bool × List Char} (low_ : BoundText low x)
      (before : AllBlank ws) (word : Spelled joiners join) (behind : AllBlank ws')
      (high_ : BoundText high y) : BoundsText (low ++ (ws ++ (join ++ (ws' ++ high)))) (x, y)

/-- `random number`. -/
def AnyNumberText : List Char → Prop :=
  Joined (Spelled ["random", "rand"]) (Maybe (Joined IsGap (Spelled ["number"])))

/-! ### What is asked for -/

/-- **What a text asks for.** -/
inductive Asks : List Char → Request → Prop
  /-- Dice in the notation of games. -/
  | throw {lead dice : List Char} {t : ThrowText} {w : Throw} (lead_ : ThrowLead lead)
      (dice_ : DiceText dice t) (said : t.Says w) : Asks (lead ++ dice) (.throw w)
  /-- One die with six sides. -/
  | die {s : List Char} (text : DieText s) : Asks s (.throw ⟨1, 6, 0⟩)
  /-- A coin. -/
  | coin {s : List Char} (text : TossText s ∨ FlipText s ∨ SideText s) : Asks s .coin
  /-- A number between two bounds. -/
  | number {lead bounds : List Char} {x y : Bool × List Char} {a b : Int} (lead_ : NumberLead lead)
      (bounds_ : BoundsText bounds (x, y)) (low : Says x a) (high : Says y b) :
      Asks (lead ++ bounds) (.number a b)
  /-- A number up to a hundred. -/
  | anyNumber {s : List Char} (text : AnyNumberText s) : Asks s (.number 1 100)

/-- The request that is read. -/
def request? (text : List Char) : Option Request :=
  match throwPhrase text with
  | some t => t.throw?.map .throw
  | none =>
    if (rollPhrase text).isSome then some (.throw ⟨1, 6, 0⟩)
    else if (coinPhrase text).isSome then some .coin
    else match numberPhrase text with
      | some (a, b) => do some (.number (← boundValue? a) (← boundValue? b))
      | none => if (barePhrase text).isSome then some (.number 1 100) else none

/-- The answer to a request. -/
def Request.answer (seed : UInt64) : Request → Option Outcome
  | throw t => t.outcome seed
  | coin => some (tossed seed)
  | number a b => numbered seed (min a b) (max a b)

@[simp] theorem Request.answer_throw (seed : UInt64) (t : Throw) :
    (throw t).answer seed = t.outcome seed := by
  rw [answer]

@[simp] theorem Request.answer_coin (seed : UInt64) : coin.answer seed = some (tossed seed) := by
  rw [answer]

@[simp] theorem Request.answer_number (seed : UInt64) (a b : Int) :
    (number a b).answer seed = numbered seed (min a b) (max a b) := by
  rw [answer]

/-- **An answer is the answer to a request, and only the answer depends on the seed.** -/
theorem detect_eq (seed : UInt64) (input : List Char) :
    detect seed input = (request? (trim input)).bind (·.answer seed) := by
  -- The branches are rewritten and not computed: a draw unfolds to every word of the stream.
  unfold detect request?
  dsimp only
  cases throwPhrase (trim input) with
  | some t => simp only [Option.bind_map, Function.comp_def, Request.answer_throw]
  | none =>
      dsimp only
      by_cases hroll : (rollPhrase (trim input)).isSome = true
      · rw [if_pos hroll, if_pos hroll, Option.bind_some, Request.answer_throw]
      rw [if_neg hroll, if_neg hroll]
      by_cases hcoin : (coinPhrase (trim input)).isSome = true
      · rw [if_pos hcoin, if_pos hcoin, Option.bind_some, Request.answer_coin]
      rw [if_neg hcoin, if_neg hcoin]
      cases numberPhrase (trim input) with
      | some bounds =>
          obtain ⟨a, b⟩ := bounds
          dsimp only
          cases boundValue? a with
          | none => rfl
          | some low =>
              rw [Option.bind_eq_bind, Option.bind_some, Option.bind_eq_bind, Option.bind_some]
              cases boundValue? b with
              | none => rfl
              | some high =>
                  rw [Option.bind_some, Option.bind_some, Option.bind_some, Request.answer_number]
      | none =>
          dsimp only
          by_cases hbare : (barePhrase (trim input)).isSome = true
          · rw [if_pos hbare, if_pos hbare, Option.bind_some, Request.answer_number,
              Int.min_eq_left (by decide), Int.max_eq_right (by decide)]
          · rw [if_neg hbare, if_neg hbare, Option.bind_none]

/-! ### Phrases without digits -/

theorem reads_article : Reads (article : Reading β → Reading β) (Spelled ["an", "a"]) :=
  (Reads.keyword "an").eitherWord (Reads.keyword "a")

theorem isSome_rollPhrase_iff : (rollPhrase s).isSome = true ↔ DieText s := by
  have harticle : Reads (fun k : Reading Unit => firstOf [article k, keyword "the" k])
      (Spelled ["an", "a", "the"]) := reads_article.eitherWord (.keyword "the")
  have hdice : Reads (fun k : Reading Unit => firstOf [keyword "die" k, keyword "dice" k])
      (Spelled ["die", "dice"]) := (Reads.keyword "die").eitherWord (.keyword "dice")
  exact ((Reads.keyword "roll").andThen <| (Reads.blanks.andThen harticle).optionally.andThen
    (Reads.blanks.andThen hdice).optionally).isSome_stop_iff

theorem isSome_coinPhrase_iff :
    (coinPhrase s).isSome = true ↔ TossText s ∨ FlipText s ∨ SideText s := by
  have htoss := ((Reads.keywordAmong ["flip", "toss"]).andThen <|
    (Reads.blanks.andThen reads_article).optionally.andThen <|
      Reads.blanks.andThen (.keyword "coin")).isSome_stop_iff (b := ()) (s := s)
  have hcoin := ((Reads.keyword "coin").andThen <|
    Reads.maybeBlanks.andThen (.keywordAmong ["flip", "toss"])).isSome_stop_iff (b := ()) (s := s)
  have hside := ((Reads.keyword "heads").andThen <| Reads.blanks.andThen <|
    (Reads.keyword "or").andThen <| Reads.blanks.andThen <|
      (Reads.keyword "tails").andThen (Reads.char '?').optionally).isSome_stop_iff (b := ()) (s := s)
  rw [coinPhrase, firstOf, List.findSome?_isSome_iff]
  simp only [List.mem_cons, List.not_mem_nil, or_false, exists_eq_or_imp, exists_eq_left]
  exact or_congr htoss (or_congr hcoin hside)

theorem isSome_barePhrase_iff : (barePhrase s).isSome = true ↔ AnyNumberText s :=
  ((Reads.keywordAmong ["random", "rand"]).andThen
    (Reads.blanks.andThen (.keyword "number")).optionally).isSome_stop_iff

/-! ### Phrases about dice -/

section

variable {k : Option (Bool × List Char) → ThrowText} {t : ThrowText}

/-- A sign and the size of what is added. -/
def signedAtEnd (k : Option (Bool × List Char) → ThrowText) (minus : Bool) : Reading ThrowText :=
  char (signOf minus) <| maybeBlanks <| digits 1 4 fun ds => stop (k (some (minus, ds)))

theorem signedAtEnd_eq_some_iff {minus : Bool} : signedAtEnd k minus s = some t ↔
    ∃ ws ds, s = signOf minus :: (ws ++ ds) ∧ AllBlank ws ∧ (1 ≤ ds.length ∧ ds.length ≤ 4) ∧
      (∀ c ∈ ds, isDecimalDigit c = true) ∧ k (some (minus, ds)) = t := by
  simp only [signedAtEnd, char_eq_some_iff,
    maybeBlanks_eq_some_iff (skipsNoBlank_digits Nat.one_pos _),
    digits_eq_some_iff fun _ => beginsOutside_stop isDecimalDigit _, stop_eq_some_iff]
  constructor
  · rintro ⟨_, rfl, ws, _, rfl, hws, ds, _, rfl, hsize, hds, rfl, ht⟩
    exact ⟨ws, ds, by rw [List.append_nil], hws, hsize, hds, ht⟩
  · rintro ⟨ws, ds, rfl, hws, hsize, hds, ht⟩
    exact ⟨_, rfl, ws, ds, rfl, hws, ds, [], (List.append_nil ds).symm, hsize, hds, rfl, ht⟩

/-- Only one of the two signs can be there. -/
theorem eitherSign_eq_some_iff :
    firstOf [signedAtEnd k false, signedAtEnd k true] s = some t ↔
      ∃ minus, signedAtEnd k minus s = some t := by
  constructor
  · intro h
    rcases firstOf_pair_eq_some h with hread | hread
    · exact ⟨false, hread⟩
    · exact ⟨true, hread⟩
  · rintro ⟨minus, h⟩
    cases minus with
    | false => exact firstOf_of_eq_some h _
    | true =>
        obtain ⟨ws, ds, rfl, -⟩ := signedAtEnd_eq_some_iff.mp h
        have hplus : signedAtEnd k false ('-' :: (ws ++ ds)) = none :=
          char_cons_of_ne (by decide) _ _
        exact (firstOf_of_eq_none hplus _).trans (firstOf_of_eq_some h _)

theorem isBlank_signOf (minus : Bool) : isBlank (signOf minus) = false := by
  cases minus <;> rfl

theorem skipsNoBlank_eitherSign (k : Option (Bool × List Char) → ThrowText) :
    SkipsNoBlank (firstOf [signedAtEnd k false, signedAtEnd k true]) := by
  intro c s hc
  rw [Option.eq_none_iff_forall_ne_some]
  intro t h
  obtain ⟨minus, h⟩ := eitherSign_eq_some_iff.mp h
  obtain ⟨ws, ds, hs, -⟩ := signedAtEnd_eq_some_iff.mp h
  obtain ⟨rfl, -⟩ := List.cons.inj hs
  rw [isBlank_signOf] at hc
  cases hc

theorem bonus_eq_some_iff : bonus k s = some t ↔ ∃ b, BonusText s b ∧ k b = t := by
  constructor
  · intro h
    rcases firstOf_pair_eq_some h with hread | hread
    · obtain ⟨ws, r, rfl, hws, hsign⟩ :=
        (maybeBlanks_eq_some_iff (skipsNoBlank_eitherSign k)).mp hread
      obtain ⟨minus, hsign⟩ := eitherSign_eq_some_iff.mp hsign
      obtain ⟨ws', ds, rfl, hws', hsize, hds, ht⟩ := signedAtEnd_eq_some_iff.mp hsign
      exact ⟨_, .signed minus hws hws' hsize hds, ht⟩
    · obtain ⟨rfl, ht⟩ := stop_eq_some_iff.mp hread
      exact ⟨none, .nothing, ht⟩
  · rintro ⟨b, hb, rfl⟩
    cases hb with
    | nothing => rfl
    | @signed ws ws' ds minus hws hws' hsize hds =>
        refine firstOf_of_eq_some ?_ _
        refine (maybeBlanks_eq_some_iff (skipsNoBlank_eitherSign k)).mpr ⟨ws, _, rfl, hws, ?_⟩
        exact eitherSign_eq_some_iff.mpr
          ⟨minus, signedAtEnd_eq_some_iff.mpr ⟨ws', ds, rfl, hws', hsize, hds, rfl⟩⟩

theorem beginsOutside_bonus (k : Option (Bool × List Char) → ThrowText) :
    BeginsOutside isDecimalDigit (bonus k) := by
  intro r t h c hc
  obtain ⟨b, hb, -⟩ := bonus_eq_some_iff.mp h
  cases hb with
  | nothing => cases hc
  | @signed ws ws' ds minus hws =>
      cases ws with
      | nil =>
          obtain rfl := Option.some.inj hc
          cases minus <;> rfl
      | cons d ws =>
          obtain rfl := Option.some.inj hc
          exact isDecimalDigit_of_isBlank (hws _ List.mem_cons_self)

end

/-- What is left of a phrase about dice behind what may stand in front of them. -/
def diceAtEnd : Reading ThrowText :=
  digits 0 3 fun count => keyword "d" <| digits 1 4 fun sides => bonus (.mk count sides)

theorem not_isDecimalDigit_of_spelled {l : List String} {u : List Char} (hu : Spelled l u)
    (hl : ∀ w ∈ l, w.toList.head?.any (!isDecimalDigit ·) = true) (r : List Char) :
    ∀ c ∈ (u ++ r).head?, isDecimalDigit c = false := by
  intro c hc
  obtain ⟨d, v, rfl, hd⟩ := hu.exists_cons hl
  obtain rfl := Option.some.inj hc
  rw [Bool.eq_false_iff]
  intro hdigit
  rw [fold_of_not_isKeywordLetter (not_isKeywordLetter_of_isDecimalDigit hdigit), hdigit] at hd
  cases hd

theorem diceAtEnd_eq_some_iff {t : ThrowText} : diceAtEnd s = some t ↔ DiceText s t := by
  have hword : ∀ count, BeginsOutside isDecimalDigit
      (keyword "d" <| digits 1 4 fun sides => bonus (.mk count sides)) := by
    intro count r t h
    obtain ⟨u, r, rfl, hu, -⟩ := keyword_eq_some_iff.mp h
    exact not_isDecimalDigit_of_spelled hu (by decide) r
  simp only [diceAtEnd, digits_eq_some_iff hword, keyword_eq_some_iff,
    digits_eq_some_iff fun sides => beginsOutside_bonus _, bonus_eq_some_iff]
  constructor
  · rintro ⟨count, _, rfl, hfew, hcount, d, _, rfl, hd, sides, rest, rfl, hsize, hsides, b, hb, rfl⟩
    exact .mk hfew.2 hcount hd hsize hsides hb
  · intro h
    cases h with
    | @mk count d sides rest b hfew hcount hd hsize hsides hb =>
        exact ⟨count, _, rfl, ⟨Nat.zero_le _, hfew⟩, hcount, d, _, rfl, hd, sides, rest, rfl, hsize,
          hsides, b, hb, rfl⟩

/-! ### Where what stands in front ends -/

/-- The character is no digit, and not `x` in any letter case. -/
def apartFrom (x c : Char) : Bool :=
  !isDecimalDigit c && fold c != x

section

variable {x : Char}

theorem within_spelled {l : List String}
    (h : ∀ w ∈ l, w.toList.all (fun d => d.isLower && d != x) = true) :
    Within (apartFrom x) (Spelled l) := by
  refine .spelled fun w hw c hc => ?_
  have hfold := List.all_eq_true.mp (h w hw) _ hc
  rw [Bool.and_eq_true] at hfold
  rw [apartFrom, hfold.2, not_isDecimalDigit_of_isKeywordLetter hfold.1]
  rfl

theorem apartFrom_of_isBlank (hx : isBlank x = false) {c : Char} (hc : isBlank c = true) :
    apartFrom x c = true := by
  have hne : c ≠ x := by
    rintro rfl
    rw [hx] at hc
    cases hc
  rw [apartFrom, isDecimalDigit_of_isBlank hc, fold_of_isBlank hc]
  simpa using hne

theorem within_gap (hx : isBlank x = false) : Within (apartFrom x) IsGap :=
  .gap fun _ => apartFrom_of_isBlank hx

theorem within_allBlank (hx : isBlank x = false) : Within (apartFrom x) AllBlank :=
  .allBlank fun _ => apartFrom_of_isBlank hx

end

theorem within_throwLead : Within (apartFrom 'd') ThrowLead :=
  .joined (.maybe <| .joined (within_spelled (by decide)) (within_gap rfl))
    (.maybe <| .joined (within_spelled (by decide)) (within_gap rfl))

theorem within_numberLead : Within (apartFrom '-') NumberLead :=
  .joined (within_spelled (by decide)) <|
    .joined (.maybe <| .joined (within_gap rfl) <|
      .joined (.maybe <| .joined (within_spelled (by decide)) (within_gap rfl))
        (within_spelled (by decide))) <|
      .joined (.maybe <| .joined (within_gap rfl) (within_spelled (by decide))) (within_gap rfl)

theorem within_dieText : Within (apartFrom '-') DieText :=
  .joined (within_spelled (by decide)) <|
    .joined (.maybe <| .joined (within_gap rfl) (within_spelled (by decide)))
      (.maybe <| .joined (within_gap rfl) (within_spelled (by decide)))

theorem within_coinText : Within (apartFrom '-') fun s => TossText s ∨ FlipText s ∨ SideText s := by
  have htoss : Within (apartFrom '-') TossText :=
    .joined (within_spelled (by decide)) <|
      .joined (.maybe <| .joined (within_gap rfl) (within_spelled (by decide)))
        (.joined (within_gap rfl) (within_spelled (by decide)))
  have hflip : Within (apartFrom '-') FlipText :=
    .joined (within_spelled (by decide))
      (.joined (within_allBlank rfl) (within_spelled (by decide)))
  have hside : Within (apartFrom '-') SideText :=
    .joined (within_spelled (by decide)) <| .joined (within_gap rfl) <|
      .joined (within_spelled (by decide)) <| .joined (within_gap rfl) <|
        .joined (within_spelled (by decide)) (.maybe (.char (by decide)))
  rintro s (h | h | h)
  · exact htoss s h
  · exact hflip s h
  · exact hside s h

theorem within_anyNumberText : Within (apartFrom '-') AnyNumberText :=
  .joined (within_spelled (by decide))
    (.maybe <| .joined (within_gap rfl) (within_spelled (by decide)))

theorem beginsOutside_diceAtEnd : BeginsOutside (apartFrom 'd') diceAtEnd := by
  intro r t h c hc
  cases diceAtEnd_eq_some_iff.mp h with
  | @mk count d sides rest bonus hfew hcount hd =>
      cases count with
      | cons e count =>
          obtain rfl := Option.some.inj hc
          rw [apartFrom, hcount _ List.mem_cons_self]
          rfl
      | nil =>
          obtain ⟨e, d, rfl, he⟩ := hd.exists_cons (f := (· == 'd')) (by decide)
          obtain rfl := Option.some.inj hc
          rw [apartFrom, bne, he]
          exact Bool.and_false _

theorem throwPhrase_eq_some_iff {t : ThrowText} : throwPhrase s = some t ↔
    ∃ lead dice, s = lead ++ dice ∧ ThrowLead lead ∧ DiceText dice t := by
  have hreads : Reads (fun k : Reading ThrowText =>
      optionally (fun k => keyword "roll" <| blanks k) <|
        optionally (fun k => article <| blanks k) k) ThrowLead :=
    ((Reads.keyword "roll").andThen .blanks).optionally.andThen
      (reads_article.andThen .blanks).optionally
  have hread := hreads.eq_some_iff within_throwLead beginsOutside_diceAtEnd (s := s) (b := t)
  simp only [diceAtEnd_eq_some_iff] at hread
  exact hread

/-! ### Phrases about numbers -/

theorem bound_eq_some_iff {k : Bool × List Char → Reading β}
    (hk : ∀ x, BeginsOutside isDecimalDigit (k x)) {b : β} :
    bound k s = some b ↔ ∃ x low r, s = low ++ r ∧ BoundText low x ∧ k x r = some b := by
  have hdigits (minus : Bool) (r : List Char) :
      digits 1 9 (fun ds => k (minus, ds)) r = some b ↔ _ := digits_eq_some_iff fun ds => hk (minus, ds)
  constructor
  · intro h
    rcases firstOf_pair_eq_some h with hread | hread
    · obtain ⟨r, rfl, hread⟩ := char_eq_some_iff.mp hread
      obtain ⟨ds, r, rfl, hsize, hds, hr⟩ := (hdigits true r).mp hread
      exact ⟨(true, ds), '-' :: ds, r, rfl, ⟨rfl, hsize, hds⟩, hr⟩
    · obtain ⟨ds, r, rfl, hsize, hds, hr⟩ := (hdigits false s).mp hread
      exact ⟨(false, ds), ds, r, rfl, ⟨rfl, hsize, hds⟩, hr⟩
  · rintro ⟨⟨minus, ds⟩, low, r, rfl, ⟨rfl, hsize, hds⟩, hr⟩
    cases minus with
    | true =>
        refine firstOf_of_eq_some ?_ _
        exact char_eq_some_iff.mpr ⟨ds ++ r, rfl, (hdigits true _).mpr ⟨ds, r, rfl, hsize, hds, hr⟩⟩
    | false =>
        obtain ⟨d, ds, rfl⟩ := List.exists_cons_of_length_pos hsize.1
        have hd : d ≠ '-' := by
          rintro rfl
          cases hds '-' List.mem_cons_self
        refine (firstOf_of_eq_none (char_cons_of_ne hd _ _) _).trans (firstOf_of_eq_some ?_ _)
        exact (hdigits false _).mpr ⟨d :: ds, r, rfl, hsize, hds, hr⟩

/-- What is left of a phrase about a number behind what stands in front of the bounds. -/
def boundsAtEnd : Reading ((Bool × List Char) × (Bool × List Char)) :=
  bound fun low => maybeBlanks <| keywordAmong joiners fun _ => maybeBlanks <|
    bound fun high => stop (low, high)

theorem skipsNoBlank_bound (k : Bool × List Char → Reading β) : SkipsNoBlank (bound k) := by
  intro c s hc
  rw [bound, firstOf_of_eq_none (skipsNoBlank_char rfl _ c s hc),
    firstOf_of_eq_none (skipsNoBlank_digits Nat.one_pos _ c s hc)]
  rfl

theorem beginsOutside_boundAtEnd (low : Bool × List Char) :
    BeginsOutside isDecimalDigit
      (maybeBlanks <| keywordAmong joiners fun _ => maybeBlanks <|
        bound fun high => stop (low, high)) := by
  intro r b h c hc
  obtain ⟨ws, r, hws, rfl, hjoin⟩ := maybeBlanks_eq_some h
  cases ws with
  | cons d ws =>
      obtain rfl := Option.some.inj hc
      exact isDecimalDigit_of_isBlank (hws _ List.mem_cons_self)
  | nil =>
      obtain ⟨u, r, rfl, hu, -⟩ := (Reads.keywordAmong joiners).sound hjoin
      exact not_isDecimalDigit_of_spelled hu (by decide) r c hc

theorem boundsAtEnd_eq_some_iff {x : (Bool × List Char) × (Bool × List Char)} :
    boundsAtEnd s = some x ↔ BoundsText s x := by
  have hjoiners : ∀ w ∈ joiners, ∀ w' ∈ joiners, w.toList <+: w'.toList → w = w' := by decide
  have hblanks : ∀ w ∈ joiners, w.toList.head?.any (!isBlank ·) = true := by decide
  simp only [boundsAtEnd, bound_eq_some_iff beginsOutside_boundAtEnd,
    maybeBlanks_eq_some_iff (skipsNoBlank_keywordAmong hblanks _),
    keywordAmong_eq_some_iff_of_prefixFree hjoiners,
    maybeBlanks_eq_some_iff (skipsNoBlank_bound _),
    bound_eq_some_iff fun _ => beginsOutside_stop isDecimalDigit _, stop_eq_some_iff]
  constructor
  · rintro ⟨x, low, _, rfl, hlow, ws, _, rfl, hws, join, _, rfl, hjoin, ws', _, rfl, hws', y, high, _,
      rfl, hhigh, rfl, rfl⟩
    rw [List.append_nil]
    exact .mk hlow hws hjoin hws' hhigh
  · intro h
    cases h with
    | @mk low ws join ws' high x y hlow hws hjoin hws' hhigh =>
        exact ⟨x, low, _, rfl, hlow, ws, _, rfl, hws, join, _, rfl, hjoin, ws', _, rfl, hws', y, high,
          [], (List.append_nil high).symm, hhigh, rfl, rfl⟩

theorem beginsOutside_boundsAtEnd : BeginsOutside (apartFrom '-') boundsAtEnd := by
  intro r x h c hc
  cases boundsAtEnd_eq_some_iff.mp h with
  | @mk low ws join ws' high x y hlow =>
      obtain ⟨rfl, hsize, hds⟩ := hlow
      obtain ⟨minus, ds⟩ := x
      cases minus with
      | true =>
          obtain rfl := Option.some.inj hc
          rfl
      | false =>
          obtain ⟨d, ds, rfl⟩ := List.exists_cons_of_length_pos hsize.1
          obtain rfl := Option.some.inj hc
          rw [apartFrom, hds _ List.mem_cons_self]
          rfl

theorem numberPhrase_eq_some_iff {x : (Bool × List Char) × (Bool × List Char)} :
    numberPhrase s = some x ↔
      ∃ lead bounds, s = lead ++ bounds ∧ NumberLead lead ∧ BoundsText bounds x := by
  have hreads : Reads (fun k : Reading ((Bool × List Char) × (Bool × List Char)) =>
      keywordAmong ["random", "rand", "pick"] fun _ =>
        optionally (fun k => blanks <|
          optionally (fun k => keyword "a" <| blanks k) <| keyword "number" k) <|
          optionally (fun k => blanks <| keywordAmong ["between", "from"] fun _ => k) <| blanks k)
      NumberLead :=
    (Reads.keywordAmong ["random", "rand", "pick"]).andThen <|
      (Reads.blanks.andThen <| ((Reads.keyword "a").andThen .blanks).optionally.andThen
        (.keyword "number")).optionally.andThen <|
        (Reads.blanks.andThen (.keywordAmong ["between", "from"])).optionally.andThen .blanks
  have hread := hreads.eq_some_iff within_numberLead beginsOutside_boundsAtEnd (s := s) (b := x)
  simp only [boundsAtEnd_eq_some_iff] at hread
  exact hread

/-! ### One request -/

theorem says_iff {x : Bool × List Char} {v : Int} : Says x v ↔ boundValue? x = some v := by
  obtain ⟨minus, ds⟩ := x
  unfold Says boundValue?
  dsimp only
  cases natural? ds with
  | none => simp
  | some n => simp [eq_comm]

theorem count_eq_some_iff {ds : List Char} {n : Nat} :
    (if ds.isEmpty then some 1 else natural? ds) = some n ↔
      ds = [] ∧ n = 1 ∨ natural? ds = some n := by
  cases ds with
  | nil => simp [natural?, eq_comm]
  | cons d ds => simp

theorem throw?_eq (t : ThrowText) : t.throw? =
    (if t.count.isEmpty then some 1 else natural? t.count).bind fun count =>
      (natural? t.sides).bind fun sides =>
        (t.bonus.elim (some 0) boundValue?).map (Throw.mk count sides) := by
  obtain ⟨count, sides, bonus⟩ := t
  unfold ThrowText.throw?
  cases bonus with
  | none =>
      dsimp only
      split <;> rfl
  | some x =>
      dsimp only [Option.elim, boundValue?]
      cases natural? x.2 <;> split <;> rfl

theorem throw?_eq_some_iff {t : ThrowText} {w : Throw} : t.throw? = some w ↔ t.Says w := by
  have hbonus (v : Int) : t.bonus.elim (some 0) boundValue? = some v ↔
      t.bonus = none ∧ v = 0 ∨ ∃ x, t.bonus = some x ∧ Says x v := by
    cases t.bonus with
    | none => simp [eq_comm]
    | some x => simp [says_iff]
  simp only [throw?_eq, Option.bind_eq_some_iff, Option.map_eq_some_iff, count_eq_some_iff, hbonus]
  constructor
  · rintro ⟨n, hcount, m, hsides, v, hv, rfl⟩
    exact ⟨hcount, hsides, hv⟩
  · rintro ⟨hcount, hsides, hv⟩
    exact ⟨w.count, hcount, w.sides, hsides, w.bonus, hv, rfl⟩

/-- No text about dice or bounds goes without a digit. -/
theorem exists_digit_of_throw {t : ThrowText} (h : throwPhrase s = some t) :
    ∃ c ∈ s, isDecimalDigit c = true := by
  obtain ⟨lead, dice, rfl, -, hdice⟩ := throwPhrase_eq_some_iff.mp h
  cases hdice with
  | @mk count d sides rest bonus hfew hcount hd hsize hsides =>
      obtain ⟨e, sides, rfl⟩ := List.exists_cons_of_length_pos hsize.1
      exact ⟨e, by simp, hsides e List.mem_cons_self⟩

theorem exists_digit_of_number {x : (Bool × List Char) × (Bool × List Char)}
    (h : numberPhrase s = some x) : ∃ c ∈ s, isDecimalDigit c = true := by
  obtain ⟨lead, bounds, rfl, -, hbounds⟩ := numberPhrase_eq_some_iff.mp h
  cases hbounds with
  | @mk low ws join ws' high x y hlow hws hjoin hws' hhigh =>
      obtain ⟨rfl, hsize, hds⟩ := hhigh
      obtain ⟨minus, ds⟩ := y
      obtain ⟨d, ds, rfl⟩ := List.exists_cons_of_length_pos hsize.1
      exact ⟨d, by cases minus <;> simp, hds d List.mem_cons_self⟩

theorem eq_none_of_within {P : List Char → Prop} (hP : Within (apartFrom '-') P) (hs : P s) :
    throwPhrase s = none ∧ numberPhrase s = none := by
  have hnone : ¬ ∃ c ∈ s, isDecimalDigit c = true := by
    rintro ⟨c, hc, hdigit⟩
    have hapart := hP s hs c hc
    rw [apartFrom, hdigit] at hapart
    cases hapart
  constructor
  · rw [Option.eq_none_iff_forall_ne_some]
    exact fun t ht => hnone (exists_digit_of_throw ht)
  · rw [Option.eq_none_iff_forall_ne_some]
    exact fun x hx => hnone (exists_digit_of_number hx)

theorem begins_of_joined {l : List String} {Q : List Char → Prop} (h : Joined (Spelled l) Q s) :
    Begins l s := by
  obtain ⟨u, r, hs, hu, -⟩ := h
  exact ⟨u, r, hs, hu⟩

theorem begins_coinText (h : TossText s ∨ FlipText s ∨ SideText s) :
    Begins ["flip", "toss", "coin", "heads"] s := by
  rcases h with h | h | h
  · exact (begins_of_joined h).of_subset (by decide)
  · exact (begins_of_joined h).of_subset (by decide)
  · exact (begins_of_joined h).of_subset (by decide)

/-- Dice do not begin like a number. -/
theorem throwPhrase_of_begins (h : Begins ["random", "rand", "pick"] s) : throwPhrase s = none := by
  rw [Option.eq_none_iff_forall_ne_some]
  intro t ht
  obtain ⟨lead, dice, rfl, ⟨roll, article, rfl, hroll, harticle⟩, hdice⟩ :=
    throwPhrase_eq_some_iff.mp ht
  rcases hroll with rfl | hroll
  · rcases harticle with rfl | harticle
    · cases hdice with
      | @mk count d sides rest bonus hfew hcount hd =>
          cases count with
          | nil => exact h.not_begins (by decide) ⟨d, sides ++ rest, rfl, hd⟩
          | cons c count =>
              obtain ⟨u, r, hs, hu⟩ := h
              have hc : isDecimalDigit c = false :=
                not_isDecimalDigit_of_spelled hu (by decide) r c (by rw [← hs]; rfl)
              rw [hcount c List.mem_cons_self] at hc
              cases hc
    · obtain ⟨u, r, rfl, hu⟩ := begins_of_joined harticle
      exact h.not_begins (by decide) ⟨u, r ++ dice, by simp, hu⟩
  · obtain ⟨u, r, rfl, hu⟩ := begins_of_joined hroll
    exact h.not_begins (by decide) ⟨u, r ++ (article ++ dice), by simp, hu⟩

theorem request?_of_asks {r : Request} (h : Asks s r) : request? s = some r := by
  unfold request?
  cases h with
  | @throw lead dice t w hlead hdice hsays =>
      rw [throwPhrase_eq_some_iff.mpr ⟨lead, dice, rfl, hlead, hdice⟩]
      dsimp only
      rw [throw?_eq_some_iff.mpr hsays]
      rfl
  | die htext =>
      rw [(eq_none_of_within within_dieText htext).1]
      exact if_pos (isSome_rollPhrase_iff.mpr htext)
  | coin htext =>
      have hroll : ¬ (rollPhrase s).isSome = true := fun hroll =>
        (begins_coinText htext).not_begins (by decide)
          (begins_of_joined (isSome_rollPhrase_iff.mp hroll))
      rw [(eq_none_of_within within_coinText htext).1]
      dsimp only
      rw [if_neg hroll, if_pos (isSome_coinPhrase_iff.mpr htext)]
  | @number lead bounds x y a b hlead hbounds hlow hhigh =>
      have hread := numberPhrase_eq_some_iff.mpr ⟨lead, bounds, rfl, hlead, hbounds⟩
      have hroll : ¬ (rollPhrase (lead ++ bounds)).isSome = true := by
        intro hroll
        have hnone := (eq_none_of_within within_dieText (isSome_rollPhrase_iff.mp hroll)).2
        rw [hread] at hnone
        cases hnone
      have hcoin : ¬ (coinPhrase (lead ++ bounds)).isSome = true := by
        intro hcoin
        have hnone := (eq_none_of_within within_coinText (isSome_coinPhrase_iff.mp hcoin)).2
        rw [hread] at hnone
        cases hnone
      have hthrow : throwPhrase (lead ++ bounds) = none := by
        obtain ⟨u, r, rfl, hu⟩ := begins_of_joined hlead
        exact throwPhrase_of_begins ⟨u, r ++ bounds, List.append_assoc u r bounds, hu⟩
      rw [hthrow]
      dsimp only
      rw [if_neg hroll, if_neg hcoin, hread]
      dsimp only
      rw [says_iff.mp hlow, says_iff.mp hhigh]
      rfl
  | anyNumber htext =>
      obtain ⟨hthrow, hnumber⟩ := eq_none_of_within within_anyNumberText htext
      have hbegins := begins_of_joined htext
      have hroll : ¬ (rollPhrase s).isSome = true := fun hroll =>
        hbegins.not_begins (by decide) (begins_of_joined (isSome_rollPhrase_iff.mp hroll))
      have hcoin : ¬ (coinPhrase s).isSome = true := fun hcoin =>
        hbegins.not_begins (by decide) (begins_coinText (isSome_coinPhrase_iff.mp hcoin))
      rw [hthrow]
      dsimp only
      rw [if_neg hroll, if_neg hcoin, hnumber]
      exact if_pos (isSome_barePhrase_iff.mpr htext)

theorem asks_of_request? {r : Request} (h : request? s = some r) : Asks s r := by
  unfold request? at h
  split at h
  · next t ht =>
      obtain ⟨w, hw, rfl⟩ := Option.map_eq_some_iff.mp h
      obtain ⟨lead, dice, rfl, hlead, hdice⟩ := throwPhrase_eq_some_iff.mp ht
      exact .throw hlead hdice (throw?_eq_some_iff.mp hw)
  split at h
  · next hroll =>
      obtain rfl := Option.some.inj h
      exact .die (isSome_rollPhrase_iff.mp hroll)
  split at h
  · next hcoin =>
      obtain rfl := Option.some.inj h
      exact .coin (isSome_coinPhrase_iff.mp hcoin)
  split at h
  · next x y hnumber =>
      obtain ⟨a, ha, h⟩ := Option.bind_eq_some_iff.mp h
      obtain ⟨b, hb, h⟩ := Option.bind_eq_some_iff.mp h
      obtain rfl := Option.some.inj h
      obtain ⟨lead, bounds, rfl, hlead, hbounds⟩ := numberPhrase_eq_some_iff.mp hnumber
      exact .number hlead hbounds (says_iff.mpr ha) (says_iff.mpr hb)
  split at h
  · next hbare =>
      obtain rfl := Option.some.inj h
      exact .anyNumber (isSome_barePhrase_iff.mp hbare)
  · cases h

/-- **The request that is read is what the text asks for.** -/
theorem request?_eq_some_iff {r : Request} : request? s = some r ↔ Asks s r :=
  ⟨asks_of_request?, request?_of_asks⟩

/-- A text asks for one thing at most. -/
theorem Asks.unique {r r' : Request} (h : Asks s r) (h' : Asks s r') : r = r' :=
  Option.some.inj ((request?_of_asks h).symm.trans (request?_of_asks h'))

end Composer.Chance
