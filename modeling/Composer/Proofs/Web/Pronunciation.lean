import Composer.Web.Service
/-!
# Composer.Proofs.Web.Pronunciation

**The pronunciation of a word.** An entry of the dictionary can spell the pronunciation in several
places, and some of these texts are empty. Each entry speaks with its first text alone
(`SentEntry.pronunciation?_eq`): if that one is empty, the texts behind it are not looked at, and
the next entry is asked. So the pronunciation of a definition is the first of all texts that is not
empty unless an empty one stands before it in its own entry (`phonetic_entryOf`). Then it is that of
a later entry, or there is none.
-/

namespace Composer.Web

namespace SentEntry

/-- The texts for the pronunciation that an entry has, in the order in which they count. -/
def texts (e : SentEntry) : List String :=
  e.phonetic.toList ++ e.phonetics.filterMap id

/-- Whether one of the texts for the pronunciation is not empty. -/
def isSpoken (e : SentEntry) : Bool :=
  e.texts.any (· ≠ "")

variable {e : SentEntry}

/-- An entry speaks with its first text alone. -/
theorem pronunciation?_eq (e : SentEntry) :
    e.pronunciation? = e.texts.head?.filter (· ≠ "") := by
  rw [pronunciation?, texts, List.head?_append, List.head?_filterMap]
  cases e.phonetic <;> rfl

/-- If the first text is not empty, it is the first one that is not empty. -/
theorem pronunciation?_eq_find? (h : e.texts.head? ≠ some "") :
    e.pronunciation? = e.texts.find? (· ≠ "") := by
  rw [pronunciation?_eq]
  cases htexts : e.texts with
  | nil => rfl
  | cons t ts =>
      have ht : t ≠ "" := by
        intro hempty
        exact h (by rw [htexts, hempty]; rfl)
      simp [ht]

theorem pronunciation?_of_not_isSpoken (h : e.isSpoken = false) : e.pronunciation? = none := by
  rw [pronunciation?_eq]
  cases htexts : e.texts with
  | nil => rfl
  | cons t ts =>
      have ht : t = "" := by
        rw [isSpoken, htexts, List.any_cons, Bool.or_eq_false_iff] at h
        simpa using h.1
      rw [ht]
      rfl

theorem isSome_find?_texts : (e.texts.find? (· ≠ "")).isSome = e.isSpoken := by
  rw [List.isSome_find?]
  rfl

end SentEntry

variable {entries : List SentEntry} {word : String} {d : Entry}

/-- The first entry that has a text decides, if it does not begin with an empty one. -/
theorem findSome?_pronunciation?
    (h : ∀ e, entries.find? SentEntry.isSpoken = some e → e.texts.head? ≠ some "") :
    entries.findSome? SentEntry.pronunciation? =
      (entries.flatMap SentEntry.texts).find? (· ≠ "") := by
  induction entries with
  | nil => rfl
  | cons e entries ih =>
      rw [List.findSome?_cons, List.flatMap_cons, List.find?_append]
      cases hspoken : e.isSpoken with
      | true =>
          have hhead := h e (List.find?_cons_of_pos hspoken)
          obtain ⟨t, ht⟩ := Option.isSome_iff_exists.mp
            (SentEntry.isSome_find?_texts.trans hspoken)
          rw [SentEntry.pronunciation?_eq_find? hhead, ht]
          rfl
      | false =>
          have hnone : e.texts.find? (· ≠ "") = none := by
            rw [← Option.not_isSome_iff_eq_none, SentEntry.isSome_find?_texts, hspoken]
            exact Bool.false_ne_true
          rw [SentEntry.pronunciation?_of_not_isSpoken hspoken, hnone, Option.none_or]
          refine ih fun e' he' => h e' ?_
          rwa [List.find?_cons_of_neg (by simp [hspoken])]

theorem phonetic_eq_findSome? (h : entryOf entries word = .ok d) :
    d.phonetic = entries.findSome? SentEntry.pronunciation? := by
  simp only [entryOf] at h
  split at h
  · cases h
  · exact congrArg Entry.phonetic (Except.ok.inj h).symm

theorem findSome?_eq_find?_heads (entries : List SentEntry) :
    entries.findSome? SentEntry.pronunciation? =
      (entries.filterMap (·.texts.head?)).find? (· ≠ "") := by
  rw [← List.head?_filterMap, ← List.head?_filter, List.filter_filterMap,
    funext SentEntry.pronunciation?_eq]

/-- **The pronunciation of a definition** is the first text that is not empty among the first texts
of the entries. It is the first one among all texts of all entries if the entry that has it does not
begin with an empty text. It is never empty and comes from one of the entries, and there is none
only if each entry begins with an empty text or has no text. -/
theorem phonetic_entryOf (h : entryOf entries word = .ok d) :
    d.phonetic = (entries.filterMap (·.texts.head?)).find? (· ≠ "") ∧
    ((∀ e, entries.find? SentEntry.isSpoken = some e → e.texts.head? ≠ some "") →
      d.phonetic = (entries.flatMap SentEntry.texts).find? (· ≠ "")) ∧
    (∀ p ∈ d.phonetic, p ≠ "" ∧ ∃ e ∈ entries, p ∈ e.texts) ∧
    (d.phonetic = none ↔ ∀ e ∈ entries, ∀ t ∈ e.texts.head?, t = "") := by
  have hphonetic := phonetic_eq_findSome? h
  have hheads := hphonetic.trans (findSome?_eq_find?_heads entries)
  refine ⟨hheads, fun hfirst => hphonetic.trans (findSome?_pronunciation? hfirst), ?_, ?_⟩
  · intro p hp
    rw [hheads] at hp
    obtain ⟨e, he, hhead⟩ := List.mem_filterMap.mp (List.mem_of_find?_eq_some hp)
    exact ⟨by simpa using List.find?_some hp, e, he, List.mem_of_mem_head? hhead⟩
  · rw [hheads, List.find?_eq_none]
    constructor
    · intro hnone e he t ht
      simpa using hnone t (List.mem_filterMap.mpr ⟨e, he, ht⟩)
    · intro hempty t ht
      obtain ⟨e, he, hhead⟩ := List.mem_filterMap.mp ht
      simpa using hempty e he t hhead

/-- An absent text hides nothing: where the first entry has no text for the pronunciation, the second
one is asked, and its only text counts. -/
theorem phonetic_entryOf_second :
    let noun : SentEntry := ⟨none, [none], [⟨"noun", [⟨"a tune", none⟩]⟩]⟩
    let verb : SentEntry := ⟨none, [none, some "/ɛə/"], []⟩
    ∃ d, entryOf [noun, verb] "air" = .ok d ∧
      (∀ e, [noun, verb].find? SentEntry.isSpoken = some e → e.texts.head? ≠ some "") ∧
      d.phonetic = some "/ɛə/" := by
  intro noun verb
  have hfirst : [noun, verb].find? SentEntry.isSpoken = some verb := rfl
  have hhead : ∀ e, [noun, verb].find? SentEntry.isSpoken = some e →
      e.texts.head? ≠ some "" := by
    intro e he
    obtain rfl : verb = e := Option.some.inj (hfirst.symm.trans he)
    decide
  have hentry : entryOf [noun, verb] "air" = .ok ⟨some "/ɛə/", [⟨"noun", ["a tune"], none⟩]⟩ := rfl
  obtain ⟨-, hphonetic, -, -⟩ := phonetic_entryOf hentry
  exact ⟨_, hentry, hhead, hphonetic hhead⟩

/-- An empty text hides the text behind it. -/
theorem phonetic_entryOf_hidden :
    let e : SentEntry := ⟨some "", [some "/kæt/"], [⟨"noun", [⟨"a feline", none⟩]⟩]⟩
    e.texts.find? (· ≠ "") = some "/kæt/" ∧
      ∃ d, entryOf [e] "cat" = .ok d ∧ d.phonetic = none :=
  ⟨by decide, _, rfl, rfl⟩

end Composer.Web
