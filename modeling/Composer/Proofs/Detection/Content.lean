import Composer.Proofs.Lexicon.Question
import Composer.Proofs.Prose.Marker
/-!
# Composer.Proofs.Detection.Content

**What a text typed into a tool is about.** The tools that count words and look them up take the
whole text for their subject, but they try the phrases first by which they are found among all
tools. So a text that could be such a phrase is never the subject itself.
-/

namespace Composer.Detection

open Text

/-- **The text is the subject unless it is a phrase.** The whole text is counted, unless it begins
with a marker: then it is the text behind the marker, and the count is another one. A headword is
looked up, unless it asks about a word: then it is that word, and it is another one. -/
theorem focused_content {text : List Char} (h : ¬ ∀ c ∈ text, isBlank c = true) :
    ((∀ body, Prose.Marked (trim text) body →
        Prose.detectFocused text = some (Prose.count body) ∧ Prose.count body ≠ Prose.count text) ∧
      ((∀ body, ¬ Prose.Marked (trim text) body) →
        Prose.detectFocused text = some (Prose.count text))) ∧
    ∀ w, Lexicon.headword? text = some w →
      (∀ asked, Lexicon.Asks (trim text) asked →
        ∃ v, Lexicon.headword? asked = some v ∧ v ≠ w ∧
          Lexicon.detectFocused text = some (.ofWord v)) ∧
      ((∀ asked, ¬ Lexicon.Asks (trim text) asked) →
        Lexicon.detectFocused text = some (.ofWord w)) := by
  refine ⟨⟨fun body hmarked => Prose.detectFocused_of_marked hmarked,
    fun hplain => Prose.detectFocused_of_not_marked h hplain⟩, fun w hw => ⟨fun asked hasks => ?_,
    fun hplain => ?_⟩⟩
  · exact Lexicon.detectFocused_of_asks h hw hasks
  · exact Lexicon.detectFocused_of_not_asks h hw hplain

/-- A marked text and a headword that asks. -/
theorem focused_content_phrases :
    (Prose.detectFocused "wc hello".toList = some (Prose.count "hello".toList) ∧
      Prose.count "hello".toList ≠ Prose.count "wc hello".toList) ∧
    ∃ v, Lexicon.headword? "cat".toList = some v ∧ v ≠ "define cat" ∧
      Lexicon.detectFocused "define cat".toList = some (.ofWord v) := by
  have hmarked : Prose.Marked (trim "wc hello".toList) "hello".toList :=
    @Prose.Marked.blank "wc".toList [' '] "ello".toList 'h' (.wc (by decide)) isGap_space rfl
      (by decide)
  have hasks : Lexicon.Asks (trim "define cat".toList) "cat".toList :=
    @Lexicon.Asks.about "define".toList [' '] "cat".toList ⟨"define", by decide, by decide⟩
      isGap_space (by decide) (by decide)
  obtain ⟨⟨hcount, -⟩, -⟩ :=
    @focused_content "wc hello".toList (allBlank_eq_false_iff.mp (by decide))
  obtain ⟨-, hword⟩ := @focused_content "define cat".toList (allBlank_eq_false_iff.mp (by decide))
  exact ⟨hcount _ hmarked, (hword "define cat" (by decide)).1 _ hasks⟩

end Composer.Detection
