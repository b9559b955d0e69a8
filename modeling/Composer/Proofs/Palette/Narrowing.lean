import Composer.Proofs.Palette.Search
import Composer.Proofs.Text.Lowercase
import Composer.Proofs.Text.Trim
import Composer.Session.View
/-!
# Composer.Proofs.Palette.Narrowing

**Typing on only leaves commands out.** What a query looks for need not begin with what its
beginning looks for: blanks at the end go, and a sigma is put into another lower case when a letter
comes behind it. But the texts of the palette are plain, so a query with a sigma finds nothing, and
without one both trimming and lower case keep beginnings (`Text.trim_isPrefix_append`,
`Text.lower_isPrefix`). So whatever a longer query finds, its beginning has found before
(`searchCommands_append`), and the palette that a text has opened only loses commands while the text
goes on (`View.commands_ofText_append`).
-/

namespace Composer

/-- The texts in which a query is looked for are plain. -/
theorem isPlain_lower_searchText : ∀ c ∈ commands, ∀ text ∈ c.searchTexts,
    (Text.lower text.toList).all Text.isPlain = true := by
  decide +kernel

/-- The beginning of a query that a command matches is matched too. -/
theorem Command.Matches.of_append {query more : List Char} {c : Command} (hc : c ∈ commands)
    (h : c.Matches (query ++ more)) : c.Matches query := by
  obtain ⟨text, htext, hcontains⟩ := h
  have hplain : ∀ d ∈ Text.lower (Text.trim (query ++ more)), Text.isPlain d = true := by
    intro d hd
    have htexts := isPlain_lower_searchText c hc text htext
    exact List.all_eq_true.mp htexts d (hcontains.subset hd)
  have hprefix := Text.lower_isPrefix hplain (Text.trim_isPrefix_append query more)
  exact ⟨text, htext, hprefix.isInfix.trans hcontains⟩

/-! ### What is found -/

theorem foundCommands_eq (query : List Char) :
    foundCommands query = commands.filter (·.Matches query) := by
  rw [foundCommands, searchCommands_eq]
  exact Group.flatten_ofCommands (inOrder_commands.filter _)

theorem partition_searchCommands (query : List Char) :
    Group.Partition (foundCommands query) (searchCommands query) := by
  rw [foundCommands_eq, searchCommands_eq]
  exact Group.partition_ofCommands _

/-- The longer query can be searched for among the commands that its beginning finds. -/
theorem foundCommands_append (query more : List Char) :
    foundCommands (query ++ more) = (foundCommands query).filter (·.Matches (query ++ more)) := by
  rw [foundCommands_eq, foundCommands_eq, List.filter_filter]
  refine List.filter_congr fun c hc => ?_
  by_cases h : c.Matches (query ++ more)
  · simp [h, h.of_append hc]
  · simp [h]

theorem foundCommands_append_sublist (query more : List Char) :
    (foundCommands (query ++ more)).Sublist (foundCommands query) := by
  rw [foundCommands_append]
  exact List.filter_sublist

/-- **Typing on only leaves commands out.** Whatever is added to a query, blanks or characters of
any script, the commands that are found were all found before, and they keep their order. A group of
them comes from the group of the same category. -/
theorem searchCommands_append (query more : List Char) :
    (foundCommands (query ++ more)).Sublist (foundCommands query) ∧
      ∀ g ∈ searchCommands (query ++ more), ∃ g' ∈ searchCommands query,
        g'.category = g.category ∧ g.commands.Sublist g'.commands := by
  have hsublist := foundCommands_append_sublist query more
  have hlonger := partition_searchCommands (query ++ more)
  have hshorter := partition_searchCommands query
  refine ⟨hsublist, fun g hg => ?_⟩
  have hcategory : g.category ∈ (foundCommands query).map (·.category) :=
    (hsublist.map _).subset ((hlonger.mem_iff _).mp (List.mem_map_of_mem hg))
  obtain ⟨g', hg', hsame⟩ := List.mem_map.mp ((hshorter.mem_iff _).mpr hcategory)
  refine ⟨g', hg', hsame, ?_⟩
  rw [hlonger.commands_eq g hg, hshorter.commands_eq g' hg', hsame]
  exact hsublist.filter _

/-! ### What is shown -/

/-- The blanks around a query make no difference. -/
theorem foundCommands_trim (query : List Char) :
    foundCommands (Text.trim query) = foundCommands query := by
  rw [foundCommands, foundCommands, searchCommands, searchCommands, needleOf, needleOf,
    Text.trim_trim]

namespace View

/-- The palette that a text opens. -/
theorem ofText_eq_commands {v : View} {text : List Char} {trigger : Char} {ctx : Context}
    (h : (ofText v text trigger ctx).mode = .commands) :
    ∃ query, text = trigger :: query ∧ v.active.filter (·.focused) = none := by
  unfold ofText at h
  split at h
  · cases h
  · next hactive =>
      split at h
      · cases h
      · next c rest =>
          split at h
          · next htrigger => exact ⟨rest, by rw [htrigger], hactive⟩
          · split at h
            · cases h
            · cases h

/-- While a text goes on, the palette that it has opened stays open and only loses commands. -/
theorem commands_ofText_append {v : View} {text : List Char} {trigger : Char} {ctx : Context}
    (h : (ofText v (Text.trim text) trigger ctx).mode = .commands) (more : List Char)
    (later : Context) :
    (ofText v (Text.trim (text ++ more)) trigger later).mode = .commands ∧
      (ofText v (Text.trim (text ++ more)) trigger later).commands.Sublist
        (ofText v (Text.trim text) trigger ctx).commands := by
  obtain ⟨query, hquery, hactive⟩ := ofText_eq_commands h
  obtain ⟨added, hadded⟩ := Text.trim_isPrefix_append text more
  have hshown (query : List Char) (ctx : Context) :
      ofText v (trigger :: query) trigger ctx = ofQuery (Text.trim query) := by
    simp [ofText, hactive]
  rw [← hadded, hquery, List.cons_append, hshown, hshown]
  refine ⟨rfl, ?_⟩
  show (foundCommands (Text.trim (query ++ added))).Sublist (foundCommands (Text.trim query))
  rw [foundCommands_trim, foundCommands_trim]
  exact foundCommands_append_sublist query added

end View

end Composer
