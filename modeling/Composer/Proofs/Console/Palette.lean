import Composer.Console.Overlay
import Composer.Proofs.Palette.Narrowing
import Composer.Proofs.Session.Selection
/-!
# Composer.Proofs.Console.Palette

**The palette as lines of text.** The lines are written in one pass over the commands. It knows no
groups: it puts a heading wherever the category is not that of the command before, and a mark where
the position is the selected one. That no heading comes twice follows from the order in which a
search lists the commands (`rowsAfter_flatten`), and that one command is marked follows from the
selection, which never leaves the list (`World.view_run_of_offers`). So the text shows the groups of
the search, each under its heading, with one mark in front of the selected command
(`render_palette`).
-/

namespace Composer.Console

/-- What a line of the palette shows. -/
inductive Row where
  /-- The heading of a category. -/
  | heading (k : Category)
  /-- A command, which may be marked. -/
  | command (marked : Bool) (c : Command)
deriving DecidableEq

namespace Row

/-- The line of a row. -/
def text : Row → String
  | heading k => k.label
  | command marked c => commandLine marked c

/-- The category of a heading. -/
def category? : Row → Option Category
  | heading k => some k
  | command _ _ => none

/-- The command of a row. -/
def command? : Row → Option Command
  | heading _ => none
  | command _ c => some c

/-- Whether a row is marked. -/
def isMarked : Row → Bool
  | heading _ => false
  | command marked _ => marked

@[simp] theorem category?_heading (k : Category) : (heading k).category? = some k := rfl
@[simp] theorem category?_command (marked : Bool) (c : Command) :
    (command marked c).category? = none := rfl

@[simp] theorem command?_heading (k : Category) : (heading k).command? = none := rfl
@[simp] theorem command?_command (marked : Bool) (c : Command) :
    (command marked c).command? = some c := rfl

@[simp] theorem isMarked_heading (k : Category) : (heading k).isMarked = false := rfl
@[simp] theorem isMarked_command (marked : Bool) (c : Command) :
    (command marked c).isMarked = marked := rfl

end Row

/-- The rows of a group: its heading, and its commands under it. -/
def groupRows (selected : Command) (g : Group) : List Row :=
  .heading g.category :: g.commands.map fun c => .command (c = selected) c

/-- The rows of commands that come after one of the category `last`. -/
def rowsAfter (selected : Command) (last : Option Category) : List Command → List Row
  | [] => []
  | c :: cs =>
    (if last = some c.category then [] else [.heading c.category]) ++
      .command (c = selected) c :: rowsAfter selected (some c.category) cs

variable {selected c : Command} {last : Option Category} {cs : List Command} {gs : List Group}

/-! ### The pass over the commands -/

/-- The lines are those of the rows, if the selected position is that of the selected command. -/
theorem commandLines_eq {place position : Nat}
    (h : ∀ i (hi : i < cs.length), position + i = place ↔ cs[i] = selected) :
    commandLines place position last cs = (rowsAfter selected last cs).map Row.text := by
  induction cs generalizing position last with
  | nil => rfl
  | cons c cs ih =>
      have hmark : decide (position = place) = decide (c = selected) :=
        decide_eq_decide.mpr (h 0 (Nat.zero_lt_succ _))
      have hrest : commandLines place (position + 1) (some c.category) cs =
          (rowsAfter selected (some c.category) cs).map Row.text := by
        refine ih fun i hi => ?_
        have hsucc := h (i + 1) (Nat.succ_lt_succ hi)
        rwa [List.getElem_cons_succ, ← Nat.add_assoc, Nat.add_right_comm] at hsucc
      rw [commandLines, rowsAfter, hmark, hrest, List.map_append, List.map_cons]
      split <;> rfl

/-- Every command has a row. -/
theorem filterMap_command?_rowsAfter (selected : Command) (last : Option Category)
    (cs : List Command) : (rowsAfter selected last cs).filterMap Row.command? = cs := by
  induction cs generalizing last with
  | nil => rfl
  | cons c cs ih =>
      rw [rowsAfter, List.filterMap_append, List.filterMap_cons, Row.command?_command, ih]
      split <;> rfl

/-- The rows of the selected command are marked, and no others. -/
theorem filter_isMarked_rowsAfter (selected : Command) (last : Option Category)
    (cs : List Command) :
    (rowsAfter selected last cs).filter Row.isMarked =
      List.replicate (cs.count selected) (.command true selected) := by
  induction cs generalizing last with
  | nil => rfl
  | cons c cs ih =>
      have hheading : (if last = some c.category then []
          else [Row.heading c.category]).filter Row.isMarked = [] := by
        split <;> rfl
      rw [rowsAfter, List.filter_append, hheading, List.nil_append, List.filter_cons,
        Row.isMarked_command, ih, List.count_cons]
      by_cases hc : c = selected
      · simp [hc, List.replicate_succ]
      · simp [hc]

/-- A command whose category has not come before is under its heading. -/
theorem rowsAfter_eq_of_not_mem {before after : List Command}
    (hlast : last ≠ some c.category) (hbefore : c.category ∉ before.map (·.category)) :
    ∃ front back, rowsAfter selected last (before ++ c :: after) =
        front ++ .heading c.category :: .command (c = selected) c :: back ∧
      front.filterMap Row.command? = before := by
  induction before generalizing last with
  | nil =>
      refine ⟨[], rowsAfter selected (some c.category) after, ?_, rfl⟩
      rw [List.nil_append, rowsAfter, if_neg hlast]
      rfl
  | cons d before ih =>
      rw [List.map_cons, List.mem_cons, not_or] at hbefore
      have hother : some d.category ≠ some c.category :=
        fun h => hbefore.1 (Option.some.inj h).symm
      obtain ⟨front, back, hrows, hfront⟩ := ih hother hbefore.2
      refine ⟨(if last = some d.category then [] else [.heading d.category]) ++
        .command (d = selected) d :: front, back, ?_, ?_⟩
      · rw [List.cons_append, rowsAfter, hrows]
        simp
      · rw [List.filterMap_append, List.filterMap_cons, Row.command?_command, hfront]
        split <;> rfl

/-! ### The groups -/

/-- Commands of the category that came last need no heading. -/
theorem rowsAfter_append {k : Category} (h : ∀ c ∈ cs, c.category = k) (rest : List Command) :
    rowsAfter selected (some k) (cs ++ rest) =
      cs.map (fun c => .command (c = selected) c) ++ rowsAfter selected (some k) rest := by
  induction cs with
  | nil => rfl
  | cons c cs ih =>
      obtain ⟨hc, hcs⟩ := List.forall_mem_cons.mp h
      rw [List.cons_append, rowsAfter, hc, if_pos rfl, ih hcs]
      rfl

/-- **Commands in groups get one heading for each group.** -/
theorem rowsAfter_flatten (hne : ∀ g ∈ gs, g.commands ≠ [])
    (hcategory : ∀ g ∈ gs, ∀ c ∈ g.commands, c.category = g.category)
    (hnodup : (gs.map (·.category)).Nodup) (hlast : ∀ g ∈ gs, last ≠ some g.category) :
    rowsAfter selected last (Group.flatten gs) = gs.flatMap (groupRows selected) := by
  induction gs generalizing last with
  | nil => rfl
  | cons g gs ih =>
      obtain ⟨hg, hgs⟩ := List.forall_mem_cons.mp hcategory
      obtain ⟨hnew, hnodup⟩ := List.nodup_cons.mp hnodup
      have hrest : rowsAfter selected (some g.category) (Group.flatten gs) =
          gs.flatMap (groupRows selected) := by
        refine ih (fun g' hg' => hne g' (List.mem_cons_of_mem _ hg')) hgs hnodup ?_
        intro g' hg' hsame
        exact hnew (List.mem_map.mpr ⟨g', hg', (Option.some.inj hsame).symm⟩)
      have hfirst : last ≠ some g.category := hlast g List.mem_cons_self
      rw [Group.flatten_cons, List.flatMap_cons, ← hrest, groupRows]
      cases hcommands : g.commands with
      | nil => exact absurd hcommands (hne g List.mem_cons_self)
      | cons c cs =>
          rw [hcommands] at hg
          obtain ⟨hc, hcs⟩ := List.forall_mem_cons.mp hg
          rw [List.cons_append, rowsAfter, hc, if_neg hfirst, rowsAfter_append hcs]
          rfl

theorem filterMap_category?_groupRows (selected : Command) (gs : List Group) :
    (gs.flatMap (groupRows selected)).filterMap Row.category? = gs.map (·.category) := by
  induction gs with
  | nil => rfl
  | cons g gs ih =>
      have hcommands : (g.commands.map fun c => Row.command (c = selected) c).filterMap
          Row.category? = [] := by
        simp [List.filterMap_map, Function.comp_def]
      rw [List.flatMap_cons, List.filterMap_append, ih, groupRows, List.filterMap_cons,
        Row.category?_heading, hcommands]
      rfl

/-! ### The text -/

theorem newline_not_mem_label (k : Category) : '\n' ∉ k.label.toList := by
  cases k <;> decide

theorem newline_not_mem_searchTexts :
    ∀ c ∈ commands, ∀ text ∈ c.searchTexts, '\n' ∉ text.toList := by
  decide +kernel

theorem newline_not_mem_commandLine (marked : Bool) (hc : c ∈ commands) :
    '\n' ∉ (commandLine marked c).toList := by
  have htexts := newline_not_mem_searchTexts c hc
  have hname : '\n' ∉ c.name.toList := htexts c.name (by simp [Command.searchTexts])
  have hdescription : '\n' ∉ c.description.toList :=
    htexts c.description (by simp [Command.searchTexts])
  cases marked <;> simp [commandLine, padEnd, hname, hdescription]

/-- A mark is the second character of a line. -/
theorem Row.text_marked_iff {r : Row} : r.text.toList[1]? = some '>' ↔ r.isMarked = true := by
  cases r with
  | heading k => cases k <;> decide
  | command marked c => cases marked <;> simp [text, commandLine, String.toList_append]

theorem filter_marked_text (rows : List Row) :
    (rows.map (·.text.toList)).filter (fun l => l[1]? = some '>') =
      (rows.filter Row.isMarked).map (·.text.toList) := by
  rw [List.filter_map]
  congr 1
  refine List.filter_congr fun r _ => ?_
  rw [Bool.eq_iff_iff, ← Row.text_marked_iff]
  exact decide_eq_true_iff

/-- Lines that are put together into a text are its lines. -/
theorem splitOn_join {lines : List String} (h : ∀ l ∈ lines, '\n' ∉ l.toList) :
    (String.join (lines.map (· ++ "\n"))).toList.splitOn '\n' =
      lines.map String.toList ++ [[]] := by
  induction lines with
  | nil => rfl
  | cons l lines ih =>
      obtain ⟨hl, hlines⟩ := List.forall_mem_cons.mp h
      have hjoin : (String.join ((l :: lines).map (· ++ "\n"))).toList =
          l.toList ++ '\n' :: (String.join (lines.map (· ++ "\n"))).toList := by
        simp [String.toList_join]
      have hline : ∀ d ∈ l.toList, (d == '\n') = false := by
        intro d hd
        exact beq_false_of_ne fun h => hl (h ▸ hd)
      rw [hjoin, List.splitOn, List.splitOnP_append_cons_of_forall_mem hline '\n' rfl]
      exact congrArg (l.toList :: ·) (ih hlines)

/-- The rows of the palette are lines of their own. -/
theorem newline_not_mem_text {rows : List Row} (h : ∀ r ∈ rows, ∀ c ∈ r.command?, c ∈ commands) :
    ∀ l ∈ rows.map Row.text, '\n' ∉ l.toList := by
  intro l hl
  obtain ⟨r, hr, rfl⟩ := List.mem_map.mp hl
  cases r with
  | heading k => exact newline_not_mem_label k
  | command marked c => exact newline_not_mem_commandLine marked (h _ hr c rfl)

/-! ### The palette -/

/-- The pass over the commands that a search finds comes to the groups of the search. -/
theorem rowsAfter_foundCommands (selected : Command) (query : List Char) :
    rowsAfter selected none (foundCommands query) =
      (searchCommands query).flatMap (groupRows selected) := by
  have hpartition := partition_searchCommands query
  refine rowsAfter_flatten (fun g hg => hpartition.commands_ne_nil hg) ?_ hpartition.nodup
    fun g _ => (Option.some_ne_none g.category).symm
  intro g hg c hc
  rw [hpartition.commands_eq g hg, List.mem_filter] at hc
  exact of_decide_eq_true hc.2

theorem nodup_foundCommands (query : List Char) : (foundCommands query).Nodup := by
  rw [foundCommands_eq]
  exact nodup_commands.filter _

theorem foundCommands_subset (query : List Char) : foundCommands query ⊆ commands := by
  rw [foundCommands_eq]
  exact List.filter_subset_self _

/-- The lines of a palette that has commands. -/
theorem viewLines_eq {v : View} (hoffers : v.Offers) (hnodup : v.commands.Nodup)
    (hselected : v.commands[v.selected]? = some selected) :
    viewLines v = (rowsAfter selected none v.commands).map Row.text := by
  have hne : v.commands.isEmpty = false := List.isEmpty_eq_false_iff.mpr hoffers.commands_ne_nil
  obtain ⟨hlt, hget⟩ := List.getElem?_eq_some_iff.mp hselected
  rw [viewLines, hoffers.mode_eq]
  show paletteLines v = _
  rw [paletteLines, hne]
  refine commandLines_eq fun i hi => ?_
  rw [Nat.zero_add, ← hget]
  exact hnodup.getElem_inj_iff.symm

/-- The text of a palette that has commands. -/
theorem splitOn_render {v : View} {query : List Char} (hoffers : v.Offers)
    (hcommands : v.commands = foundCommands query)
    (hselected : v.commands[v.selected]? = some selected) :
    (render v).toList.splitOn '\n' =
      ((searchCommands query).flatMap (groupRows selected)).map (·.text.toList) ++ [[]] := by
  have hnodup : v.commands.Nodup := hcommands ▸ nodup_foundCommands query
  have hown : ∀ r ∈ rowsAfter selected none v.commands, ∀ c ∈ r.command?, c ∈ commands := by
    intro r hr c hc
    refine foundCommands_subset query ?_
    rw [← hcommands, ← filterMap_command?_rowsAfter selected none v.commands]
    exact List.mem_filterMap.mpr ⟨r, hr, hc⟩
  have hlines := splitOn_join (newline_not_mem_text hown)
  rw [← viewLines_eq hoffers hnodup hselected] at hlines
  rw [render, hlines, viewLines_eq hoffers hnodup hselected, hcommands, rowsAfter_foundCommands,
    List.map_map]
  rfl

/-- **The palette shows the groups of the search with one mark.** Whatever selects in a palette that
has commands, one of them is selected, and the text has the groups of the search, one after the
other. So there is one line for each command, in the order of the list, and the line of the selected
one alone is marked. Each category that occurs has one heading, which stands immediately before the
first of its commands. -/
theorem render_palette {w : World} {query : List Char} {moves : List Move}
    (hview : w.session.view = .ofQuery query) (hfound : foundCommands query ≠ [])
    (hmoves : ∀ m ∈ moves, m.keepsPalette = true) :
    let v := (w.run moves).session.view
    let lines := (render v).toList.splitOn '\n'
    v.commands = foundCommands query ∧
    ∃ c, v.selectedCommand? = some c ∧
    ∃ rows, rows = (searchCommands query).flatMap (groupRows c) ∧
      lines = rows.map (·.text.toList) ++ [[]] ∧
      rows.filterMap Row.command? = v.commands ∧
      rows.filter Row.isMarked = [.command true c] ∧
      lines.filter (fun l => l[1]? = some '>') = [(commandLine true c).toList] ∧
      (rows.filterMap Row.category?).Nodup ∧
      (∀ k, k ∈ rows.filterMap Row.category? ↔ k ∈ v.commands.map (·.category)) ∧
      ∀ before d after, v.commands = before ++ d :: after →
        d.category ∉ before.map (·.category) →
        ∃ front back, rows = front ++ .heading d.category :: .command (d = c) d :: back ∧
          front.filterMap Row.command? = before := by
  have hopened : w.session.view.Offers := by
    rw [hview]
    exact ⟨rfl, rfl, List.length_pos_iff.mpr hfound⟩
  intro v lines
  have hcommands : v.commands = foundCommands query := by
    show (w.run moves).session.view.commands = _
    rw [World.view_run_of_offers hopened hmoves, hview]
    rfl
  have hoffers : v.Offers := World.offers_run hopened hmoves
  obtain ⟨c, hc⟩ : ∃ c, v.commands[v.selected]? = some c :=
    ⟨_, List.getElem?_eq_getElem hoffers.selected_lt⟩
  have hlines := splitOn_render hoffers hcommands hc
  have hrows := rowsAfter_foundCommands c query
  have hmarked : ((searchCommands query).flatMap (groupRows c)).filter Row.isMarked =
      [.command true c] := by
    rw [hcommands] at hc
    rw [← hrows, filter_isMarked_rowsAfter,
      List.count_eq_one_of_mem (nodup_foundCommands query) (List.mem_of_getElem? hc)]
    rfl
  rw [hcommands]
  refine ⟨rfl, c, ?_, _, rfl, hlines, ?_, hmarked, ?_, ?_, ?_, ?_⟩
  · rw [View.selectedCommand?, if_pos hoffers.mode_eq, hc]
  · rw [← hrows]
    exact filterMap_command?_rowsAfter c none (foundCommands query)
  · show ((render v).toList.splitOn '\n').filter _ = _
    rw [hlines, List.filter_append, filter_marked_text, hmarked]
    rfl
  · rw [filterMap_category?_groupRows]
    exact (partition_searchCommands query).nodup
  · rw [filterMap_category?_groupRows]
    exact (partition_searchCommands query).mem_iff
  · intro before d after hsplit hfirst
    rw [← hrows, hsplit]
    exact rowsAfter_eq_of_not_mem (Option.some_ne_none _).symm hfirst

/-- The step up from the first command of a search over several categories marks the last one. -/
theorem render_palette_last :
    let e : Surroundings := ⟨.default, 0, 0, true, true⟩
    let w := World.initial.run [.perform e (.analyze "/co")]
    let v := (w.run [.perform e .selectUp]).session.view
    w.session.view = .ofQuery "co".toList ∧ foundCommands "co".toList ≠ [] ∧
      v.commands = foundCommands "co".toList ∧
      ∃ c, v.selectedCommand? = some c ∧
        ((render v).toList.splitOn '\n').filter (fun l => l[1]? = some '>') =
          [(commandLine true c).toList] := by
  intro e w v
  have hview : w.session.view = .ofQuery "co".toList := by rfl
  have hfound : foundCommands "co".toList ≠ [] := by decide +kernel
  have hmoves : ∀ m ∈ [Move.perform e .selectUp], m.keepsPalette = true := by decide
  obtain ⟨hcommands, c, hc, -, -, -, -, -, hmarked, -⟩ := render_palette hview hfound hmoves
  exact ⟨hview, hfound, hcommands, c, hc, hmarked⟩

end Composer.Console
