import Composer.Palette.Search
import Mathlib.Data.List.Infix
import Mathlib.Data.List.Nodup
/-!
# Composer.Proofs.Palette.Search

**A search only leaves commands out.** The commands that a query finds are put into groups one after
the other, each into the group of its category. Whatever the commands are, that splits them by
category and keeps their order inside each group (`Group.Partition`). The groups stand in the order
in which their first commands came, so one group after the other gives back the whole list only if
the commands of a category came side by side. The palette lists them so, and leaving some of them
out does not change that (`searchCommands_partition`).
-/

namespace Composer

/-! ### What a query finds -/

theorem Text.contains_iff {part s : List Char} : Text.contains part s = true ↔ part <:+: s := by
  induction s with
  | nil => simp [Text.contains]
  | cons c s ih =>
      rw [Text.contains, Bool.or_eq_true, List.isPrefixOf_iff_prefix, ih, List.infix_cons_iff]

namespace Command

/-- One of the texts of a command has the query in it, but for the blanks around the query and for
the case of letters. -/
def Matches (query : List Char) (c : Command) : Prop :=
  ∃ text ∈ [c.name, c.description, c.category.label],
    Text.lower (Text.trim query) <:+: Text.lower text.toList

instance (query : List Char) (c : Command) : Decidable (c.Matches query) :=
  inferInstanceAs (Decidable (∃ text ∈ [c.name, c.description, c.category.label],
    Text.lower (Text.trim query) <:+: Text.lower text.toList))

theorem contains_needleOf_iff {query : List Char} {c : Command} :
    c.contains (needleOf query) = true ↔ c.Matches query := by
  rw [contains, List.any_eq_true]
  simp only [Text.contains_iff]
  rfl

end Command

/-! ### Splitting by category -/

namespace Group

variable {cs : List Command} {gs : List Group} {c : Command}

/-- The groups split a list of commands by category: every category that occurs has one group, which
holds the commands of that category as they came. -/
structure Partition (cs : List Command) (gs : List Group) : Prop where
  /-- No category has two groups. -/
  nodup : (gs.map (·.category)).Nodup
  /-- The categories of the groups are those that occur. -/
  mem_iff : ∀ k, k ∈ gs.map (·.category) ↔ k ∈ cs.map (·.category)
  /-- Each group has the commands of its category in their order. -/
  commands_eq : ∀ g ∈ gs, g.commands = cs.filter (·.category = g.category)

theorem filter_concat_of_eq {k : Category} (h : c.category = k) :
    (cs ++ [c]).filter (·.category = k) = cs.filter (·.category = k) ++ [c] := by
  simp [List.filter_append, h]

theorem filter_concat_of_ne {k : Category} (h : c.category ≠ k) :
    (cs ++ [c]).filter (·.category = k) = cs.filter (·.category = k) := by
  simp [List.filter_append, h]

/-- A category that was not there before comes last. -/
theorem map_category_insert (c : Command) (gs : List Group) :
    (insert c gs).map (·.category) =
      if c.category ∈ gs.map (·.category) then gs.map (·.category)
      else gs.map (·.category) ++ [c.category] := by
  induction gs with
  | nil => simp [insert]
  | cons g gs ih =>
      rw [insert]
      by_cases hg : g.category = c.category
      · simp [hg]
      · have hne : c.category ≠ g.category := fun h => hg h.symm
        rw [if_neg hg, List.map_cons, List.map_cons, ih]
        simp only [List.mem_cons, hne, false_or]
        split <;> rfl

theorem mem_map_category_insert {k : Category} :
    k ∈ (insert c gs).map (·.category) ↔ k ∈ gs.map (·.category) ∨ k = c.category := by
  rw [map_category_insert]
  split
  · next hmem =>
      constructor
      · exact Or.inl
      · rintro (hk | rfl)
        · exact hk
        · exact hmem
  · rw [List.mem_append, List.mem_singleton]

/-- The command comes behind those of its category, and the other groups stay as they are. -/
theorem commands_insert (hnodup : (gs.map (·.category)).Nodup)
    (hcommands : ∀ g ∈ gs, g.commands = cs.filter (·.category = g.category))
    (hnew : c.category ∉ gs.map (·.category) → cs.filter (·.category = c.category) = []) :
    ∀ g ∈ insert c gs, g.commands = (cs ++ [c]).filter (·.category = g.category) := by
  induction gs with
  | nil =>
      intro g hg
      obtain rfl : g = ⟨c.category, [c]⟩ := by simpa [insert] using hg
      rw [filter_concat_of_eq rfl, hnew (by simp)]
      rfl
  | cons g gs ih =>
      rw [List.map_cons, List.nodup_cons] at hnodup
      obtain ⟨hfirst, hrest⟩ := List.forall_mem_cons.mp hcommands
      rw [insert]
      by_cases hg : g.category = c.category
      · rw [if_pos hg]
        refine List.forall_mem_cons.mpr ⟨?_, ?_⟩
        · rw [hfirst]
          exact (filter_concat_of_eq hg.symm).symm
        · intro g' hg'
          have hne : c.category ≠ g'.category := by
            intro h
            exact hnodup.1 (List.mem_map.mpr ⟨g', hg', h.symm.trans hg.symm⟩)
          rw [filter_concat_of_ne hne]
          exact hrest g' hg'
      · rw [if_neg hg]
        refine List.forall_mem_cons.mpr ⟨?_, ih hnodup.2 hrest ?_⟩
        · rw [filter_concat_of_ne (fun h => hg h.symm)]
          exact hfirst
        · intro hmem
          refine hnew ?_
          rw [List.map_cons, List.mem_cons, not_or]
          exact ⟨fun h => hg h.symm, hmem⟩

/-- One more command is put into the group of its category. -/
theorem Partition.insert (h : Partition cs gs) (c : Command) :
    Partition (cs ++ [c]) (insert c gs) where
  nodup := by
    rw [map_category_insert]
    split
    · exact h.nodup
    · next hnew =>
        refine h.nodup.append (List.nodup_singleton _) ?_
        rw [List.disjoint_singleton]
        exact hnew
  mem_iff := by
    intro k
    rw [mem_map_category_insert, h.mem_iff, List.map_append, List.mem_append]
    simp
  commands_eq := by
    refine commands_insert h.nodup h.commands_eq fun hnew => ?_
    rw [h.mem_iff] at hnew
    rw [List.filter_eq_nil_iff]
    intro d hd hcategory
    exact hnew (List.mem_map.mpr ⟨d, hd, of_decide_eq_true hcategory⟩)

theorem ofCommands_concat (cs : List Command) (c : Command) :
    ofCommands (cs ++ [c]) = insert c (ofCommands cs) := by
  rw [ofCommands, List.foldl_append]
  rfl

/-- **Grouping loses no command and keeps their order.** -/
theorem partition_ofCommands (cs : List Command) : Partition cs (ofCommands cs) := by
  induction cs using List.reverseRecOn with
  | nil => exact ⟨List.nodup_nil, fun _ => Iff.rfl, List.forall_mem_nil _⟩
  | append_singleton cs c ih =>
      rw [ofCommands_concat]
      exact ih.insert c

theorem Partition.commands_ne_nil (h : Partition cs gs) {g : Group} (hg : g ∈ gs) :
    g.commands ≠ [] := by
  obtain ⟨c, hc, hcategory⟩ := List.mem_map.mp ((h.mem_iff _).mp (List.mem_map_of_mem hg))
  rw [h.commands_eq g hg]
  exact List.ne_nil_of_mem (List.mem_filter.mpr ⟨hc, decide_eq_true hcategory⟩)

end Group

/-! ### The order of the palette -/

/-- Where a category stands in the palette. -/
def Category.place (k : Category) : Nat :=
  Category.all.idxOf k

theorem Category.place_inj {k l : Category} (h : k.place = l.place) : k = l := by
  revert h
  cases k <;> cases l <;> decide

namespace Group

variable {cs : List Command} {gs : List Group} {c : Command}

/-- The commands of a category stand side by side, and the categories in the order of the palette. -/
def InOrder (cs : List Command) : Prop :=
  cs.Pairwise fun c d => c.category.place ≤ d.category.place

/-- A command that comes last is put at the end. -/
theorem insert_of_le (hgs : gs.Pairwise fun g g' => g.category.place < g'.category.place)
    (hle : ∀ g ∈ gs, g.category.place ≤ c.category.place) :
    flatten (insert c gs) = flatten gs ++ [c] ∧
      (insert c gs).Pairwise fun g g' => g.category.place < g'.category.place := by
  induction gs with
  | nil => exact ⟨rfl, List.pairwise_singleton _ _⟩
  | cons g gs ih =>
      obtain ⟨hfirst, hrest⟩ := List.pairwise_cons.mp hgs
      obtain ⟨hg, hle⟩ := List.forall_mem_cons.mp hle
      rw [insert]
      by_cases heq : g.category = c.category
      · -- The category is the last one so far, so no group stands behind it.
        have hnil : gs = [] := by
          rw [List.eq_nil_iff_forall_not_mem]
          intro g' hg'
          have hlt := hfirst g' hg'
          have hlast := hle g' hg'
          rw [heq] at hlt
          omega
        rw [if_pos heq, hnil]
        exact ⟨by simp, List.pairwise_singleton _ _⟩
      · obtain ⟨hflatten, hpairwise⟩ := ih hrest hle
        have hlt : g.category.place < c.category.place :=
          Nat.lt_of_le_of_ne hg fun h => heq (Category.place_inj h)
        rw [if_neg heq]
        refine ⟨by rw [flatten_cons, hflatten, flatten_cons, List.append_assoc], ?_⟩
        refine List.pairwise_cons.mpr ⟨fun g' hg' => ?_, hpairwise⟩
        rcases mem_map_category_insert.mp (List.mem_map_of_mem hg') with hmem | hlast
        · obtain ⟨g'', hg'', hcategory⟩ := List.mem_map.mp hmem
          rw [← hcategory]
          exact hfirst g'' hg''
        · rw [hlast]
          exact hlt

/-- **Groups of commands in order give back the list.** -/
theorem flatten_ofCommands (h : InOrder cs) : flatten (ofCommands cs) = cs := by
  have hboth : flatten (ofCommands cs) = cs ∧
      (ofCommands cs).Pairwise fun g g' => g.category.place < g'.category.place := by
    induction cs using List.reverseRecOn with
    | nil => exact ⟨rfl, List.Pairwise.nil⟩
    | append_singleton cs c ih =>
        obtain ⟨hbefore, -, hlast⟩ := List.pairwise_append.mp h
        obtain ⟨hflatten, hpairwise⟩ := ih hbefore
        have hle : ∀ g ∈ ofCommands cs, g.category.place ≤ c.category.place := by
          intro g hg
          obtain ⟨d, hd, hcategory⟩ := List.mem_map.mp
            (((partition_ofCommands cs).mem_iff _).mp (List.mem_map_of_mem hg))
          rw [← hcategory]
          exact hlast d hd c (List.mem_singleton_self c)
        obtain ⟨hinsert, hpairwise'⟩ := insert_of_le hpairwise hle
        rw [ofCommands_concat]
        exact ⟨by rw [hinsert, hflatten], hpairwise'⟩
  exact hboth.1

end Group

theorem nodup_commands : commands.Nodup := by
  decide

theorem inOrder_commands : Group.InOrder commands := by
  unfold Group.InOrder
  decide

/-! ### Searching -/

theorem searchCommands_eq (query : List Char) :
    searchCommands query = Group.ofCommands (commands.filter (·.Matches query)) := by
  rw [searchCommands]
  congr 1
  refine List.filter_congr fun c _ => ?_
  rw [Bool.eq_iff_iff, Command.contains_needleOf_iff, decide_eq_true_iff]

/-- **A search only leaves commands out.** For every query the list is the palette without the
commands that do not match, so each one that matches is listed once. It falls into groups, one for
each category that is left, none of them empty, and a group has the commands of its category in the
order of the palette. -/
theorem searchCommands_partition (query : List Char) :
    Group.flatten (searchCommands query) = commands.filter (·.Matches query) ∧
      (∀ c, (Group.flatten (searchCommands query)).count c =
        if c ∈ commands ∧ c.Matches query then 1 else 0) ∧
      ((searchCommands query).map (·.category)).Nodup ∧
      ∀ g ∈ searchCommands query, g.commands ≠ [] ∧
        g.commands = commands.filter fun c => c.Matches query ∧ c.category = g.category := by
  have hpartition := Group.partition_ofCommands (commands.filter (·.Matches query))
  have hflatten : Group.flatten (searchCommands query) = commands.filter (·.Matches query) := by
    rw [searchCommands_eq]
    exact Group.flatten_ofCommands (inOrder_commands.filter _)
  rw [← searchCommands_eq] at hpartition
  refine ⟨hflatten, fun c => ?_, hpartition.nodup, fun g hg => ⟨hpartition.commands_ne_nil hg, ?_⟩⟩
  · rw [hflatten, (List.Nodup.filter _ nodup_commands).count]
    simp only [List.mem_filter, decide_eq_true_iff]
  · rw [hpartition.commands_eq g hg, List.filter_filter]
    refine List.filter_congr fun c _ => ?_
    rw [Bool.decide_and, Bool.and_comm]

end Composer
