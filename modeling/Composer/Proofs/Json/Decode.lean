import Composer.Json.Decode
import Mathlib.Algebra.Order.Ring.Int
import Mathlib.Data.List.Forall2
/-!
# Composer.Proofs.Json.Decode

**Records are read back column by column.** A record is written field by field, and a field without
a value is left out. As long as no name is used twice, its reader finds every column again, a
missing one included (`columns?_ofFields`). What is left to show of a record is then that each of
its columns is read back, and for that there is one law for every kind of column.
-/

namespace Composer.Json

variable {α : Type}

/-! ### Columns -/

/-- The fields of a record with these names and columns. -/
def written (names : List String) (columns : List (Option Json)) : List (String × Json) :=
  (List.zipWith (fun name column => optionalField name column) names columns).filterMap id

/-- The field of a name among fields that have other names. -/
theorem column?_eq {before after : List (String × Json)} {name : String} (column : Option Json)
    (hbefore : ∀ f ∈ before, f.1 ≠ name) (hafter : ∀ f ∈ after, f.1 ≠ name) :
    column? (before ++ ((optionalField name column).toList ++ after)) name = some column := by
  have hother : ∀ {fields : List (String × Json)}, (∀ f ∈ fields, f.1 ≠ name) →
      fields.filter (·.1 = name) = [] := by
    intro fields h
    simpa [List.filter_eq_nil_iff] using h
  rw [column?, List.filter_append, List.filter_append, hother hbefore, hother hafter]
  cases column <;> simp [optionalField]

theorem written_cons (name : String) (names : List String) (column : Option Json)
    (columns : List (Option Json)) : written (name :: names) (column :: columns) =
      (optionalField name column).toList ++ written names columns := by
  cases column <;> rfl

/-- Every field that is written has one of the names. -/
theorem fst_mem_of_mem_written {names : List String} {columns : List (Option Json)}
    {f : String × Json} (h : f ∈ written names columns) : f.1 ∈ names := by
  induction names generalizing columns with
  | nil => simp [written] at h
  | cons name names ih =>
      cases columns with
      | nil => simp [written] at h
      | cons column columns =>
          rw [written_cons, List.mem_append, Option.mem_toList] at h
          rcases h with h | h
          · obtain ⟨j, -, rfl⟩ := Option.map_eq_some_iff.mp h
            exact List.mem_cons_self
          · exact List.mem_cons_of_mem name (ih h)

/-- The columns of a record are found behind fields that it does not have. -/
theorem mapM_column?_written {names : List String} (hnames : names.Nodup)
    {columns : List (Option Json)} (hlength : columns.length = names.length)
    (before : List (String × Json)) (hbefore : ∀ f ∈ before, f.1 ∉ names) :
    names.mapM (column? (before ++ written names columns)) = some columns := by
  induction names generalizing columns before with
  | nil =>
      rw [List.length_eq_zero_iff.mp hlength]
      rfl
  | cons name names ih =>
      cases columns with
      | nil => cases hlength
      | cons column columns =>
          obtain ⟨hfresh, hnames⟩ := List.nodup_cons.mp hnames
          have hfirst : column? (before ++ written (name :: names) (column :: columns)) name =
              some column := by
            rw [written_cons]
            refine column?_eq column (fun f hf heq => ?_) (fun f hf heq => ?_)
            · exact hbefore f hf (heq ▸ List.mem_cons_self)
            · exact hfresh (heq ▸ fst_mem_of_mem_written hf)
          have hrest :
              names.mapM (column? (before ++ written (name :: names) (column :: columns))) =
                some columns := by
            -- For the other names the first field is one more that they do not have.
            rw [written_cons, ← List.append_assoc]
            refine ih hnames (Nat.succ.inj hlength) _ fun f hf hmem => ?_
            rcases List.mem_append.mp hf with hf | hf
            · exact hbefore f hf (List.mem_cons_of_mem name hmem)
            · obtain ⟨j, -, rfl⟩ := Option.map_eq_some_iff.mp (Option.mem_toList.mp hf)
              exact hfresh hmem
          rw [List.mapM_cons, hfirst, hrest]
          rfl

/-- **The columns that are written are the columns that are read.** -/
theorem columns?_ofFields {names : List String} {columns : List (Option Json)} {j : Json}
    (hnames : names.Nodup) (hlength : columns.length = names.length)
    (hj : j = ofFields (List.zipWith optionalField names columns)) :
    columns? names j = some columns :=
  hj ▸ mapM_column?_written hnames hlength [] (by simp)

/-! ### Values -/

@[simp] theorem asBool?_bool (b : Bool) : asBool? (.bool b) = some b := rfl

@[simp] theorem asString?_string (s : String) : asString? (.string s) = some s := rfl

@[simp] theorem asName?_string (s : String) : asName? (.string s) = some s := rfl

theorem asFloat?_real {x : Float} (h : x.isFinite = true) : asFloat? (.real x) = some x :=
  if_pos h

theorem asIntBetween?_integer {low high i : Int} (h : low ≤ i ∧ i ≤ high) :
    asIntBetween? low high (.integer i) = some i :=
  if_pos h

theorem asNatBelow?_ofNat {bound n : Nat} (h : n < bound) :
    asNatBelow? bound (.ofNat n) = some n :=
  if_pos ⟨Int.natCast_nonneg n, Int.ofNat_lt.mpr h⟩

theorem asNat64?_ofNat {n : Nat} (h : n < 2 ^ 64) : asNat64? (.ofNat n) = some n :=
  asNatBelow?_ofNat h

theorem asString?_eq_some_iff {j : Json} {s : String} : asString? j = some s ↔ j = .string s := by
  cases j <;> simp [asString?]

theorem asChar?_eq_some_iff {j : Json} {c : Char} :
    asChar? j = some c ↔ j = .string (String.singleton c) := by
  cases j with
  | string s =>
      rw [asChar?]
      split
      · rename_i d hd
        rw [string.injEq, ← String.toList_inj, hd]
        simp
      · rename_i hother
        refine iff_of_false nofun fun heq => hother c ?_
        rw [string.inj heq, String.toList_singleton]
  | _ => simp [asChar?]

theorem asNat64?_eq_some_iff {j : Json} {n : Nat} :
    asNat64? j = some n ↔ j = .ofNat n ∧ n < 2 ^ 64 := by
  constructor
  · intro h
    cases j with
    | integer i =>
        obtain ⟨⟨hlow, hhigh⟩, rfl⟩ : (0 ≤ i ∧ i < ↑(Nat.pow 2 64)) ∧ i.toNat = n := by
          simpa [asNat64?, asNatBelow?] using h
        have hnat : (i.toNat : Int) = i := Int.toNat_of_nonneg hlow
        have hpow : Nat.pow 2 64 = 2 ^ 64 := rfl
        exact ⟨by rw [ofNat, hnat], by omega⟩
    | _ => cases h
  · rintro ⟨rfl, hn⟩
    exact asNat64?_ofNat hn

theorem mapM_map_eq_some {β : Type} {read : β → Option α} {write : α → β} {l : List α}
    (h : ∀ a ∈ l, read (write a) = some a) : (l.map write).mapM read = some l := by
  induction l with
  | nil => rfl
  | cons a l ih =>
      rw [List.map_cons, List.mapM_cons, h a List.mem_cons_self,
        ih fun b hb => h b (List.mem_cons_of_mem a hb)]
      rfl

/-- A sequence is read back if its items are. -/
theorem asList?_array_map {item : Json → Option α} {write : α → Json} {l : List α}
    (h : ∀ a ∈ l, item (write a) = some a) : asList? item (.array (l.map write)) = some l := by
  rw [asList?, mapM_map_eq_some h]

/-! ### Kinds of columns -/

@[simp] theorem required_some (decode : Json → Option α) (j : Json) :
    required decode (some j) = decode j := by
  rw [required, Option.bind_some]

@[simp] theorem orElse_some (value : α) (decode : Json → Option α) (j : Json) :
    orElse value decode (some j) = decode j := by
  rw [orElse]

/-- A value that may be missing is read back, unless it is written as `null`. -/
theorem orNone_map {decode : Json → Option α} {write : α → Json} {v : Option α}
    (h : ∀ a, v = some a → decode (write a) = some a ∧ write a ≠ .null) :
    orNone decode (v.map write) = some v := by
  cases v with
  | none => rfl
  | some a =>
      obtain ⟨hdecode, hnull⟩ := h a rfl
      rw [Option.map_some, orNone, orElse_some]
      unfold asOption?
      split
      · contradiction
      · rw [hdecode]
        rfl

@[simp] theorem orNone_string (v : Option String) :
    orNone asString? (v.map .string) = some v :=
  orNone_map fun _ _ => ⟨rfl, nofun⟩

theorem orNone_real {v : Option Float} (h : ∀ x, v = some x → x.isFinite = true) :
    orNone asFloat? (v.map .real) = some v :=
  orNone_map fun x hx => ⟨asFloat?_real (h x hx), nofun⟩

/-- A sequence that is left out when it is empty is read back. -/
theorem orElse_list {item : Json → Option α} {write : α → Json} {l : List α}
    (h : ∀ a ∈ l, item (write a) = some a) :
    orElse [] (asList? item) (if l.isEmpty then none else some (.array (l.map write))) =
      some l := by
  cases l with
  | nil => rfl
  | cons a l => exact asList?_array_map h

/-! ### Columns with defaults -/

/-- The field of a name gives a column that has a default: it is there once and its value is of the
kind, or it is missing and the column is as by default. -/
def Gives (fields : List (String × Json)) (name : String) (kind : Json → Prop)
    (isDefault : Prop) : Prop :=
  (∃ j, fields.filter (·.1 = name) = [(name, j)] ∧ kind j) ∨
    fields.filter (·.1 = name) = [] ∧ isDefault

/-- The fields with certain names are the same, in some order. -/
def SameFields (names : List String) (fields fields' : List (String × Json)) : Prop :=
  (fields.filter (·.1 ∈ names)).Perm (fields'.filter (·.1 ∈ names))

variable {fields fields' : List (String × Json)} {name : String}

theorem column?_eq_some_none_iff :
    column? fields name = some none ↔ fields.filter (·.1 = name) = [] := by
  unfold column?
  split
  · rename_i heq
    exact iff_of_true rfl heq
  · rename_i heq
    simp [heq]
  · rename_i hnone _
    exact iff_of_false nofun hnone

theorem column?_eq_some_some_iff {j : Json} :
    column? fields name = some (some j) ↔ fields.filter (·.1 = name) = [(name, j)] := by
  unfold column?
  split
  · rename_i heq
    simp [heq]
  · rename_i other j' heq
    have hmem : (other, j') ∈ fields.filter (·.1 = name) := heq ▸ List.mem_singleton_self _
    obtain rfl : other = name := by simpa using (List.mem_filter.mp hmem).2
    simp [heq]
  · rename_i hmany
    exact iff_of_false nofun (hmany name j)

/-- The columns of a record are found one by one. -/
theorem forall₂_of_columns? {names : List String} {columns : List (Option Json)}
    (h : columns? names (.object fields) = some columns) :
    List.Forall₂ (fun name c => column? fields name = some c) names columns := by
  induction names generalizing columns with
  | nil =>
      obtain rfl := Option.some.inj h
      exact .nil
  | cons name names ih =>
      rw [columns?, List.mapM_cons] at h
      obtain ⟨c, hc, h⟩ := Option.bind_eq_some_iff.mp h
      obtain ⟨rest, hrest, h⟩ := Option.bind_eq_some_iff.mp h
      obtain rfl := Option.some.inj h
      exact .cons hc (ih hrest)

/-- A column is given as it is decoded. -/
theorem gives_iff {decode : Json → Option α} {d v : α} :
    Gives fields name (fun j => decode j = some v) (v = d) ↔
      ∃ c, column? fields name = some c ∧ orElse d decode c = some v := by
  constructor
  · rintro (⟨j, hj, hkind⟩ | ⟨hnone, rfl⟩)
    · exact ⟨some j, column?_eq_some_some_iff.mpr hj, hkind⟩
    · exact ⟨none, column?_eq_some_none_iff.mpr hnone, rfl⟩
  · rintro ⟨c, hc, hv⟩
    cases c with
    | none => exact Or.inr ⟨column?_eq_some_none_iff.mp hc, (Option.some.inj hv).symm⟩
    | some j => exact Or.inl ⟨j, column?_eq_some_some_iff.mp hc, hv⟩

theorem gives_string_iff {d v : String} :
    Gives fields name (· = .string v) (v = d) ↔
      ∃ c, column? fields name = some c ∧ orElse d asString? c = some v := by
  simp only [← gives_iff, asString?_eq_some_iff]

theorem gives_char_iff {d v : Char} :
    Gives fields name (· = .string (String.singleton v)) (v = d) ↔
      ∃ c, column? fields name = some c ∧ orElse d asChar? c = some v := by
  simp only [← gives_iff, asChar?_eq_some_iff]

/-- A column of 64 bits, whose default has no more. -/
theorem gives_ofNat_iff {d v : Nat} (hd : d < 2 ^ 64) :
    v < 2 ^ 64 ∧ Gives fields name (· = .ofNat v) (v = d) ↔
      ∃ c, column? fields name = some c ∧ orElse d asNat64? c = some v := by
  simp only [← gives_iff, asNat64?_eq_some_iff]
  constructor
  · rintro ⟨hv, ⟨j, hj, rfl⟩ | hdefault⟩
    · exact Or.inl ⟨_, hj, rfl, hv⟩
    · exact Or.inr hdefault
  · rintro (⟨j, hj, rfl, hv⟩ | ⟨hnone, rfl⟩)
    · exact ⟨hv, Or.inl ⟨_, hj, rfl⟩⟩
    · exact ⟨hd, Or.inr ⟨hnone, rfl⟩⟩

/-- Neither the order of the fields nor fields with other names make a difference. -/
theorem Gives.of_same {names : List String} (hsame : SameFields names fields fields')
    (hname : name ∈ names) {kind : Json → Prop} {isDefault : Prop}
    (h : Gives fields name kind isDefault) : Gives fields' name kind isDefault := by
  have hnamed : ∀ fields : List (String × Json),
      (fields.filter (·.1 ∈ names)).filter (·.1 = name) = fields.filter (·.1 = name) := by
    intro fields
    rw [List.filter_filter]
    refine List.filter_congr fun f _ => ?_
    by_cases hf : f.1 = name <;> simp [hf, hname]
  have hperm := hsame.filter (·.1 = name)
  rw [hnamed, hnamed] at hperm
  rcases h with ⟨j, hj, hkind⟩ | ⟨hnone, hdefault⟩
  · rw [hj] at hperm
    exact Or.inl ⟨j, (List.singleton_perm.mp hperm).symm, hkind⟩
  · rw [hnone] at hperm
    exact Or.inr ⟨List.nil_perm.mp hperm, hdefault⟩

/-- The value of one field may be replaced by another of the same kind. -/
theorem Gives.of_replaced {before after : List (String × Json)} {other : String} {j j' : Json}
    {kind : Json → Prop} {isDefault : Prop} (hkind : other = name → kind j → kind j')
    (h : Gives (before ++ (other, j) :: after) name kind isDefault) :
    Gives (before ++ (other, j') :: after) name kind isDefault := by
  by_cases heq : other = name
  · subst heq
    rcases h with ⟨i, hi, hik⟩ | ⟨hnone, -⟩
    · -- It is the only field of its name.
      obtain ⟨hbefore, rfl, hafter⟩ : before.filter (·.1 = other) = [] ∧ j = i ∧
          after.filter (·.1 = other) = [] := by
        simpa [List.append_eq_singleton_iff, and_assoc] using hi
      exact Or.inl ⟨j', by simp [hbefore, hafter], hkind rfl hik⟩
    · simp at hnone
  · simpa [Gives, heq] using h

end Composer.Json
