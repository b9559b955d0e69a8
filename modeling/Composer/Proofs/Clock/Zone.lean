import Composer.Proofs.Clock.Phrase
/-!
# Composer.Proofs.Clock.Zone

**The table of zones.** A zone is typed as its key or as the name that answers show. All of these
texts are read as the second zone of a phrase. As the first one they are read as well, but for the
name of one city: no name with an accent is read in front of the word between the zones. That city
has another key without the accent.
-/

namespace Composer.Clock

open Text

theorem Zone.mem_of_typed? {s : List Char} {zone : Zone} (h : Zone.typed? s = some zone) :
    zone ∈ zones := by
  rw [Zone.typed?] at h
  exact List.mem_of_find?_eq_some h

/-- What the keys of the zones are read as, and how far the zones are from Universal Time. -/
theorem zones_key : ∀ zone ∈ zones,
    Zone.typed? zone.key.toList = some zone ∧ canBeTarget zone.key.toList = true ∧
      (canBeSource zone.key.toList = true ∨ zone.name = "São Paulo" ∧ zone.offset = -180) ∧
      -600 ≤ zone.offset ∧ zone.offset ≤ 780 := by
  decide +kernel

/-- Every zone is read as the first one under one of its keys. -/
theorem exists_sourceKey {zone : Zone} (h : zone ∈ zones) :
    ∃ zone' ∈ zones, zone'.name = zone.name ∧ zone'.offset = zone.offset ∧
      canBeSource zone'.key.toList = true := by
  obtain ⟨-, -, hsource | ⟨hname, hoffset⟩, -⟩ := zones_key zone h
  · exact ⟨zone, h, rfl, rfl, hsource⟩
  · exact ⟨⟨"sao paulo", "São Paulo", -180⟩, by decide, hname.symm, hoffset.symm, by decide⟩

/-- What the names of the zones are read as. None of them ends like a note in brackets. -/
theorem zones_name : ∀ zone ∈ zones,
    (Zone.typed? zone.name.toList).any
        (fun zone' => zone'.name = zone.name ∧ zone'.offset = zone.offset) = true ∧
      canBeTarget zone.name.toList = true ∧
      (zone.name = "São Paulo" ∨ canBeSource zone.name.toList = true) ∧
      zone.name.toList.getLast?.any (· ≠ ')') = true := by
  decide +kernel

/-- The name of a zone means that zone. -/
theorem exists_typed?_name {zone : Zone} (h : zone ∈ zones) :
    ∃ zone', Zone.typed? zone.name.toList = some zone' ∧ zone'.name = zone.name ∧
      zone'.offset = zone.offset := by
  obtain ⟨zone', htyped, heq⟩ := (Option.any_eq_true _ _).mp (zones_name zone h).1
  exact ⟨zone', htyped, of_decide_eq_true heq⟩

theorem getLast?_append_name {zone : Zone} (h : zone ∈ zones) (text : List Char) :
    (text ++ zone.name.toList).getLast? ≠ some ')' := by
  obtain ⟨-, -, -, hlast⟩ := zones_name zone h
  obtain ⟨c, hc, hne⟩ := (Option.any_eq_true _ _).mp hlast
  rw [List.getLast?_append, hc]
  exact fun heq => of_decide_eq_true hne (Option.some.inj heq)

end Composer.Clock
