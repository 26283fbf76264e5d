import CollatedStore.Environment.Basic

/-!
Looking up databases by number and by name, after the catalog has grown or one of its records has
changed.
-/
namespace CollatedStore

namespace Catalog

theorem get?_modify (catalog : Catalog) {dbi : Dbi} (pos : 0 < dbi) (d : Dbi)
    (f : DbRecord → DbRecord) :
    (catalog.modify dbi f).get? d = (catalog.get? d).map fun r => if d = dbi then f r else r := by
  obtain _ | n := d
  · rfl
  · obtain _ | m := dbi
    · cases pos
    · simp only [get?, modify, Nat.add_sub_cancel, List.getElem?_modify,
        Nat.add_right_cancel_iff, eq_comm (a := m)]
      cases catalog[n]? <;> split <;> rfl

theorem get?_append {catalog more : Catalog} {d : Dbi} {record : DbRecord}
    (h : catalog.get? d = some record) : Catalog.get? (catalog ++ more) d = some record := by
  cases d with
  | zero => cases h
  | succ d =>
    obtain ⟨inside, _⟩ := List.getElem?_eq_some_iff.mp h
    exact (List.getElem?_append_left inside).trans h

theorem get?_new (catalog : Catalog) (record : DbRecord) :
    catalog.get? (catalog.length + 1) = none ∧
      Catalog.get? (catalog ++ [record]) (catalog.length + 1) = some record := by
  constructor
  · exact List.getElem?_eq_none (Nat.le_refl _)
  · exact List.getElem?_concat_length

theorem find?_listed {catalog : Catalog} {name : Option String} {dbi : Dbi}
    (h : catalog.find? name = some dbi) :
    ∃ n record, dbi = n + 1 ∧ catalog.get? dbi = some record := by
  obtain ⟨n, found, rfl⟩ := Option.map_eq_some_iff.mp h
  have inside := (List.findIdx?_eq_some_iff_getElem.mp found).1
  exact ⟨n, catalog[n], rfl, List.getElem?_eq_getElem inside⟩

/-! ## Names -/

/-- The names in the order of their numbers. -/
def names (catalog : Catalog) : List (Option String) := catalog.map DbRecord.name

theorem names_get? (catalog : Catalog) (n : Nat) :
    catalog.names[n]? = (catalog.get? (n + 1)).map DbRecord.name :=
  List.getElem?_map

theorem names_append (catalog : Catalog) (record : DbRecord) :
    names (catalog ++ [record]) = catalog.names ++ [record.name] :=
  List.map_append

theorem names_modify (catalog : Catalog) (dbi : Dbi) {f : DbRecord → DbRecord}
    (kept : ∀ r, (f r).name = r.name) : (catalog.modify dbi f).names = catalog.names := by
  apply List.ext_getElem?
  intro n
  simp only [names, modify, List.getElem?_map, List.getElem?_modify]
  cases catalog[n]? with
  | none => rfl
  | some r =>
    by_cases here : dbi - 1 = n
    · simp [here, kept]
    · simp [here]

/-- A lookup by name only looks at the names. -/
theorem find?_eq (catalog : Catalog) (name : Option String) :
    catalog.find? name = (catalog.names.findIdx? (· == name)).map (· + 1) := by
  rw [names, List.findIdx?_map]
  rfl

theorem find?_of_names {catalog catalog' : Catalog} (same : catalog'.names = catalog.names)
    (name : Option String) : catalog'.find? name = catalog.find? name := by
  rw [find?_eq, find?_eq, same]

theorem find?_eq_none_iff {catalog : Catalog} {name : Option String} :
    catalog.find? name = none ↔ name ∉ catalog.names := by
  rw [find?_eq, Option.map_eq_none_iff, List.findIdx?_eq_none_iff]
  constructor
  · intro differ there
    simpa using differ name there
  · intro absent n there
    rw [beq_eq_false_iff_ne]
    rintro rfl
    exact absent there

/-- A name that is new is found under the next number. -/
theorem find?_new {catalog : Catalog} {name : Option String} (new : name ∉ catalog.names)
    {grown : Catalog} (names : grown.names = catalog.names ++ [name]) :
    grown.find? name = some (catalog.length + 1) := by
  have unknown := find?_eq_none_iff.mpr new
  rw [find?_eq, Option.map_eq_none_iff] at unknown
  rw [find?_eq, names, List.findIdx?_append, unknown]
  simp [Catalog.names]

/-- Where no name is listed twice, a name is found at the one place where it is. -/
theorem find?_eq_some_iff {catalog : Catalog} (distinct : catalog.names.Nodup)
    {name : Option String} {dbi : Dbi} :
    catalog.find? name = some dbi ↔ ∃ record, catalog.get? dbi = some record ∧
      record.name = name := by
  constructor
  · intro found
    obtain ⟨n, here, rfl⟩ := Option.map_eq_some_iff.mp found
    obtain ⟨inside, own, _⟩ := List.findIdx?_eq_some_iff_getElem.mp here
    exact ⟨catalog[n], List.getElem?_eq_getElem inside, by simpa using own⟩
  · rintro ⟨record, listed, rfl⟩
    cases dbi with
    | zero => cases listed
    | succ n =>
      have there : catalog.names[n]? = some record.name := by
        rw [names_get?, listed]
        rfl
      cases found : catalog.find? record.name with
      | none => exact absurd (List.mem_of_getElem? there) (find?_eq_none_iff.mp found)
      | some dbi =>
        rw [find?_eq] at found
        obtain ⟨m, here, rfl⟩ := Option.map_eq_some_iff.mp found
        obtain ⟨inside, own, _⟩ := List.findIdx?_eq_some_iff_getElem.mp here
        have same : catalog.names[m]? = some record.name := by
          rw [List.getElem?_eq_getElem inside]
          simpa using own
        have place : m = n := (List.getElem?_inj inside distinct).mp (same.trans there.symm)
        rw [place]

end Catalog

end CollatedStore
