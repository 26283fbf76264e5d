import CollatedStore.Proofs.Environment.Accounting
import CollatedStore.Proofs.Environment.Attempts
import CollatedStore.Proofs.Environment.Walk
import CollatedStore.Proofs.Unbroken

/-!
Deleting through a cursor. The cursor comes to stand where the items now are that stood behind the
deleted one; the items before it stay where they are.
-/
namespace CollatedStore

/-- A list can be cut at each of its items. -/
theorem exists_cut {α : Type} {xs : List α} {i : Nat} {x : α} (stood : xs[i]? = some x) :
    ∃ before after, xs = before ++ x :: after ∧ before.length = i := by
  obtain ⟨inside, rfl⟩ := List.getElem?_eq_some_iff.mp stood
  obtain ⟨before, after, cut, length, -⟩ := @List.exists_of_set _ i xs[i] xs inside
  exact ⟨before, after, cut, length⟩

namespace Contents

/-- The items that stand before `p`. -/
def itemsBefore (entries : Contents) (p : Place) : List (Bytes × Bytes) :=
  items (entries.take p.entry) ++
    match entries[p.entry]? with
    | some e => e.items.take p.value
    | none => []

/-- The items from `p` on. -/
def itemsFrom (entries : Contents) (p : Place) : List (Bytes × Bytes) :=
  (match entries[p.entry]? with
    | some e => e.items.drop p.value
    | none => []) ++ items (entries.drop (p.entry + 1))

@[simp] theorem items_nil : items [] = [] := rfl

@[simp] theorem items_append (before after : Contents) :
    items (before ++ after) = before.items ++ after.items := List.flatMap_append

@[simp] theorem items_cons (e : Entry) (after : Contents) :
    items (e :: after) = e.items ++ after.items := List.flatMap_cons

section
variable {before after : Contents} {e : Entry} {j : Nat}

@[simp] theorem itemsBefore_between :
    itemsBefore (before ++ after) ⟨before.length, 0⟩ = before.items := by
  unfold itemsBefore
  cases (before ++ after)[before.length]? <;> simp

@[simp] theorem itemsFrom_between :
    itemsFrom (before ++ after) ⟨before.length, 0⟩ = after.items := by
  cases after <;> simp [itemsFrom, List.drop_eq_nil_of_le]

@[simp] theorem itemsBefore_cut :
    itemsBefore (before ++ e :: after) ⟨before.length, j⟩ = before.items ++ e.items.take j := by
  simp [itemsBefore]

@[simp] theorem itemsFrom_cut :
    itemsFrom (before ++ e :: after) ⟨before.length, j⟩ = e.items.drop j ++ after.items := by
  simp [itemsFrom]

@[simp] theorem itemsAfter_cut :
    itemsAfter (before ++ e :: after) ⟨before.length, j⟩ =
      e.items.drop (j + 1) ++ after.items := by
  simp [itemsAfter]

@[simp] theorem itemsBefore_next :
    itemsBefore (before ++ e :: after) ⟨before.length + 1, 0⟩ = before.items ++ e.items := by
  have passed : before ++ e :: after = (before ++ [e]) ++ after := by simp
  have here : before.length + 1 = (before ++ [e]).length := by simp
  rw [passed, here, itemsBefore_between]
  simp

@[simp] theorem itemsFrom_next :
    itemsFrom (before ++ e :: after) ⟨before.length + 1, 0⟩ = after.items := by
  have passed : before ++ e :: after = (before ++ [e]) ++ after := by simp
  have here : before.length + 1 = (before ++ [e]).length := by simp
  rw [passed, here, itemsFrom_between]

end

section
variable {entries : Contents} {p : Place} {e : Entry} {v : Bytes}

theorem itemsFrom_past (past : entries.length ≤ p.entry) : entries.itemsFrom p = [] := by
  unfold itemsFrom
  rw [List.getElem?_eq_none past, List.drop_eq_nil_of_le (Nat.le_succ_of_le past)]
  rfl

/-- What stands before a place and what stands from it on are all the items. -/
theorem before_from (entries : Contents) (p : Place) :
    entries.itemsBefore p ++ entries.itemsFrom p = entries.items := by
  cases stood : entries[p.entry]? with
  | none =>
    have past : entries.length ≤ p.entry := List.getElem?_eq_none_iff.mp stood
    rw [itemsFrom_past past, itemsBefore, stood, List.take_of_length_le past]
    simp
  | some e =>
    obtain ⟨before, after, rfl, here⟩ := exists_cut stood
    obtain ⟨i, j⟩ := p
    subst here
    have whole := List.take_append_drop j e.items
    rw [itemsBefore_cut, itemsFrom_cut, items_append, items_cons, List.append_assoc,
      ← List.append_assoc (e.items.take j), whole]

theorem itemsFrom_cons (stood : entries[p.entry]? = some e) (was : e.values[p.value]? = some v) :
    entries.itemsFrom p = (e.key, v) :: entries.itemsAfter p := by
  obtain ⟨before, after, rfl, here⟩ := exists_cut stood
  obtain ⟨i, j⟩ := p
  subst here
  have item : e.items[j]? = some (e.key, v) := by simp [Entry.items, was]
  obtain ⟨inside, there⟩ := List.getElem?_eq_some_iff.mp item
  rw [itemsFrom_cut, itemsAfter_cut, List.drop_eq_getElem_cons inside, there, List.cons_append]

end

end Contents

namespace Holding

/-- What it leaves to take the value `v` out of entry `e` at `p`, or `all` of the entry, and the place
of what stood behind it. -/
inductive Removal (h : Holding) (p : Place) (e : Entry) (v : Bytes) :
    Bool → Place → Holding → Prop
  | key {all : Bool} (whole : all = true ∨ e.values.length = 1) :
      Removal h p e v all ⟨p.entry, 0⟩ ⟨h.entries.eraseIdx p.entry, h.used - e.size⟩
  | last (others : 0 < p.value) (last : p.value + 1 = e.values.length) :
      Removal h p e v false ⟨p.entry + 1, 0⟩
        ⟨h.entries.set p.entry { e with values := e.values.eraseIdx p.value }, h.used - v.length⟩
  | inner (more : p.value + 1 < e.values.length) :
      Removal h p e v false p
        ⟨h.entries.set p.entry { e with values := e.values.eraseIdx p.value }, h.used - v.length⟩

section
variable {h h' : Holding} {p p' : Place} {e : Entry} {v : Bytes} {all : Bool}

theorem removeAt_key (whole : all = true ∨ e.values.length = 1)
    (stood : h.entries[p.entry]? = some e) :
    h.removeAt p all =
      (fun used => (⟨p.entry, 0⟩, ⟨h.entries.eraseIdx p.entry, used⟩)) <$>
        Work.minus h.used e.size := by
  obtain ⟨inside, -⟩ := List.getElem?_eq_some_iff.mp stood
  have test : (all || e.values.length == 1) = true := by simpa using whole
  rw [removeAt, Work.itemAt_eq stood, pure_bind, if_pos test]
  simp [Work.eraseAt, inside]

theorem removeAt_value (several : e.values.length ≠ 1) (stood : h.entries[p.entry]? = some e)
    (was : e.values[p.value]? = some v) :
    h.removeAt p false =
      (fun used => (if p.value = (e.values.eraseIdx p.value).length then ⟨p.entry + 1, 0⟩ else p,
        ⟨h.entries.set p.entry { e with values := e.values.eraseIdx p.value }, used⟩)) <$>
        Work.minus h.used v.length := by
  obtain ⟨inside, -⟩ := List.getElem?_eq_some_iff.mp stood
  obtain ⟨among, -⟩ := List.getElem?_eq_some_iff.mp was
  have test : ¬(false || e.values.length == 1) = true := by simpa using several
  rw [removeAt, Work.itemAt_eq stood, pure_bind, if_neg test, Work.itemAt_eq was, pure_bind]
  simp [Work.eraseAt, among, Work.setAt, inside]

theorem removal_value (several : e.values.length ≠ 1) (was : e.values[p.value]? = some v) :
    Removal h p e v false
      (if p.value = (e.values.eraseIdx p.value).length then ⟨p.entry + 1, 0⟩ else p)
      ⟨h.entries.set p.entry { e with values := e.values.eraseIdx p.value },
        h.used - v.length⟩ := by
  obtain ⟨among, -⟩ := List.getElem?_eq_some_iff.mp was
  have erased : (e.values.eraseIdx p.value).length = e.values.length - 1 :=
    List.length_eraseIdx_of_lt among
  by_cases last : p.value = (e.values.eraseIdx p.value).length
  · rw [if_pos last]
    exact .last (by omega) (by omega)
  · rw [if_neg last]
    exact .inner (by omega)

theorem removeAt_removal (all : Bool) (stood : h.entries[p.entry]? = some e)
    (was : e.values[p.value]? = some v) (within : e.size ≤ h.used) :
    ∃ p' h', h.removeAt p all = pure (p', h') ∧ Removal h p e v all p' h' := by
  by_cases whole : all = true ∨ e.values.length = 1
  · refine ⟨_, _, ?_, .key whole⟩
    rw [removeAt_key whole stood, Work.minus_eq within, map_pure]
  · obtain ⟨rfl, several⟩ : all = false ∧ e.values.length ≠ 1 := by simpa using whole
    have value_within : v.length ≤ h.used := Nat.le_trans (Entry.value_le_size was) within
    refine ⟨_, _, ?_, removal_value several was⟩
    rw [removeAt_value several stood was, Work.minus_eq value_within, map_pure]

/-- Where one value goes, what stood before it still stands before the place reached, and what stood
behind it stands from there on. -/
theorem Removal.parts (removal : Removal h p e v all p' h') (stood : h.entries[p.entry]? = some e)
    (was : e.values[p.value]? = some v) (one : all = false ∨ e.values.length = 1) :
    h'.entries.itemsBefore p' = h.entries.itemsBefore p ∧
      h'.entries.itemsFrom p' = h.entries.itemsAfter p := by
  obtain ⟨entries, used⟩ := h
  dsimp only at stood
  -- Both lists are cut at the place, whose numbers are then lengths.
  obtain ⟨before, after, rfl, here⟩ := exists_cut stood
  obtain ⟨smaller, larger, cut, there⟩ := exists_cut was
  obtain ⟨i, j⟩ := p
  dsimp only at here there
  subst here there
  cases removal with
  | key whole =>
    have single : e.values.length = 1 := one.elim (fun few => by simpa [few] using whole) id
    have alone : smaller = [] ∧ larger = [] := by
      simp only [cut, List.length_append, List.length_cons] at single
      exact ⟨List.eq_nil_of_length_eq_zero (by omega), List.eq_nil_of_length_eq_zero (by omega)⟩
    simp [Entry.items, cut, alone, List.eraseIdx_append_of_length_le]
  | last others last =>
    have final : larger = [] := by
      rw [cut] at last
      simpa using last
    simp [Entry.items, cut, final, List.eraseIdx_append_of_length_le, List.drop_eq_nil_of_le]
  | inner more =>
    simp [Entry.items, cut, List.eraseIdx_append_of_length_le, List.drop_append,
      List.drop_eq_nil_of_le]

/-- An item stands at the place reached, or nothing stands from there on. -/
theorem Removal.stands (removal : Removal h p e v all p' h') (stood : h.entries[p.entry]? = some e)
    (inhabited : ∀ e ∈ h'.entries, e.values ≠ []) :
    h'.entries.holds p' = true ∨ h'.entries.length ≤ p'.entry := by
  have head : ∀ i, h'.entries.holds ⟨i, 0⟩ = true ∨ h'.entries.length ≤ i := fun i => by
    by_cases inside : i < h'.entries.length
    · exact .inl (Contents.holds_first inhabited inside)
    · exact .inr (Nat.le_of_not_lt inside)
  cases removal with
  | key whole => exact head p.entry
  | last others last => exact head (p.entry + 1)
  | inner more =>
    obtain ⟨inside, -⟩ := List.getElem?_eq_some_iff.mp stood
    have shorter : (e.values.eraseIdx p.value).length = e.values.length - 1 :=
      List.length_eraseIdx_of_lt (by omega)
    refine .inl (Contents.holds_iff.mpr ⟨_, List.getElem?_set_self inside, ?_⟩)
    dsimp only
    omega

/-- No key is added or moved. -/
theorem Removal.keys (removal : Removal h p e v all p' h') (stood : h.entries[p.entry]? = some e) :
    (h'.entries.map Entry.key).Sublist (h.entries.map Entry.key) := by
  have others : ∀ values, (h.entries.set p.entry { e with values }).map Entry.key =
      h.entries.map Entry.key := fun values => by
    obtain ⟨before, after, cut, here⟩ := exists_cut stood
    rw [cut, ← here]
    simp
  cases removal with
  | key whole => exact (List.eraseIdx_sublist h.entries p.entry).map Entry.key
  | last | inner =>
    dsimp only
    rw [others]

/-- The bytes in use fall by those that are no longer held. -/
theorem Removal.used (removal : Removal h p e v all p' h') (stood : h.entries[p.entry]? = some e)
    (was : e.values[p.value]? = some v) (within : e.size ≤ h.used) :
    h'.used + h.entries.size = h.used + h'.entries.size := by
  have left := Contents.size_set stood { e with values := e.values.eraseIdx p.value }
  have bytes := length_flatten_eraseIdx was
  simp only [Entry.size] at left within
  cases removal with
  | key whole =>
    have erased := Contents.size_eraseIdx stood
    simp only [Entry.size] at erased ⊢
    omega
  | last others last =>
    dsimp only
    omega
  | inner more =>
    dsimp only
    omega

end

end Holding

namespace Environment

/-- The cursor is on an item: at `p`, the value `v` of entry `e`. -/
structure On (env : Environment) (cursor : Handle) (c : Cursor) (layout : Layout)
    (entries : Contents) (p : Place) (e : Entry) (v : Bytes) : Prop where
  here : env.cursors.get? cursor = some c
  readable : env.readable c.txn c.dbi = .ok (entries, layout)
  place : c.place = some p
  stood : entries[p.entry]? = some e
  was : e.values[p.value]? = some v

/-- Does a deletion take the whole key? Where values are not sorted, there is no other way. -/
def takesKey (layout : Layout) (flags : UInt32) : Bool :=
  !layout.flags.dupSort || Flags.has flags Flags.noDupData

section
variable {env env' : Environment} {cursor : Handle} {c : Cursor} {db : Opened} {layout : Layout}
  {entries : Contents} {p : Place} {e : Entry} {v : Bytes} {flags : UInt32}

/-- A writer's cursor deletes the item that it is on. -/
theorem cursorDel_removes (balanced : Balanced env) (here : env.cursors.get? cursor = some c)
    (writable : env.writable c.txn c.dbi = .ok db) (place : c.place = some p)
    (stood : db.entries[p.entry]? = some e) (was : e.values[p.value]? = some v) (flags : UInt32) :
    ∃ p' holding, Holding.Removal db.holding p e v (takesKey db.layout flags) p' holding ∧
      env.cursorDel cursor flags = .done ⟨.ok .success, (),
        (env.keep db holding).setCursor cursor { c with place := some p', deleted := true }⟩ := by
  obtain ⟨among, -⟩ := List.getElem?_eq_some_iff.mp was
  have stands : c.current db.entries = some p := by
    simp [Cursor.current, place, Contents.holds_iff.mpr ⟨e, stood, among⟩]
  have admitted := admitCursorDel_eq_ok.mpr ⟨here, writable, stands⟩
  have within := (writable_accounted balanced (writable_self writable)).entry_within stood
  obtain ⟨p', holding, taken, removal⟩ :=
    Holding.removeAt_removal (takesKey db.layout flags) (h := db.holding) stood was within
  refine ⟨p', holding, removal, ?_⟩
  simp only [cursorDel, admitted]
  rw [← takesKey, taken]
  rfl

/-- A deletion that succeeds was admitted. -/
theorem admitted_of_deleted
    (deleted : (env.perform (.cursorDel cursor flags)).Yields (.ok .success, env')) :
    ∃ c p db, env.admitCursorDel cursor = .ok (c, p, db) := by
  obtain ⟨reply, made, ends⟩ := Inquiry.yields_map.mp deleted
  cases admitted : env.admitCursorDel cursor with
  | error s =>
    rw [cursorDel, admitted] at made
    cases made
    have ended := Except.ok.inj (Prod.mk.inj ends).1
    exact absurd ended.symm (denies_admitCursorDel env cursor s admitted)
  | ok found => exact ⟨_, _, _, rfl⟩

/-- A deletion that succeeds has taken out the item that the cursor was on. -/
theorem On.deleted (on : env.On cursor c layout entries p e v) (balanced : Balanced env)
    (deleted : (env.perform (.cursorDel cursor flags)).Yields (.ok .success, env')) :
    ∃ db p' holding, env.writable c.txn c.dbi = .ok db ∧ db.entries = entries ∧
      db.layout = layout ∧ Holding.Removal db.holding p e v (takesKey layout flags) p' holding ∧
      env' = (env.keep db holding).setCursor cursor { c with place := some p', deleted := true } := by
  obtain ⟨c', _, db, admitted⟩ := admitted_of_deleted deleted
  obtain ⟨here, writable, -⟩ := admitCursorDel_eq_ok.mp admitted
  cases on.here.symm.trans here
  have same := (readable_of_writable writable).symm.trans on.readable
  obtain ⟨rfl, rfl⟩ := Prod.mk.inj (Except.ok.inj same)
  obtain ⟨p', holding, removal, removed⟩ :=
    cursorDel_removes balanced on.here writable on.place on.stood on.was flags
  obtain ⟨reply, made, ends⟩ := Inquiry.yields_map.mp deleted
  rw [removed] at made
  cases made
  exact ⟨db, p', holding, writable, rfl, rfl, removal, (Prod.mk.inj ends).2⟩

end

end Environment

end CollatedStore
