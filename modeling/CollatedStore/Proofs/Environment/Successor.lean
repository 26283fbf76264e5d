import CollatedStore.Proofs.Environment.Deletion
import CollatedStore.Proofs.Environment.Finding

/-!
What a deletion leaves in a database. All that stood in front of what goes and all that stood behind
it stays in order, and the place given back is where the one now meets the other.
-/
namespace CollatedStore

namespace Contents

section
variable {entries : Contents} {p : Place}

/-- A place that is not inside an entry, past its values, has the first of the items from it on. -/
theorem item?_eq_head? (stands : entries.holds p = true ∨ entries.length ≤ p.entry) :
    entries.item? p = (entries.itemsFrom p).head? := by
  obtain holds | past := stands
  · obtain ⟨e, stood, inside⟩ := holds_iff.mp holds
    have was := List.getElem?_eq_getElem inside
    rw [item?_eq stood, was, itemsFrom_cons stood was]
    rfl
  · rw [item?_none past, itemsFrom_past past]
    rfl

theorem holds_iff_itemsFrom (stands : entries.holds p = true ∨ entries.length ≤ p.entry) :
    entries.holds p = true ↔ entries.itemsFrom p ≠ [] := by
  constructor
  · intro holds
    obtain ⟨e, stood, inside⟩ := holds_iff.mp holds
    rw [itemsFrom_cons stood (List.getElem?_eq_getElem inside)]
    exact List.cons_ne_nil _ _
  · intro more
    exact stands.resolve_right fun past => more (itemsFrom_past past)

end

/-- The items of a database, cut in three for a deletion at `p`: those in front, those that go, and
those behind. With the last value of a key the key goes as well, and so it does if `all` go. -/
inductive Takes (entries : Contents) (p : Place) :
    (all : Bool) → (front gone back : List (Bytes × Bytes)) → (bytes : Nat) → Prop
  | key {all : Bool} {e : Entry} (stood : entries[p.entry]? = some e)
      (among : p.value < e.values.length) (whole : all = true ∨ e.values.length = 1) :
      Takes entries p all (items (entries.take p.entry)) e.items
        (items (entries.drop (p.entry + 1))) e.size
  | value {e : Entry} {v : Bytes} (stood : entries[p.entry]? = some e)
      (was : e.values[p.value]? = some v) (several : e.values.length ≠ 1) :
      Takes entries p false (entries.itemsBefore p) [(e.key, v)] (entries.itemsAfter p) v.length

section
variable {entries : Contents} {p : Place} {all : Bool} {front gone back : List (Bytes × Bytes)}
  {bytes : Nat}

/-- Something goes from every place at which an item stands. -/
theorem exists_takes (holds : entries.holds p = true) (all : Bool) :
    ∃ front gone back bytes, entries.Takes p all front gone back bytes := by
  obtain ⟨e, stood, among⟩ := holds_iff.mp holds
  by_cases whole : all = true ∨ e.values.length = 1
  · exact ⟨_, _, _, _, .key stood among whole⟩
  · obtain ⟨rfl, several⟩ : all = false ∧ e.values.length ≠ 1 := by simpa using whole
    exact ⟨_, _, _, _, .value stood (List.getElem?_eq_getElem among) several⟩

theorem Takes.items (takes : entries.Takes p all front gone back bytes) :
    entries.items = front ++ gone ++ back := by
  cases takes with
  | key stood =>
    obtain ⟨before, after, rfl, here⟩ := exists_cut stood
    rw [← here]
    simp
  | value stood was =>
    rw [← before_from entries p, itemsFrom_cons stood was, List.append_assoc]
    rfl

end

end Contents

namespace Holding

/-- What is left by a deletion that took `bytes` out from between `front` and `back`. -/
structure Leaves (h : Holding) (front back : List (Bytes × Bytes)) (bytes : Nat) (p' : Place)
    (h' : Holding) : Prop where
  items : h'.entries.items = front ++ back
  used : h'.used + bytes = h.used
  /-- The bytes counted are those that the entries have lost. -/
  size : h'.entries.size + bytes = h.entries.size
  inhabited : ∀ e ∈ h'.entries, e.values ≠ []
  /-- The place stands behind all that stood in front, and before all that stood behind. -/
  before : h'.entries.itemsBefore p' = front
  behind : h'.entries.itemsFrom p' = back
  successor : h'.entries.item? p' = back.head?
  valid : h'.entries.holds p' = true ↔ back ≠ []

section
variable {h h' : Holding} {p p' : Place} {all : Bool} {front gone back : List (Bytes × Bytes)}
  {bytes : Nat} {e : Entry} {v : Bytes}

theorem Removal.leaves (removal : Removal h p e v all p' h') (stood : h.entries[p.entry]? = some e)
    (used : h'.used + bytes = h.used) (size : h'.entries.size + bytes = h.entries.size)
    (inhabited : ∀ e ∈ h'.entries, e.values ≠ []) (before : h'.entries.itemsBefore p' = front)
    (behind : h'.entries.itemsFrom p' = back) : Leaves h front back bytes p' h' := by
  have stands := removal.stands stood inhabited
  constructor
  case items => rw [← Contents.before_from h'.entries p', before, behind]
  case used => exact used
  case size => exact size
  case inhabited => exact inhabited
  case before => exact before
  case behind => exact behind
  case successor => rw [Contents.item?_eq_head? stands, behind]
  case valid => rw [Contents.holds_iff_itemsFrom stands, behind]

theorem leaves_key (inhabited : ∀ e ∈ h.entries, e.values ≠ [])
    (whole : all = true ∨ e.values.length = 1) (stood : h.entries[p.entry]? = some e)
    (within : e.size ≤ h.used) :
    Leaves h (Contents.items (h.entries.take p.entry))
      (Contents.items (h.entries.drop (p.entry + 1))) e.size ⟨p.entry, 0⟩
      ⟨h.entries.eraseIdx p.entry, h.used - e.size⟩ := by
  have removal : Removal h p e [] all _ _ := .key whole
  have size := Contents.size_eraseIdx stood
  refine removal.leaves stood (Nat.sub_add_cancel within) (by dsimp only; omega) ?_ ?_ ?_
  · intro e' there
    exact inhabited e' (List.mem_of_mem_eraseIdx there)
  all_goals
    obtain ⟨before, after, cut, here⟩ := exists_cut stood
    rw [cut, ← here]
    simp [List.eraseIdx_append_of_length_le]

theorem leaves_value (inhabited : ∀ e ∈ h.entries, e.values ≠ []) (several : e.values.length ≠ 1)
    (stood : h.entries[p.entry]? = some e) (was : e.values[p.value]? = some v)
    (within : v.length ≤ h.used) :
    Leaves h (h.entries.itemsBefore p) (h.entries.itemsAfter p) v.length
      (if p.value = (e.values.eraseIdx p.value).length then ⟨p.entry + 1, 0⟩ else p)
      ⟨h.entries.set p.entry { e with values := e.values.eraseIdx p.value },
        h.used - v.length⟩ := by
  have removal := removal_value (h := h) several was
  obtain ⟨front, back⟩ := removal.parts stood was (.inl rfl)
  have set := Contents.size_set stood { e with values := e.values.eraseIdx p.value }
  have bytes := length_flatten_eraseIdx was
  simp only [Entry.size] at set
  refine removal.leaves stood (Nat.sub_add_cancel within) (by dsimp only; omega) ?_ front back
  intro e' there
  obtain there | rfl := List.mem_or_eq_of_mem_set there
  · exact inhabited e' there
  · obtain ⟨among, -⟩ := List.getElem?_eq_some_iff.mp was
    have others : (e.values.eraseIdx p.value).length = e.values.length - 1 :=
      List.length_eraseIdx_of_lt among
    exact List.length_pos_iff.mp (by dsimp only; omega)

theorem Takes.leaves (takes : h.entries.Takes p all front gone back bytes)
    (inhabited : ∀ e ∈ h.entries, e.values ≠ []) (within : bytes ≤ h.used) :
    ∃ p' h', h.removeAt p all = pure (p', h') ∧ Leaves h front back bytes p' h' := by
  cases takes with
  | key stood among whole =>
    refine ⟨_, _, ?_, leaves_key inhabited whole stood within⟩
    rw [removeAt_key whole stood, Work.minus_eq within, map_pure]
  | value stood was several =>
    refine ⟨_, _, ?_, leaves_value inhabited several stood was within⟩
    rw [removeAt_value several stood was, Work.minus_eq within, map_pure]

theorem Takes.breaks (takes : h.entries.Takes p all front gone back bytes)
    (short : h.used < bytes) : h.removeAt p all = Work.breach .underflow := by
  cases takes with
  | key stood among whole =>
    rw [removeAt_key whole stood, Work.minus_short short]
    rfl
  | value stood was several =>
    rw [removeAt_value several stood was, Work.minus_short short]
    rfl

/-- **A deletion keeps the successor.** From every place at which an item stands, exactly that item
goes, or all of its key. The others stay in order, and the place given back is that of the first item
behind those that went, if there is one. Only a count too small for what goes would break it off. -/
theorem deletion_keeps_the_successor (inhabited : ∀ e ∈ h.entries, e.values ≠ [])
    (holds : h.entries.holds p = true) (all : Bool) :
    ∃ front gone back bytes, h.entries.Takes p all front gone back bytes ∧
      h.entries.items = front ++ gone ++ back ∧
      (bytes ≤ h.used → ∃ p' h', h.removeAt p all = pure (p', h') ∧
        Leaves h front back bytes p' h') ∧
      (h.used < bytes → h.removeAt p all = Work.breach .underflow) := by
  obtain ⟨front, gone, back, bytes, takes⟩ := Contents.exists_takes holds all
  exact ⟨front, gone, back, bytes, takes, takes.items, Takes.leaves takes inhabited,
    Takes.breaks takes⟩

/-- The second of two values goes, which the next key follows. -/
theorem deletion_keeps_the_successor_of_a_last_value :
    let h : Holding := ⟨[⟨[1], [[0x61], [0x62, 0x62]]⟩, ⟨[2], [[0x63]]⟩], 6⟩
    ∃ p' h', h.removeAt ⟨0, 1⟩ false = pure (p', h') ∧ h'.used = 4 ∧
      h'.entries.items = [([1], [0x61]), ([2], [0x63])] ∧
      h'.entries.item? p' = some ([2], [0x63]) ∧ h'.entries.holds p' = true := by
  intro h
  obtain ⟨front, gone, back, bytes, takes, -, left, -⟩ :=
    @deletion_keeps_the_successor h ⟨0, 1⟩ (by decide) (by decide) false
  cases takes with
  | key stood among whole =>
    cases stood
    simp at whole
  | value stood was =>
    cases stood
    cases was
    obtain ⟨p', h', removed, leaves⟩ := left (by decide)
    refine ⟨p', h', removed, ?_, leaves.items, leaves.successor, leaves.valid.mpr (by decide)⟩
    have used : h'.used + 2 = 6 := leaves.used
    omega

end

end Holding

end CollatedStore
