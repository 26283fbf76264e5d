import CollatedStore.Cursor
import CollatedStore.Proofs.Answers
import Mathlib.Logic.Relation

/-!
What a write that gets through does to a holding: a few kinds of changes, each with the search that
it rests on. Every fact about what is stored follows from these.
-/
namespace CollatedStore

/-- A search can only find what is there. -/
theorem Search.found_inside {α : Type} {xs : List α} {against : α → Work Ordering} {k : Nat}
    (h : (locate xs against).run.Yields (.ok (.found k))) : k < xs.length := by
  unfold locate at h
  split at h
  · cases h
  · obtain ⟨base, _, h⟩ := Work.yields_bind.mp h
    obtain ⟨o, probed, h⟩ := Work.yields_bind.mp h
    obtain ⟨x, here, _⟩ := Work.yields_bind.mp probed
    obtain ⟨inside, _⟩ := List.getElem?_eq_some_iff.mp (Work.yields_itemAt.mp here)
    cases o with
    | eq => cases h; exact inside
    | lt | gt => cases h

namespace Contents

variable {entries : Contents} {p : Place}

theorem holds_iff : entries.holds p = true ↔
    ∃ e, entries[p.entry]? = some e ∧ p.value < e.values.length := by
  unfold holds
  split
  · rename_i e stood
    simp [stood]
  · rename_i absent
    simp [absent]

/-- Before a value that is there stand others. -/
theorem holds_earlier (holds : entries.holds p = true) {j : Nat} (upTo : j ≤ p.value) :
    entries.holds ⟨p.entry, j⟩ = true := by
  obtain ⟨e, stood, there⟩ := holds_iff.mp holds
  exact holds_iff.mpr ⟨e, stood, Nat.lt_of_le_of_lt upTo there⟩

theorem entry_lt_of_holds (holds : entries.holds p = true) : p.entry < entries.length := by
  obtain ⟨e, stood, _⟩ := holds_iff.mp holds
  exact (List.getElem?_eq_some_iff.mp stood).1

end Contents

namespace Holding

/-- Where values have a fixed length, this one has the length of one that is there. -/
def Fits (layout : Layout) (values : List Bytes) (value : Bytes) : Prop :=
  layout.flags.fixed = true → ∃ like ∈ values, like.length = value.length

/-- A change of a holding that a write makes, with the search that told where to make it. -/
inductive Change (may : Question → Ordering → Prop) (layout : Layout) (limit : Nat) (h : Holding) :
    Holding → Prop
  /-- The pair is there already. -/
  | kept : Change may layout limit h h
  | added {i : Nat} {key value : Bytes}
      (located : (h.entries.find layout key).run.YieldsBy may (.ok (.absent i)))
      (valid : validKey key = true) (inside : i ≤ h.entries.length)
      (room : h.used + (key.length + value.length) ≤ limit) :
      Change may layout limit h
        ⟨h.entries.insertIdx i ⟨key, [value]⟩, h.used + (key.length + value.length)⟩
  | overwritten {i j : Nat} {e : Entry} {old value : Bytes} (plain : layout.flags.dupSort = false)
      (stood : h.entries[i]? = some e) (was : e.values[j]? = some old)
      (within : old.length ≤ h.used) (room : h.used - old.length + value.length ≤ limit) :
      Change may layout limit h ⟨h.entries.set i { e with values := e.values.set 0 value },
        h.used - old.length + value.length⟩
  | joined {i j : Nat} {e : Entry} {value : Bytes} (sorted : layout.flags.dupSort = true)
      (stood : h.entries[i]? = some e)
      (located : (Contents.findIn layout e.values value).run.YieldsBy may (.ok (.absent j)))
      (inside : j ≤ e.values.length) (room : h.used + value.length ≤ limit)
      (fits : Fits layout e.values value) :
      Change may layout limit h ⟨h.entries.set i { e with values := e.values.insertIdx j value },
        h.used + value.length⟩
  | replaced {i j k : Nat} {e : Entry} {old value : Bytes} (sorted : layout.flags.dupSort = true)
      (stood : h.entries[i]? = some e) (was : e.values[j]? = some old)
      (located : (Contents.findIn layout (e.values.eraseIdx j) value).run.YieldsBy may
        (.ok (.absent k)))
      (inside : k ≤ (e.values.eraseIdx j).length) (within : old.length ≤ h.used)
      (room : h.used - old.length + value.length ≤ limit) (fits : Fits layout e.values value) :
      Change may layout limit h
        ⟨h.entries.set i { e with values := (e.values.eraseIdx j).insertIdx k value },
          h.used - old.length + value.length⟩
  /-- One value goes, and others stay. -/
  | parted {i j : Nat} {e : Entry} {old : Bytes} (sorted : layout.flags.dupSort = true)
      (stood : h.entries[i]? = some e) (was : e.values[j]? = some old)
      (left : e.values.eraseIdx j ≠ []) (within : old.length ≤ h.used) :
      Change may layout limit h
        ⟨h.entries.set i { e with values := e.values.eraseIdx j }, h.used - old.length⟩
  | dropped {i : Nat} {e : Entry} (stood : h.entries[i]? = some e) (within : e.size ≤ h.used) :
      Change may layout limit h ⟨h.entries.eraseIdx i, h.used - e.size⟩

/-- Changes made one after another. -/
abbrev Changes (may : Question → Ordering → Prop) (layout : Layout) (limit : Nat) :
    Holding → Holding → Prop :=
  Relation.ReflTransGen (Change may layout limit)

/-- A write that tells where its pair stands. -/
structure Placed (may : Question → Ordering → Prop) (layout : Layout) (limit : Nat) (h : Holding)
    (p : Place) (h' : Holding) : Prop where
  change : Change may layout limit h h'
  stands : h'.entries.holds p = true

theorem holds_set {entries : Contents} {values : List Bytes} {e : Entry} {i j : Nat}
    (inside : i < entries.length) (there : j < values.length) :
    Contents.holds (entries.set i { e with values }) ⟨i, j⟩ = true := by
  simp [Contents.holds, inside, there]

section
variable {may : Question → Ordering → Prop} {layout : Layout} {limit used : Nat} {rule : PutRule}
  {key value : Bytes} {h h' : Holding} {i : Nat} {p p' : Place}

theorem charge_yields {add sub next : Nat}
    (h : (charge limit used add sub).run.Yields (.ok next)) :
    sub ≤ used ∧ next = used - sub + add ∧ next ≤ limit := by
  obtain ⟨left, taken, h⟩ := Work.yields_bind.mp h
  obtain ⟨within, rfl⟩ := Work.yields_minus.mp taken
  dsimp only at h
  split at h
  · cases h
  · rename_i room
    cases h
    exact ⟨within, rfl, Nat.not_lt.mp room⟩

theorem not_yields_occupied {α : Type} {entries : Contents} {a : α} :
    ¬(entries.occupied p : Work α).run.Yields (.ok a) := by
  intro h
  obtain ⟨_, _, h⟩ := Work.yields_bind.mp h
  cases h

theorem checkLength_yields {values : List Bytes} {like : Nat} {u : Unit}
    (h : (checkLength layout values like value).run.Yields (.ok u)) : Fits layout values value := by
  intro fixed
  unfold checkLength at h
  rw [if_pos fixed] at h
  obtain ⟨v, was, h⟩ := Work.yields_bind.mp h
  split at h
  · rename_i same
    exact ⟨v, List.mem_of_getElem? (Work.yields_itemAt.mp was), same⟩
  · cases h

theorem putNew_placed (valid : validKey key = true)
    (located : (h.entries.find layout key).run.YieldsBy may (.ok (.absent i)))
    (put : (putNew limit rule key value h i).run.YieldsBy may (.ok (p, h'))) :
    Placed may layout limit h p h' := by
  unfold putNew at put
  split at put
  · cases put
  · obtain ⟨used, charged, put⟩ := Work.yieldsBy_bind.mp put
    obtain ⟨_, rfl, room⟩ := charge_yields charged.yields
    obtain ⟨entries, inserted, put⟩ := Work.yieldsBy_bind.mp put
    obtain ⟨inside, rfl⟩ := Work.yields_insertAt.mp inserted.yields
    cases put
    exact ⟨.added located valid inside room,
      by simp [Contents.holds, List.getElem?_insertIdx_self, inside]⟩

theorem overwrite_placed (plain : layout.flags.dupSort = false)
    (put : (overwrite limit value h i).run.YieldsBy may (.ok (p, h'))) :
    Placed may layout limit h p h' := by
  obtain ⟨e, stood, put⟩ := Work.yieldsBy_bind.mp put
  obtain ⟨old, was, put⟩ := Work.yieldsBy_bind.mp put
  obtain ⟨used, charged, put⟩ := Work.yieldsBy_bind.mp put
  obtain ⟨within, rfl, room⟩ := charge_yields charged.yields
  obtain ⟨values, set, put⟩ := Work.yieldsBy_bind.mp put
  obtain ⟨first, rfl⟩ := Work.yields_setAt.mp set.yields
  obtain ⟨entries, put_back, put⟩ := Work.yieldsBy_bind.mp put
  obtain ⟨inside, rfl⟩ := Work.yields_setAt.mp put_back.yields
  cases put
  exact ⟨.overwritten plain (Work.yields_itemAt.mp stood.yields) (Work.yields_itemAt.mp was.yields)
    within room, holds_set inside (by simpa using first)⟩

theorem putValue_placed (sorted : layout.flags.dupSort = true)
    (put : (putValue layout limit rule value h i).run.YieldsBy may (.ok (p, h'))) :
    Placed may layout limit h p h' := by
  obtain ⟨e, stood, put⟩ := Work.yieldsBy_bind.mp put
  have stood := Work.yields_itemAt.mp stood.yields
  obtain ⟨_, checked, put⟩ := Work.yieldsBy_bind.mp put
  obtain ⟨spot, located, put⟩ := Work.yieldsBy_bind.mp put
  cases spot with
  | found j =>
    dsimp only at put
    split at put
    · exact absurd put.yields not_yields_occupied
    · cases put
      have there : j < e.values.length := Search.found_inside located.yields
      exact ⟨.kept, by simp [Contents.holds, stood, there]⟩
  | absent j =>
    dsimp only at put
    split at put
    · obtain ⟨_, _, put⟩ := Work.yieldsBy_bind.mp put
      exact absurd put.yields not_yields_occupied
    · obtain ⟨used, charged, put⟩ := Work.yieldsBy_bind.mp put
      obtain ⟨_, rfl, room⟩ := charge_yields charged.yields
      obtain ⟨values, inserted, put⟩ := Work.yieldsBy_bind.mp put
      obtain ⟨among, rfl⟩ := Work.yields_insertAt.mp inserted.yields
      obtain ⟨entries, set, put⟩ := Work.yieldsBy_bind.mp put
      obtain ⟨inside, rfl⟩ := Work.yields_setAt.mp set.yields
      cases put
      have longer := List.length_insertIdx_of_le_length among value
      exact ⟨.joined sorted stood located among room (checkLength_yields checked.yields),
        holds_set inside (by omega)⟩

theorem put_placed (valid : validKey key = true)
    (put : (h.put layout limit rule key value).run.YieldsBy may (.ok (p, h'))) :
    Placed may layout limit h p h' := by
  obtain ⟨spot, located, put⟩ := Work.yieldsBy_bind.mp put
  cases spot with
  | absent i => exact putNew_placed valid located put
  | found i =>
    dsimp only at put
    split at put
    · exact absurd put.yields not_yields_occupied
    · split at put
      · cases put
      · split at put
        · rename_i sorted
          exact putValue_placed sorted put
        · rename_i plain
          exact overwrite_placed (by simpa using plain) put

theorem replaceAt_placed
    (put : (h.replaceAt layout limit p value).run.YieldsBy may (.ok (p', h'))) :
    Placed may layout limit h p' h' := by
  obtain ⟨e, stood, put⟩ := Work.yieldsBy_bind.mp put
  obtain ⟨old, was, put⟩ := Work.yieldsBy_bind.mp put
  have stood := Work.yields_itemAt.mp stood.yields
  have was := Work.yields_itemAt.mp was.yields
  split at put
  · rename_i sorted
    obtain ⟨_, checked, put⟩ := Work.yieldsBy_bind.mp put
    obtain ⟨used, charged, put⟩ := Work.yieldsBy_bind.mp put
    obtain ⟨within, rfl, room⟩ := charge_yields charged.yields
    obtain ⟨others, erased, put⟩ := Work.yieldsBy_bind.mp put
    obtain ⟨_, rfl⟩ := Work.yields_eraseAt.mp erased.yields
    obtain ⟨spot, located, put⟩ := Work.yieldsBy_bind.mp put
    cases spot with
    | found k =>
      -- The value replaced is gone, and the one put in its place was there already.
      obtain ⟨entries, set, put⟩ := Work.yieldsBy_bind.mp put
      obtain ⟨inside, rfl⟩ := Work.yields_setAt.mp set.yields
      obtain ⟨used, given, put⟩ := Work.yieldsBy_bind.mp put
      obtain ⟨_, rfl⟩ := Work.yields_minus.mp given.yields
      cases put
      have there := Search.found_inside located.yields
      have left := List.ne_nil_of_length_pos (Nat.zero_lt_of_lt there)
      rw [Nat.add_sub_cancel]
      exact ⟨.parted sorted stood was left within, holds_set inside there⟩
    | absent k =>
      obtain ⟨values, inserted, put⟩ := Work.yieldsBy_bind.mp put
      obtain ⟨among, rfl⟩ := Work.yields_insertAt.mp inserted.yields
      obtain ⟨entries, set, put⟩ := Work.yieldsBy_bind.mp put
      obtain ⟨inside, rfl⟩ := Work.yields_setAt.mp set.yields
      cases put
      have longer := List.length_insertIdx_of_le_length among value
      exact ⟨.replaced sorted stood was located among within room
        (checkLength_yields checked.yields), holds_set inside (by omega)⟩
  · rename_i plain
    obtain ⟨used, charged, put⟩ := Work.yieldsBy_bind.mp put
    obtain ⟨within, rfl, room⟩ := charge_yields charged.yields
    obtain ⟨values, set, put⟩ := Work.yieldsBy_bind.mp put
    obtain ⟨first, rfl⟩ := Work.yields_setAt.mp set.yields
    obtain ⟨entries, put_back, put⟩ := Work.yieldsBy_bind.mp put
    obtain ⟨inside, rfl⟩ := Work.yields_setAt.mp put_back.yields
    cases put
    exact ⟨.overwritten (by simpa using plain) stood was within room,
      holds_set inside (by simpa using first)⟩

/-- One value is removed only where values are sorted. What followed may have been the end. -/
theorem removeAt_change {all : Bool}
    (removed : (h.removeAt p all).run.YieldsBy may (.ok (p', h')))
    (sorted : all = false → layout.flags.dupSort = true) :
    Change may layout limit h h' ∧ p'.entry ≤ h'.entries.length := by
  obtain ⟨e, stood, removed⟩ := Work.yieldsBy_bind.mp removed
  have stood := Work.yields_itemAt.mp stood.yields
  split at removed
  · obtain ⟨entries, erased, removed⟩ := Work.yieldsBy_bind.mp removed
    obtain ⟨inside, rfl⟩ := Work.yields_eraseAt.mp erased.yields
    obtain ⟨used, given, removed⟩ := Work.yieldsBy_bind.mp removed
    obtain ⟨within, rfl⟩ := Work.yields_minus.mp given.yields
    cases removed
    refine ⟨.dropped stood within, ?_⟩
    rw [List.length_eraseIdx_of_lt inside]
    exact Nat.le_sub_one_of_lt inside
  · rename_i one
    simp only [Bool.or_eq_true, beq_iff_eq, not_or, Bool.not_eq_true] at one
    obtain ⟨value, was, removed⟩ := Work.yieldsBy_bind.mp removed
    have was := Work.yields_itemAt.mp was.yields
    obtain ⟨values, erased, removed⟩ := Work.yieldsBy_bind.mp removed
    obtain ⟨there, rfl⟩ := Work.yields_eraseAt.mp erased.yields
    obtain ⟨entries, set, removed⟩ := Work.yieldsBy_bind.mp removed
    obtain ⟨inside, rfl⟩ := Work.yields_setAt.mp set.yields
    obtain ⟨used, given, removed⟩ := Work.yieldsBy_bind.mp removed
    obtain ⟨within, rfl⟩ := Work.yields_minus.mp given.yields
    cases removed
    have left : e.values.eraseIdx p.value ≠ [] := by
      rw [List.eraseIdx_ne_nil_iff]
      omega
    refine ⟨.parted (sorted one.1) stood was left within, ?_⟩
    rw [List.length_set]
    split
    · exact inside
    · exact Nat.le_of_lt inside

theorem remove_change {value : Option Bytes}
    (removed : (h.remove layout key value).run.YieldsBy may (.ok h')) :
    Change may layout limit h h' := by
  have whole : ∀ i, (do return (← removeAt ⟨i, 0⟩ true h).2 : Work Holding).run.YieldsBy may
      (.ok h') → Change may layout limit h h' := by
    intro i gone
    obtain ⟨_, left, ends⟩ := Work.yieldsBy_bind.mp gone
    cases ends
    exact (removeAt_change left nofun).1
  obtain ⟨spot, _, removed⟩ := Work.yieldsBy_bind.mp removed
  cases spot with
  | absent i => cases removed
  | found i =>
    dsimp only at removed
    split at removed
    · rename_i sorted _
      obtain ⟨e, _, removed⟩ := Work.yieldsBy_bind.mp removed
      obtain ⟨spot, _, removed⟩ := Work.yieldsBy_bind.mp removed
      cases spot with
      | absent j => cases removed
      | found j =>
        obtain ⟨_, left, ends⟩ := Work.yieldsBy_bind.mp removed
        cases ends
        exact (removeAt_change left fun _ => sorted).1
    · exact whole i removed

end

end Holding

end CollatedStore
