import CollatedStore.Proofs.Holding
import CollatedStore.Proofs.Writes
import Mathlib.Data.List.Perm.Basic

/-!
What a write may do to a holding, whatever the comparisons answer: a few kinds of edits, each of
which keeps the bytes in use equal to the bytes held.
-/
namespace CollatedStore

namespace Contents

variable {entries : Contents} {i : Nat} {e : Entry}

theorem size_perm {entries entries' : Contents} (h : entries.Perm entries') :
    size entries = size entries' := by
  induction h with
  | nil => rfl
  | cons e _ ih => rw [size_cons, size_cons, ih]
  | swap e e' rest => simp only [size_cons, Nat.add_left_comm]
  | trans _ _ ih ih' => exact ih.trans ih'

theorem size_insertIdx (inside : i ≤ entries.length) (e : Entry) :
    size (entries.insertIdx i e) = e.size + size entries :=
  size_perm (List.perm_insertIdx e entries inside)

theorem size_eraseIdx (stood : entries[i]? = some e) :
    e.size + size (entries.eraseIdx i) = size entries := by
  obtain ⟨inside, rfl⟩ := List.getElem?_eq_some_iff.mp stood
  exact size_perm (List.getElem_cons_eraseIdx_perm inside)

theorem entry_le_size (stood : entries[i]? = some e) : e.size ≤ size entries := by
  have erased := size_eraseIdx stood
  omega

theorem size_set (stood : entries[i]? = some e) (e' : Entry) :
    size (entries.set i e') + e.size = size entries + e'.size := by
  obtain ⟨inside, _⟩ := List.getElem?_eq_some_iff.mp stood
  have set : size (entries.set i e') = e'.size + size (entries.eraseIdx i) :=
    size_perm (List.set_perm_cons_eraseIdx inside e')
  have erased := size_eraseIdx stood
  omega

end Contents

/-! The bytes of a list of values. -/

theorem length_flatten_insertIdx {values : List Bytes} {j : Nat} (inside : j ≤ values.length)
    (value : Bytes) :
    (values.insertIdx j value).flatten.length = value.length + values.flatten.length := by
  rw [(List.perm_insertIdx value values inside).flatten.length_eq, List.flatten_cons,
    List.length_append]

theorem length_flatten_eraseIdx {values : List Bytes} {j : Nat} {value : Bytes}
    (stood : values[j]? = some value) :
    value.length + (values.eraseIdx j).flatten.length = values.flatten.length := by
  obtain ⟨inside, rfl⟩ := List.getElem?_eq_some_iff.mp stood
  rw [← (List.getElem_cons_eraseIdx_perm inside).flatten.length_eq, List.flatten_cons,
    List.length_append]

/-- The bytes of a value are among those of its entry. -/
theorem Entry.value_le_size {e : Entry} {j : Nat} {v : Bytes} (was : e.values[j]? = some v) :
    v.length ≤ e.size := by
  have bytes := length_flatten_eraseIdx was
  unfold Entry.size
  omega

theorem Contents.value_le_size {entries : Contents} {i j : Nat} {e : Entry} {v : Bytes}
    (stood : entries[i]? = some e) (was : e.values[j]? = some v) : v.length ≤ entries.size :=
  Nat.le_trans (Entry.value_le_size was) (entry_le_size stood)

/-- An entry that holds something, under a key that may be stored. Only sorted values can be more
than one. -/
structure Entry.Proper (layout : Layout) (e : Entry) : Prop where
  key : validKey e.key = true
  inhabited : e.values ≠ []
  single : layout.flags.dupSort = false → e.values.length = 1

namespace Holding

/-- The bytes in use are those of the entries and `rest` others, and the map has room for them. -/
structure Accounted (layout : Layout) (limit rest : Nat) (h : Holding) : Prop where
  entries : ∀ e ∈ h.entries, e.Proper layout
  used : h.used = rest + h.entries.size
  room : h.used ≤ limit

/-- One change of a holding, with what it does to the bytes in use. -/
inductive Edit (layout : Layout) (limit : Nat) (h : Holding) : Holding → Prop
  | added {i : Nat} {key value : Bytes} (valid : validKey key = true) (inside : i ≤ h.entries.length)
      (room : h.used + (key.length + value.length) ≤ limit) :
      Edit layout limit h
        ⟨h.entries.insertIdx i ⟨key, [value]⟩, h.used + (key.length + value.length)⟩
  | overwritten {i j : Nat} {e : Entry} {old value : Bytes} (plain : layout.flags.dupSort = false)
      (stood : h.entries[i]? = some e) (was : e.values[j]? = some old) (within : old.length ≤ h.used)
      (room : h.used - old.length + value.length ≤ limit) :
      Edit layout limit h ⟨h.entries.set i { e with values := e.values.set 0 value },
        h.used - old.length + value.length⟩
  | changed {i used : Nat} {e : Entry} {values : List Bytes} (sorted : layout.flags.dupSort = true)
      (stood : h.entries[i]? = some e) (left : values ≠ [])
      (counted : used + e.values.flatten.length = h.used + values.flatten.length)
      (room : used ≤ h.used ∨ used ≤ limit) :
      Edit layout limit h ⟨h.entries.set i { e with values }, used⟩
  | dropped {i : Nat} {e : Entry} (stood : h.entries[i]? = some e) (within : e.size ≤ h.used) :
      Edit layout limit h ⟨h.entries.eraseIdx i, h.used - e.size⟩

abbrev Edits (layout : Layout) (limit : Nat) : Holding → Holding → Prop :=
  Relation.ReflTransGen (Edit layout limit)

section
variable {layout : Layout} {limit rest : Nat} {h h' : Holding}

theorem Edit.accounted (edit : Edit layout limit h h') (ok : Accounted layout limit rest h) :
    Accounted layout limit rest h' := by
  cases edit with
  | @added i key value valid inside room =>
    refine ⟨fun e he => ?_, ?_, room⟩
    · obtain rfl | he := (List.mem_insertIdx inside).mp he
      · exact ⟨valid, by simp, fun _ => rfl⟩
      · exact ok.entries e he
    · have size := Contents.size_insertIdx inside ⟨key, [value]⟩
      simp only [Entry.size, List.flatten_cons, List.flatten_nil, List.append_nil] at size
      dsimp only
      rw [size, ok.used]
      omega
  | @overwritten i j e old value plain stood was within room =>
    have proper := ok.entries e (List.mem_of_getElem? stood)
    obtain ⟨first, only⟩ := List.length_eq_one_iff.mp (proper.single plain)
    -- The one value stands first, so that its bytes are the ones given back.
    have same : first = old := by
      rw [only, List.getElem?_singleton] at was
      split at was
      · exact Option.some.inj was
      · cases was
    subst same
    refine ⟨fun e' he => ?_, ?_, room⟩
    · obtain he | rfl := List.mem_or_eq_of_mem_set he
      · exact ok.entries e' he
      · exact ⟨proper.key, by simp [only], fun _ => by simp [only]⟩
    · have size := Contents.size_set stood { e with values := e.values.set 0 value }
      simp only [Entry.size, only, List.set_cons_zero, List.flatten_cons, List.flatten_nil,
        List.append_nil] at size
      have used := ok.used
      simp only [only, List.set_cons_zero]
      omega
  | @changed i used e values sorted stood left counted room =>
    refine ⟨fun e' he => ?_, ?_, ?_⟩
    · obtain he | rfl := List.mem_or_eq_of_mem_set he
      · exact ok.entries e' he
      · refine ⟨(ok.entries e (List.mem_of_getElem? stood)).key, left, fun plain => ?_⟩
        rw [sorted] at plain
        cases plain
    · have size := Contents.size_set stood { e with values }
      simp only [Entry.size] at size
      have used := ok.used
      dsimp only
      omega
    · obtain less | room := room
      · exact Nat.le_trans less ok.room
      · exact room
  | @dropped i e stood within =>
    refine ⟨fun e' he => ok.entries e' (List.mem_of_mem_eraseIdx he), ?_,
      Nat.le_trans (Nat.sub_le _ _) ok.room⟩
    have size := Contents.size_eraseIdx stood
    have used := ok.used
    dsimp only
    omega

theorem Edits.accounted (edits : Edits layout limit h h') (ok : Accounted layout limit rest h) :
    Accounted layout limit rest h' := by
  induction edits with
  | refl => exact ok
  | tail _ edit ih => exact edit.accounted ih

end

/-! ## The edits that writes make -/

section
variable {layout : Layout} {limit : Nat} {h h' : Holding}

theorem Change.edits {may : Question → Ordering → Prop} (change : Change may layout limit h h') :
    Edits layout limit h h' := by
  cases change with
  | kept => exact .refl
  | added _ valid inside room => exact .single (.added valid inside room)
  | overwritten plain stood was within room =>
    exact .single (.overwritten plain stood was within room)
  | @joined i j e value sorted stood _ inside room _ =>
    have longer := List.length_insertIdx_of_le_length inside value
    have bytes := length_flatten_insertIdx inside value
    exact .single (.changed sorted stood (List.ne_nil_of_length_pos (by omega)) (by omega)
      (.inr room))
  | @replaced i j k e old value sorted stood was _ inside within room _ =>
    have longer := List.length_insertIdx_of_le_length inside value
    have bytes := length_flatten_eraseIdx was
    have more := length_flatten_insertIdx inside value
    exact .single (.changed sorted stood (List.ne_nil_of_length_pos (by omega)) (by omega)
      (.inr room))
  | parted sorted stood was left within =>
    have bytes := length_flatten_eraseIdx was
    exact .single (.changed sorted stood left (by omega) (.inl (Nat.sub_le _ _)))
  | dropped stood within => exact .single (.dropped stood within)

theorem Changes.edits {may : Question → Ordering → Prop} (changes : Changes may layout limit h h') :
    Edits layout limit h h' := by
  induction changes with
  | refl => exact .refl
  | tail _ change ih => exact ih.trans change.edits

end

end Holding

end CollatedStore
