import CollatedStore.Readers
import Mathlib.Data.List.Perm.Subperm

/-!
The reader table, slot by slot: what taking the lowest free slot and giving a slot back change, when
there is none to take, and which slots the lines of a listing follow.
-/
namespace CollatedStore.Readers

variable {r r' : Readers} {i : Nat} {reader : Reader}

/-- What a slot holds. One that was never used is as free as one that was given back. -/
def at? (r : Readers) (i : Nat) : Option Reader := r.slots[i]?.join

/-- The thread that reads from a slot. -/
def thread (r : Readers) (i : Nat) : Nat := (r.at? i).elim 0 Reader.thread

/-- No slot beyond the capacity was ever used. -/
def Within (r : Readers) : Prop := r.slots.length ≤ r.capacity

theorem at?_eq_some_iff : r.at? i = some reader ↔ r.slots[i]? = some (some reader) := by
  simp only [at?, Option.join_eq_some_iff]

theorem lt_capacity (within : r.Within) (taken : r.at? i = some reader) : i < r.capacity := by
  obtain ⟨used, _⟩ := List.getElem?_eq_some_iff.mp (at?_eq_some_iff.mp taken)
  exact Nat.lt_of_lt_of_le used within

@[simp] theorem at?_new (capacity : Nat) : (Readers.new capacity).at? i = none := rfl

theorem new_within (capacity : Nat) : (Readers.new capacity).Within := Nat.zero_le _

/-! ## Taking a slot and giving it back -/

theorem at?_set (r : Readers) (used : i < r.slots.length) (x : Option Reader) (j : Nat) :
    ({ r with slots := r.slots.set i x } : Readers).at? j = if j = i then x else r.at? j := by
  simp only [at?, List.getElem?_set]
  by_cases own : i = j
  · subst own
    simp [used]
  · simp [own, Ne.symm own]

theorem at?_release (r : Readers) (i j : Nat) :
    (r.release i).at? j = if j = i then none else r.at? j := by
  by_cases used : i < r.slots.length
  · exact at?_set r used none j
  · -- A slot that was never used stays unused.
    have unused : r.at? i = none := by simp [at?, Nat.le_of_not_lt used]
    rw [release, List.set_eq_of_length_le (Nat.le_of_not_lt used)]
    split
    · rename_i own; rw [own]; exact unused
    · rfl

theorem release_within (within : r.Within) (i : Nat) : (r.release i).Within := by
  simpa [Within, release] using within

/-- The lowest free slot `i` is taken for `reader`, and no other slot changes. -/
structure Acquired (r : Readers) (reader : Reader) (i : Nat) (r' : Readers) : Prop where
  lower : ∀ j, j < i → r.at? j ≠ none
  free : r.at? i = none
  after : ∀ j, r'.at? j = if j = i then some reader else r.at? j
  capacity : r'.capacity = r.capacity

theorem acquired (h : r.acquire reader = some (i, r')) : Acquired r reader i r' := by
  unfold acquire at h
  split at h
  · rename_i k found
    cases h
    obtain ⟨used, free, lower⟩ := List.findIdx?_eq_some_iff_getElem.mp found
    constructor
    case lower =>
      intro j below
      have taken := lower j below
      rw [at?, List.getElem?_eq_getElem (Nat.lt_trans below used)]
      simpa using taken
    case free =>
      rw [at?, List.getElem?_eq_getElem used]
      simpa using free
    case after => exact at?_set r used (some reader)
    case capacity => rfl
  · rename_i none_free
    split at h
    · cases h
      constructor
      case lower =>
        intro j below
        have taken := List.findIdx?_eq_none_iff.mp none_free _ (List.getElem_mem below)
        rw [at?, List.getElem?_eq_getElem below]
        simpa [Option.isSome_iff_ne_none] using taken
      case free => simp [at?]
      case after =>
        intro j
        simp only [at?, List.getElem?_append]
        by_cases below : j < r.slots.length
        · simp [below, Nat.ne_of_lt below]
        · by_cases own : j = r.slots.length
          · simp [own]
          · have past : [some reader][j - r.slots.length]? = none :=
              List.getElem?_eq_none (by simp only [List.length_singleton]; omega)
            simp [below, own, past]
      case capacity => rfl
    · cases h

theorem acquired_within (within : r.Within) (h : r.acquire reader = some (i, r')) :
    r'.Within := by
  unfold acquire at h
  split at h
  · cases h
    simpa [Within] using within
  · split at h
    · rename_i room
      cases h
      simpa [Within] using Nat.succ_le_of_lt room
    · cases h

/-- There is no slot to take exactly when all are taken. -/
theorem acquire_eq_none_iff (within : r.Within) :
    r.acquire reader = none ↔ ∀ j, j < r.capacity → r.at? j ≠ none := by
  constructor
  · intro refused j below
    unfold acquire at refused
    split at refused
    · cases refused
    · rename_i none_free
      split at refused
      · cases refused
      · rename_i no_room
        have used : j < r.slots.length := by omega
        have taken := List.findIdx?_eq_none_iff.mp none_free _ (List.getElem_mem used)
        rw [at?, List.getElem?_eq_getElem used]
        simpa [Option.isSome_iff_ne_none] using taken
  · intro full
    cases h : r.acquire reader with
    | none => rfl
    | some taken =>
      obtain ⟨i, r'⟩ := taken
      have got := acquired h
      have own : r'.at? i = some reader := by rw [got.after, if_pos rfl]
      have below : i < r'.capacity := lt_capacity (acquired_within within h) own
      exact absurd got.free (full i (got.capacity ▸ below))

/-! ## The slots taken, in order -/

/-- Every slot taken, with what it holds. -/
def taken (r : Readers) : List (Nat × Reader) :=
  (List.range r.slots.length).filterMap fun i => (r.at? i).map (i, ·)

theorem mem_taken : (i, reader) ∈ r.taken ↔ r.at? i = some reader := by
  simp only [taken, List.mem_filterMap, List.mem_range, Option.map_eq_some_iff, Prod.mk.injEq]
  constructor
  · rintro ⟨j, _, _, holds, rfl, rfl⟩
    exact holds
  · intro holds
    obtain ⟨used, _⟩ := List.getElem?_eq_some_iff.mp (at?_eq_some_iff.mp holds)
    exact ⟨i, used, reader, holds, rfl, rfl⟩

theorem taken_increasing (r : Readers) : r.taken.Pairwise fun x y => x.1 < y.1 := by
  refine List.pairwise_filterMap.mpr (List.pairwise_lt_range.imp ?_)
  intro i j less x hx y hy
  obtain ⟨_, _, rfl⟩ := Option.map_eq_some_iff.mp hx
  obtain ⟨_, _, rfl⟩ := Option.map_eq_some_iff.mp hy
  exact less

theorem slots_eq_map (r : Readers) : r.slots = (List.range r.slots.length).map r.at? := by
  refine List.ext_getElem (by simp) fun i used _ => ?_
  simp [at?, used]

theorem held_eq (r : Readers) : r.slots.filterMap id = r.taken.map Prod.snd := by
  rw [slots_eq_map, List.filterMap_map, taken, List.map_filterMap]
  simp [Function.comp_def]

/-- The lines follow the slots taken. -/
theorem lines_eq (owner : String) (r : Readers) :
    r.lines owner = r.taken.map fun x => line owner x.2 := by
  rw [lines, held_eq, List.map_map]
  rfl

theorem active_eq (r : Readers) : r.active = r.taken.length := by
  have counted := congrArg List.length r.held_eq
  rw [List.length_map, List.length_filterMap_eq_countP] at counted
  exact counted

theorem taken_distinct (r : Readers) : (r.taken.map Prod.fst).Nodup := by
  refine List.pairwise_map.mpr (r.taken_increasing.imp ?_)
  intro x y less
  exact Nat.ne_of_lt less

theorem mem_taken_slots : i ∈ r.taken.map Prod.fst ↔ r.at? i ≠ none := by
  rw [Option.ne_none_iff_exists', List.mem_map]
  constructor
  · rintro ⟨⟨i, reader⟩, there, rfl⟩
    exact ⟨reader, mem_taken.mp there⟩
  · rintro ⟨reader, holds⟩
    exact ⟨(i, reader), mem_taken.mpr holds, rfl⟩

/-- As many slots are taken as there are exactly when every one is. -/
theorem full_iff (within : r.Within) :
    r.taken.length = r.capacity ↔ ∀ j, j < r.capacity → r.at? j ≠ none := by
  have bounded : r.taken.map Prod.fst ⊆ List.range r.capacity := by
    intro j there
    obtain ⟨_, holds⟩ := Option.ne_none_iff_exists'.mp (mem_taken_slots.mp there)
    exact List.mem_range.mpr (lt_capacity within holds)
  have fewer := List.subperm_of_subset r.taken_distinct bounded
  constructor
  · intro all j below
    have every := fewer.perm_of_length_le (by simp [all])
    exact mem_taken_slots.mp (every.mem_iff.mpr (List.mem_range.mpr below))
  · intro every
    have more : List.range r.capacity ⊆ r.taken.map Prod.fst := by
      intro j below
      exact mem_taken_slots.mpr (every j (List.mem_range.mp below))
    have least := fewer.length_le
    have most := (List.subperm_of_subset List.nodup_range more).length_le
    simp only [List.length_map, List.length_range] at least most
    exact Nat.le_antisymm least most

/-- A line ends with the number of the snapshot that is read. -/
theorem line_ends (owner : String) (reader : Reader) :
    ∃ start, line owner reader = start ++ (" " ++ toString reader.txnId ++ "\n") :=
  ⟨"".pushn ' ' (10 - owner.length) ++ owner ++ " " ++
    String.ofList (Nat.toDigits 16 reader.thread), by simp only [line, String.append_assoc]⟩

end CollatedStore.Readers
