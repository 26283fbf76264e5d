import CollatedStore.Records
import Mathlib.Data.List.Basic

/-!
Records cut from the front of a page. Joined again they are what the page begins with, as far as its
whole records go.
-/
namespace CollatedStore

namespace Records

variable {count stride : Nat} {page : Bytes}

/-- The first `count` records of a page. -/
def front (count stride : Nat) (page : Bytes) : List Bytes :=
  (List.range count).map fun i => (page.drop (i * stride)).take stride

theorem split_eq_front (stride : Nat) (page : Bytes) :
    split stride page = front (page.length / stride) stride page := rfl

theorem length_front (count stride : Nat) (page : Bytes) :
    (front count stride page).length = count := by
  simp [front]

/-- A page that holds as many records as asked for is not read past its end. -/
theorem length_of_mem_front (fits : count * stride ≤ page.length) :
    ∀ record ∈ front count stride page, record.length = stride := by
  intro record there
  obtain ⟨i, among, rfl⟩ := List.mem_map.mp there
  have inside : (i + 1) * stride ≤ count * stride :=
    Nat.mul_le_mul_right stride (List.mem_range.mp among)
  rw [Nat.succ_mul] at inside
  rw [List.length_take, List.length_drop]
  omega

theorem getElem?_front (count stride : Nat) (page : Bytes) (i : Nat) :
    (front count stride page)[i]? =
      if i < count then some ((page.drop (i * stride)).take stride) else none := by
  by_cases among : i < count <;> simp [front, among]

theorem take_front {fewer : Nat} (h : fewer ≤ count) :
    (front count stride page).take fewer = front fewer stride page := by
  rw [front, ← List.map_take, List.take_range, Nat.min_eq_left h]
  rfl

/-- The records put end to end again. -/
theorem flatten_front (count stride : Nat) (page : Bytes) :
    (front count stride page).flatten = page.take (count * stride) := by
  induction count with
  | zero => simp [front]
  | succ count ih =>
    have last : front (count + 1) stride page =
        front count stride page ++ [(page.drop (count * stride)).take stride] := by
      simp [front, List.range_succ]
    rw [last, List.flatten_append, ih, List.flatten_singleton, Nat.succ_mul, List.take_add]

theorem length_split (stride : Nat) (page : Bytes) :
    (split stride page).length = page.length / stride :=
  length_front _ stride page

theorem length_of_mem_split : ∀ record ∈ split stride page, record.length = stride :=
  length_of_mem_front (Nat.div_mul_le_self _ _)

theorem flatten_split (stride : Nat) (page : Bytes) :
    (split stride page).flatten = page.take (page.length / stride * stride) :=
  flatten_front _ stride page

/-- A page that is not empty and all records holds one at least. -/
theorem split_ne_nil (filled : page ≠ []) (whole : stride ∣ page.length) :
    split stride page ≠ [] := by
  have pos := Nat.div_pos (Nat.le_of_dvd (List.length_pos_iff.mpr filled) whole)
    (Nat.pos_of_dvd_of_pos whole (List.length_pos_iff.mpr filled))
  rw [← length_split] at pos
  exact List.length_pos_iff.mp pos

/-- Records of one size, laid end to end, are cut apart where they meet. -/
theorem split_flatten (pos : 0 < stride) {records : List Bytes}
    (uniform : ∀ r ∈ records, r.length = stride) : split stride records.flatten = records := by
  induction records with
  | nil => simp [split]
  | cons r rest ih =>
    have own : r.length = stride := uniform r List.mem_cons_self
    have more : (r ++ rest.flatten).length / stride = rest.flatten.length / stride + 1 := by
      rw [List.length_append, own, Nat.add_comm, Nat.add_div_right _ pos]
    have others : ∀ i, ((r ++ rest.flatten).drop ((i + 1) * stride)).take stride =
        (rest.flatten.drop (i * stride)).take stride := by
      intro i
      rw [Nat.succ_mul, Nat.add_comm, ← List.drop_drop, List.drop_left' own]
    have tail := ih fun r' there => uniform r' (List.mem_cons_of_mem r there)
    simp only [split] at tail
    simp only [split, List.flatten_cons, more, List.range_succ_eq_map, List.map_cons, List.map_map,
      Nat.zero_mul, List.drop_zero, List.take_left' own, Function.comp_def, Nat.succ_eq_add_one,
      others, tail]

/-- What a page begins with, as far as it is made of whole records. -/
structure Longest (stride : Nat) (page joined : Bytes) : Prop where
  begins : joined <+: page
  whole : stride ∣ joined.length
  longest : ∀ other, other <+: page → stride ∣ other.length → other <+: joined

theorem longest_split (pos : 0 < stride) (page : Bytes) :
    Longest stride page (split stride page).flatten := by
  have length : (split stride page).flatten.length = page.length / stride * stride := by
    rw [flatten_split, List.length_take, Nat.min_eq_left (Nat.div_mul_le_self _ _)]
  have begins : (split stride page).flatten <+: page := by
    rw [flatten_split]
    exact List.take_prefix _ page
  constructor
  case begins => exact begins
  case whole => exact length ▸ Nat.dvd_mul_left stride _
  case longest =>
    rintro other front ⟨n, whole⟩
    refine List.prefix_of_prefix_length_le front begins ?_
    have fits : n * stride ≤ page.length := by
      rw [Nat.mul_comm, ← whole]
      exact front.length_le
    rw [length, whole, Nat.mul_comm]
    exact Nat.mul_le_mul_right stride ((Nat.le_div_iff_mul_le pos).mpr fits)

end Records

namespace Batch

variable {page : Bytes} {stride : Nat} {b : Batch}

/-- Only a page that is all records is taken, and then all of its records are counted. -/
theorem ofPage?_eq_some : ofPage? page stride = some b →
    b.page = page ∧ b.stride = stride ∧ b.count = page.length / stride := by
  intro taken
  unfold ofPage? at taken
  split at taken
  · rename_i empty
    cases taken
    rw [List.isEmpty_iff.mp empty]
    exact ⟨rfl, rfl, (Nat.zero_div stride).symm⟩
  split at taken
  · cases taken
    exact ⟨rfl, rfl, rfl⟩
  · cases taken

theorem ofPage?_isSome_iff :
    (ofPage? page stride).isSome = true ↔ page = [] ∨ stride ≠ 0 ∧ stride ∣ page.length := by
  unfold ofPage?
  split
  · rename_i empty
    exact iff_of_true rfl (.inl (List.isEmpty_iff.mp empty))
  · rename_i filled
    have filled : page ≠ [] := by simpa using filled
    rw [Nat.dvd_iff_mod_eq_zero]
    split
    · rename_i whole
      exact iff_of_true rfl (.inr whole)
    · rename_i odd
      exact iff_of_false nofun fun accepted => odd (accepted.resolve_left filled)

/-- A page that is not empty and all records is taken as it is. -/
theorem ofPage?_whole (filled : page ≠ []) (whole : stride ∣ page.length) :
    ∃ batch, ofPage? page stride = some batch ∧ batch.count = page.length / stride := by
  have pos : stride ≠ 0 :=
    Nat.ne_of_gt (Nat.pos_of_dvd_of_pos whole (List.length_pos_iff.mpr filled))
  obtain ⟨batch, taken⟩ :=
    Option.isSome_iff_exists.mp (ofPage?_isSome_iff.mpr (.inr ⟨pos, whole⟩))
  exact ⟨batch, taken, (ofPage?_eq_some taken).2.2⟩

/-- The batch counts, lists and finds just these pieces, each of its own size, and its bytes are
theirs. Past the last one nothing is found. -/
structure Describes (b : Batch) (pieces : List Bytes) : Prop where
  count : b.count = pieces.length
  sizes : ∀ piece ∈ pieces, piece.length = b.stride
  records : b.records = pieces
  get? : ∀ i, b.get? i = pieces[i]?
  bytes : b.bytes = pieces.flatten

/-- A record is read from the page as from the bytes that are described. -/
theorem get?_eq (b : Batch) (i : Nat) :
    b.get? i = (Records.front b.count b.stride b.page)[i]? := by
  rw [get?, Records.getElem?_front]
  split
  · rename_i among
    have inside : (i + 1) * b.stride ≤ b.count * b.stride :=
      Nat.mul_le_mul_right b.stride among
    rw [Nat.succ_mul] at inside
    rw [bytes, size, List.drop_take, List.take_take, Nat.min_eq_left (by omega)]
  · rfl

theorem describes (b : Batch) : b.Describes (Records.front b.count b.stride b.page) := by
  constructor
  case count => exact (Records.length_front b.count b.stride b.page).symm
  case sizes => exact Records.length_of_mem_front b.fits
  case get? => exact b.get?_eq
  case bytes => exact (Records.flatten_front b.count b.stride b.page).symm
  case records =>
    have read : ∀ i ∈ List.range b.count,
        b.get? i = some ((b.page.drop (i * b.stride)).take b.stride) := by
      intro i among
      rw [b.get?_eq, Records.getElem?_front, if_pos (List.mem_range.mp among)]
    rw [records, Records.front, ← List.filterMap_eq_map]
    exact List.filterMap_congr read

/-- The first records of a batch that is cut short. -/
theorem shorten_describes (b : Batch) {fewer : Nat} (h : fewer ≤ b.count) :
    (b.shorten fewer h).Describes ((Records.front b.count b.stride b.page).take fewer) := by
  rw [Records.take_front h]
  exact describes (b.shorten fewer h)

end Batch

end CollatedStore
