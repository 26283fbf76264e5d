import CollatedStore.Proofs.Foreign
import CollatedStore.Proofs.Records

/-!
Pages that are split without loss. A page is described as a batch where it is all records, to foreign
code as well, and the batch and the plain splitter cut it into the same pieces.
-/
namespace CollatedStore

namespace Batch

variable {page : Bytes} {stride : Nat}

theorem ofPage?_describes {b : Batch} (taken : ofPage? page stride = some b) :
    b.Describes (Records.split stride page) := by
  obtain ⟨rfl, rfl, count⟩ := ofPage?_eq_some taken
  rw [Records.split_eq_front, ← count]
  exact b.describes

theorem flatten_of_ofPage? {b : Batch} (taken : ofPage? page stride = some b) :
    (Records.split stride page).flatten = page := by
  rw [Records.flatten_split]
  obtain rfl | ⟨-, whole⟩ := ofPage?_isSome_iff.mp (Option.isSome_of_eq_some taken)
  · exact List.take_nil
  · rw [Nat.div_mul_cancel whole, List.take_length]

theorem split_shorten {b : Batch} (taken : ofPage? page stride = some b) {fewer : Nat}
    (h : fewer ≤ b.count) :
    (b.shorten fewer h).Describes ((Records.split stride page).take fewer) := by
  obtain ⟨rfl, rfl, count⟩ := ofPage?_eq_some taken
  rw [Records.split_eq_front, ← count]
  exact b.shorten_describes h

/-- How a page is split into records of one size. -/
structure SplitWithoutLoss (page : Bytes) (stride : Nat) : Prop where
  /-- It becomes a batch if nothing is left over. -/
  accepted : (ofPage? page stride).isSome = true ↔ page = [] ∨ stride ≠ 0 ∧ stride ∣ page.length
  /-- Foreign code is told the size and number of the records of the same pages, whatever lies behind
  the page and whatever was told before. -/
  told : ∀ (beyond : Bytes) (host : Host),
    Foreign.wrapPage (some (page ++ beyond)) page.length stride true host =
      match ofPage? page stride with
      | some b => (.ok, some (b.stride, b.count), { host with lastError := none })
      | none => (.invalidArgument, none,
          { host with lastError := some (CallError.incongruentPage page.length stride).text })
  /-- An empty page need not be there. -/
  absent : page = [] → ∀ host : Host,
    Foreign.wrapPage none 0 stride true host = (.ok, some (stride, 0), { host with lastError := none })
  described : ∀ b, ofPage? page stride = some b →
    b.stride = stride ∧ b.Describes (Records.split stride page) ∧ b.bytes = page
  /-- A batch cut short has its first records, and no others. -/
  shortened : ∀ b, ofPage? page stride = some b → ∀ (fewer : Nat) (h : fewer ≤ b.count),
    (b.shorten fewer h).Describes ((Records.split stride page).take fewer)
  /-- The plain splitter leaves only what is less than a record. -/
  split : stride ≠ 0 → Records.count stride page = .ok (Records.split stride page).length ∧
    (∀ piece ∈ Records.split stride page, piece.length = stride) ∧
    Records.Longest stride page (Records.split stride page).flatten

/-- **Pages are split without loss**, whatever their length and that of the records. -/
theorem pages_split_without_loss (page : Bytes) (stride : Nat) : SplitWithoutLoss page stride := by
  constructor
  case accepted => exact ofPage?_isSome_iff
  case told =>
    intro beyond host
    exact Foreign.wrapPage_eq (.inl rfl) (List.take_left' rfl) stride host
  case absent =>
    rintro rfl host
    exact Foreign.wrapPage_eq (.inr rfl) rfl stride host
  case described =>
    intro b taken
    have describes := ofPage?_describes taken
    exact ⟨(ofPage?_eq_some taken).2.1, describes,
      describes.bytes.trans (flatten_of_ofPage? taken)⟩
  case shortened => exact fun b taken fewer h => split_shorten taken h
  case split =>
    intro some_size
    refine ⟨?_, Records.length_of_mem_split,
      Records.longest_split (Nat.pos_of_ne_zero some_size) page⟩
    rw [Records.count, if_neg some_size, Records.length_split]

/-- Three records, of which two are left, and a page with a byte too much. -/
theorem pages_split_without_loss_by_two :
    (∃ b : Batch, ofPage? [1, 2, 3, 4, 5, 6] 2 = some b ∧ b.records = [[1, 2], [3, 4], [5, 6]] ∧
      ∃ h, (b.shorten 2 h).bytes = [1, 2, 3, 4] ∧ (b.shorten 2 h).get? 2 = none) ∧
    ofPage? [1, 2, 3, 4, 5] 2 = none ∧ (Records.split 2 [1, 2, 3, 4, 5]).flatten = [1, 2, 3, 4] := by
  have whole := pages_split_without_loss [1, 2, 3, 4, 5, 6] 2
  have odd := pages_split_without_loss [1, 2, 3, 4, 5] 2
  have size : (2 : Nat) ≠ 0 := by decide
  have accepted := whole.accepted.mpr (.inr ⟨size, by decide⟩)
  obtain ⟨b, taken⟩ := Option.isSome_iff_exists.mp accepted
  obtain ⟨-, described, -⟩ := whole.described b taken
  have shortened := whole.shortened b taken 2 (by rw [described.count]; decide)
  refine ⟨⟨b, taken, described.records, _, shortened.bytes, shortened.get? 2⟩, ?_, ?_⟩
  · rw [← Option.not_isSome_iff_eq_none, odd.accepted]
    decide
  · -- Of the two prefixes of the page that are all records, the longer one.
    obtain ⟨-, -, longest⟩ := odd.split size
    exact (longest.longest [1, 2, 3, 4] ⟨[5], rfl⟩ (by decide)).eq_of_length_le (by decide) |>.symm

end Batch

end CollatedStore
