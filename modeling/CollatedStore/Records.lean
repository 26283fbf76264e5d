import CollatedStore.Work

/-!
Pages of records of one size, laid end to end.
-/
namespace CollatedStore

namespace Records

/-- The whole records at the front of a page; what is left over is no record. -/
def split (stride : Nat) (page : Bytes) : List Bytes :=
  (List.range (page.length / stride)).map fun i => (page.drop (i * stride)).take stride

/-- The number of whole records, which a stride of zero leaves without a meaning. -/
def count (stride : Nat) (page : Bytes) : Except Breach Nat :=
  if stride = 0 then .error .divideByZero else .ok (page.length / stride)

end Records

/-- A page that has been found to hold at least `count` whole records. -/
structure Batch where
  page : Bytes
  stride : Nat
  count : Nat
  fits : count * stride ≤ page.length

namespace Batch

/-- Takes a page that is all records. An empty page holds none, whatever the stride. -/
def ofPage? (page : Bytes) (stride : Nat) : Option Batch :=
  if page.isEmpty then some ⟨page, stride, 0, by simp⟩
  else if stride ≠ 0 ∧ page.length % stride = 0 then
    some ⟨page, stride, page.length / stride, Nat.div_mul_le_self _ _⟩
  else none

def size (b : Batch) : Nat := b.count * b.stride

/-- The bytes of the records. -/
def bytes (b : Batch) : Bytes := b.page.take b.size

def get? (b : Batch) (i : Nat) : Option Bytes :=
  if i < b.count then some ((b.bytes.drop (i * b.stride)).take b.stride) else none

def records (b : Batch) : List Bytes := (List.range b.count).filterMap b.get?

/-- The same page cut down to its first `count` records. -/
def shorten (b : Batch) (count : Nat) (h : count ≤ b.count) : Batch :=
  { b with count, fits := Nat.le_trans (Nat.mul_le_mul_right _ h) b.fits }

end Batch

end CollatedStore
