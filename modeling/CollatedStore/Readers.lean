/-!
The table of active readers. A slot tells which thread reads, and the number of the snapshot that it
reads.
-/
namespace CollatedStore

/-- Who sits in a slot. Threads are numbered in the order in which they first begin to read. -/
structure Reader where
  thread : Nat
  txnId : Nat
  deriving DecidableEq, Repr

/-- The slots used so far, of `capacity` in all. -/
structure Readers where
  capacity : Nat
  slots : List (Option Reader)
  deriving DecidableEq, Repr

namespace Readers

/-- The bytes that a slot takes. -/
def slotSize : Nat := 32

/-- The most bytes that a table may take: what a signed word can count. -/
def maxSize : Nat := 9223372036854775807

/-- All slots of a table are there from the start, so that it has to fit as a whole. -/
def fits (capacity : Nat) : Bool := decide (capacity * slotSize ≤ maxSize)

def new (capacity : Nat) : Readers := ⟨capacity, []⟩

/-- Takes the lowest free slot. -/
def acquire (r : Readers) (reader : Reader) : Option (Nat × Readers) :=
  match r.slots.findIdx? Option.isNone with
  | some i => some (i, { r with slots := r.slots.set i (some reader) })
  | none =>
    if r.slots.length < r.capacity then
      some (r.slots.length, { r with slots := r.slots ++ [some reader] })
    else none

def release (r : Readers) (i : Nat) : Readers := { r with slots := r.slots.set i none }

def active (r : Readers) : Nat := r.slots.countP Option.isSome

/-- The owner of the process in ten columns, the thread in base sixteen, the snapshot. -/
def line (owner : String) (reader : Reader) : String :=
  "".pushn ' ' (10 - owner.length) ++ owner ++ " " ++
    String.ofList (Nat.toDigits 16 reader.thread) ++ " " ++ toString reader.txnId ++ "\n"

/-- One line for each reader, in the order of the slots. -/
def lines (owner : String) (r : Readers) : List String :=
  (r.slots.filterMap id).map (line owner)

end Readers

end CollatedStore
