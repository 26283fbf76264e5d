import CollatedStore.Work

/-!
Binary search over a list that is in order as far as its comparisons can tell. The questions come
in a fixed sequence, so that an order that contradicts itself still leads to one answer.
-/
namespace CollatedStore

/-- Where a search ended: on an equal item, or at the place where one belongs. -/
inductive Spot where
  | found (index : Nat)
  | absent (index : Nat)
  deriving DecidableEq, Repr

namespace Search

/-- Halves the `size` candidates that start at `base` until one is left. A candidate that is not
greater than the wanted item becomes the new base. -/
def narrow (probe : Nat → Work Ordering) : (fuel base size : Nat) → Work Nat
  | 0, base, _ => pure base
  | fuel + 1, base, size =>
    if size ≤ 1 then pure base
    else do
      let o ← probe (base + size / 2)
      narrow probe fuel (if o = .gt then base else base + size / 2) (size - size / 2)

/-- `against` tells how an item stands to the wanted one. -/
def locate {α : Type} (xs : List α) (against : α → Work Ordering) : Work Spot :=
  if xs.isEmpty then pure (.absent 0)
  else do
    let probe := fun i => do against (← Work.itemAt xs i)
    let base ← narrow probe xs.length 0 xs.length
    match ← probe base with
    | .eq => return .found base
    | .lt => return .absent (base + 1)
    | .gt => return .absent base

end Search

end CollatedStore
