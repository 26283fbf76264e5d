import CollatedStore.Order

/-!
Orders that are total preorders.
-/
namespace CollatedStore

theorem Bytes.compare_eq_compareLex (a b : Bytes) :
    Bytes.compare a b = List.compareLex Ord.compare a b := by
  induction a generalizing b with
  | nil => cases b <;> rfl
  | cons x xs ih =>
    cases b with
    | nil => rfl
    | cons y ys =>
      rw [Bytes.compare, List.compareLex_cons_cons, ih ys]
      show _ = (compareOfLessAndEq x y).then _
      unfold compareOfLessAndEq
      by_cases less : x < y
      · simp [less]
      · by_cases greater : y < x
        · have differ : x ≠ y := fun same => less (same ▸ greater)
          simp [less, greater, differ]
        · have same : x = y := UInt8.le_antisymm (UInt8.not_lt.mp greater) (UInt8.not_lt.mp less)
          simp [same]

namespace Order

instance : Std.TransCmp Order.baseline := by
  have same : Order.baseline = List.compareLex Ord.compare :=
    funext fun a => funext fun b => Bytes.compare_eq_compareLex a b
  rw [same]
  infer_instance

instance : Std.TransCmp Order.length :=
  inferInstanceAs (Std.TransCmp (compareOn List.length))

/-- The baseline order of what is made of the strings. -/
theorem transCmp_on (f : Bytes → Bytes) : Std.TransCmp fun a b => baseline (f a) (f b) where
  eq_swap {a b} := @Std.OrientedCmp.eq_swap _ baseline _ (f a) (f b)
  isLE_trans {a b c} := @Std.TransCmp.isLE_trans _ baseline _ (f a) (f b) (f c)

instance : Std.TransCmp Order.suffix := transCmp_on List.reverse

instance : Std.TransCmp Order.nocase := transCmp_on (List.map lowerByte)

end Order

end CollatedStore
