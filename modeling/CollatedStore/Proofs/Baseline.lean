import CollatedStore.Descriptor
import CollatedStore.Host
import CollatedStore.Proofs.Orders

/-!
The baseline order is the lexicographic one: a string stands before its extensions, and otherwise the
first byte that differs decides. The function that every store has for it reports just that.
-/
namespace CollatedStore

namespace Bytes

/-- The first string stands before the second. -/
inductive Before : Bytes → Bytes → Prop
  | extension (a : Bytes) (x : UInt8) (more : Bytes) : Before a (a ++ x :: more)
  | differing (common : Bytes) {x y : UInt8} (less : x.toNat < y.toNat) (a b : Bytes) :
      Before (common ++ x :: a) (common ++ y :: b)

theorem Before.cons {a b : Bytes} (x : UInt8) (before : Before a b) : Before (x :: a) (x :: b) := by
  cases before with
  | extension _ y more => exact .extension (x :: a) y more
  | differing common less a b => exact .differing (x :: common) less a b

/-- What two strings have in common at the front does not tell them apart. -/
theorem compare_append (common a b : Bytes) :
    Bytes.compare (common ++ a) (common ++ b) = Bytes.compare a b := by
  induction common with
  | nil => rfl
  | cons x common ih =>
    have irreflexive : ¬ x < x := UInt8.lt_irrefl x
    rw [List.cons_append, List.cons_append, Bytes.compare, if_neg irreflexive, if_neg irreflexive, ih]

theorem before_of_compare {a b : Bytes} (less : Bytes.compare a b = .lt) : Before a b := by
  induction a generalizing b with
  | nil =>
    cases b with
    | nil => cases less
    | cons y b => exact .extension [] y b
  | cons x a ih =>
    cases b with
    | nil => cases less
    | cons y b =>
      rw [Bytes.compare] at less
      split at less
      · rename_i first
        exact .differing [] (UInt8.lt_iff_toNat_lt.mp first) a b
      split at less
      · cases less
      · rename_i not_less not_greater
        obtain rfl : x = y :=
          UInt8.le_antisymm (UInt8.not_lt.mp not_greater) (UInt8.not_lt.mp not_less)
        exact (ih less).cons x

theorem compare_eq_lt_iff {a b : Bytes} : Bytes.compare a b = .lt ↔ Before a b := by
  constructor
  · exact before_of_compare
  · intro before
    cases before with
    | extension a x more =>
      have same := compare_append a [] (x :: more)
      rw [List.append_nil] at same
      rw [same, Bytes.compare]
    | differing common less a b =>
      rw [compare_append, Bytes.compare, if_pos (UInt8.lt_iff_toNat_lt.mpr less)]

theorem compare_eq_eq_iff {a b : Bytes} : Bytes.compare a b = .eq ↔ a = b := by
  rw [compare_eq_compareLex]
  exact Std.LawfulEqCmp.compare_eq_iff_eq

end Bytes

namespace Order

theorem toCode_swap (o : Ordering) : toCode o.swap = -toCode o := by
  cases o <;> rfl

theorem toCode_cases (o : Ordering) : toCode o = -1 ∨ toCode o = 0 ∨ toCode o = 1 := by
  cases o <;> decide

theorem toCode_eq_neg_one_iff {o : Ordering} : toCode o = -1 ↔ o = .lt := by
  cases o <;> decide

theorem toCode_eq_zero_iff {o : Ordering} : toCode o = 0 ↔ o = .eq := by
  cases o <;> decide

theorem toCode_le_zero_iff {o : Ordering} : toCode o ≤ 0 ↔ o.isLE = true := by
  cases o <;> decide

/-- A function that reports how the strings behind two descriptors stand lexicographically. -/
structure Lexicographic (report : Option Descriptor → Option Descriptor → Int32) : Prop where
  sign : ∀ a b, report a b = -1 ∨ report a b = 0 ∨ report a b = 1
  equal : ∀ a b, report a b = 0 ↔ Descriptor.bytesOf a = Descriptor.bytesOf b
  before : ∀ a b, report a b = -1 ↔ Bytes.Before (Descriptor.bytesOf a) (Descriptor.bytesOf b)
  antisymmetric : ∀ a b, report b a = -report a b
  transitive : ∀ a b c, report a b ≤ 0 → report b c ≤ 0 → report a c ≤ 0
  /-- A descriptor that is missing or has no address stands for the empty string. -/
  missing : ∀ d, d = none ∨ (∃ size, d = some (.null size)) → ∀ other,
    report d other = report (some (.filled [])) other ∧
      report other d = report other (some (.filled []))

theorem baseline_lexicographic : Lexicographic fun a b =>
    toCode (baseline (Descriptor.bytesOf a) (Descriptor.bytesOf b)) where
  sign _ _ := toCode_cases _
  equal _ _ := toCode_eq_zero_iff.trans Bytes.compare_eq_eq_iff
  before _ _ := toCode_eq_neg_one_iff.trans Bytes.compare_eq_lt_iff
  antisymmetric a b := by
    have swapped : baseline (Descriptor.bytesOf b) (Descriptor.bytesOf a) =
        (baseline (Descriptor.bytesOf a) (Descriptor.bytesOf b)).swap := Std.OrientedCmp.eq_swap
    rw [swapped, toCode_swap]
  transitive a b c first second := by
    rw [toCode_le_zero_iff] at first second ⊢
    exact Std.TransCmp.isLE_trans first second
  missing := by
    rintro _ (rfl | ⟨size, rfl⟩) other <;> exact ⟨rfl, rfl⟩

/-- **The baseline order is the lexicographic one.** The function for it, called on any two
descriptors and whatever the host has registered, parked or told, reports the sign of the order and
leaves all else as it is. -/
theorem baseline_is_the_lexicographic_order (host : Host) :
    ∃ report : Option Descriptor → Option Descriptor → Int32, Lexicographic report ∧
      (∀ a b, Session.callFn .baseline (Descriptor.bytesOf a) (Descriptor.bytesOf b) host =
        some (report a b, host)) ∧
      ∀ a b, report a b = toCode (baseline (Descriptor.bytesOf a) (Descriptor.bytesOf b)) := by
  refine ⟨_, baseline_lexicographic, ?_, ?_⟩
  · intro a b
    rfl
  · intro a b
    rfl

end Order

end CollatedStore
