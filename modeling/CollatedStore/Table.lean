/-!
Finite tables: a value for each of some keys, no key twice.
-/
namespace CollatedStore

structure Table (κ α : Type) where
  pairs : List (κ × α)
  distinct : (pairs.map Prod.fst).Nodup

namespace Table

variable {κ α : Type}

def empty : Table κ α := ⟨[], .nil⟩

def keys (t : Table κ α) : List κ := t.pairs.map Prod.fst

def values (t : Table κ α) : List α := t.pairs.map Prod.snd

def size (t : Table κ α) : Nat := t.pairs.length

/-- Keeps the pairs that satisfy `p`. -/
def filter (t : Table κ α) (p : κ → α → Bool) : Table κ α where
  pairs := t.pairs.filter fun x => p x.1 x.2
  distinct := t.distinct.sublist (List.filter_sublist.map _)

variable [DecidableEq κ]

def get? (t : Table κ α) (k : κ) : Option α := t.pairs.lookup k

def contains (t : Table κ α) (k : κ) : Bool := (t.get? k).isSome

def erase (t : Table κ α) (k : κ) : Table κ α := t.filter fun j _ => decide (j ≠ k)

def insert (t : Table κ α) (k : κ) (a : α) : Table κ α where
  pairs := (k, a) :: (t.erase k).pairs
  distinct := by
    refine List.nodup_cons.mpr ⟨?_, (t.erase k).distinct⟩
    simp [erase, filter]

theorem lookup_filter_ne (pairs : List (κ × α)) {j k : κ} (h : j ≠ k) :
    (pairs.filter fun x => decide (x.1 ≠ k)).lookup j = pairs.lookup j := by
  induction pairs with
  | nil => rfl
  | cons x xs ih =>
    obtain ⟨i, a⟩ := x
    rw [List.filter_cons, List.lookup_cons]
    by_cases hi : i = k
    · subst hi
      have hj : (j == i) = false := by simpa using h
      simpa only [ne_eq, not_true_eq_false, decide_false, Bool.false_eq_true, if_false, hj]
        using ih
    · simp only [hi, ne_eq, not_false_eq_true, decide_true, if_true, List.lookup_cons]
      cases j == i
      · exact ih
      · rfl

@[simp] theorem get?_insert_self (t : Table κ α) (k : κ) (a : α) :
    (t.insert k a).get? k = some a := by
  simp [get?, insert]

@[simp] theorem get?_insert_of_ne (t : Table κ α) (a : α) {j k : κ} (h : j ≠ k) :
    (t.insert k a).get? j = t.get? j := by
  have hj : (j == k) = false := by simpa using h
  simp only [get?, insert, List.lookup_cons, hj]
  exact lookup_filter_ne t.pairs h

@[simp] theorem get?_erase_of_ne (t : Table κ α) {j k : κ} (h : j ≠ k) :
    (t.erase k).get? j = t.get? j :=
  lookup_filter_ne t.pairs h

@[simp] theorem get?_erase_self (t : Table κ α) (k : κ) : (t.erase k).get? k = none := by
  simp only [get?, erase, filter, List.lookup_eq_none_iff, List.mem_filter, decide_eq_true_eq]
  rintro x ⟨_, hx⟩
  simpa using Ne.symm hx

@[simp] theorem get?_empty (k : κ) : (empty : Table κ α).get? k = none := rfl

theorem get?_insert (t : Table κ α) (k j : κ) (a : α) :
    (t.insert k a).get? j = if j = k then some a else t.get? j := by
  by_cases h : j = k
  · simp [h]
  · simp [h]

theorem get?_erase (t : Table κ α) (k j : κ) :
    (t.erase k).get? j = if j = k then none else t.get? j := by
  by_cases h : j = k
  · simp [h]
  · simp [h]

end Table

end CollatedStore
