import CollatedStore.Contents

/-!
What computations come to when every question has one answer: a result, or the stop that cut them
short.
-/
namespace CollatedStore

/-- The order that `fn` stands for under these answers. -/
def Order.answered (answer : Question → Ordering) (fn : Option CompareFn) : Order := fun a b =>
  match fn with
  | none => Order.baseline a b
  | some fn => answer ⟨fn, a, b⟩

namespace Layout

def keys (layout : Layout) (answer : Question → Ordering) : Order :=
  Order.answered answer layout.keyOrder

def values (layout : Layout) (answer : Question → Ordering) : Order :=
  Order.answered answer layout.valueOrder

end Layout

@[simp] theorem ok_bind {ε α β : Type} (a : α) (f : α → Except ε β) : (Except.ok a >>= f) = f a :=
  rfl

@[simp] theorem error_bind {ε α β : Type} (e : ε) (f : α → Except ε β) :
    (Except.error e >>= f) = .error e := rfl

@[simp] theorem pure_ok {ε α : Type} (a : α) : (pure a : Except ε α) = .ok a := rfl

@[simp] theorem map_ok {ε α β : Type} (f : α → β) (a : α) :
    (Except.ok a : Except ε α).map f = .ok (f a) := rfl

@[simp] theorem map_error {ε α β : Type} (f : α → β) (e : ε) :
    (Except.error e : Except ε α).map f = .error e := rfl

theorem Inquiry.eval_map {α β : Type} (answer : Question → Ordering) (x : Inquiry α) (f : α → β) :
    (f <$> x).eval answer = f (x.eval answer) := by
  rw [map_eq_pure_bind, eval_bind]
  rfl

namespace Work

variable {α β : Type} (answer : Question → Ordering)

def eval (w : Work α) : Except Stop α := Inquiry.eval answer w.run

@[simp] theorem eval_run (w : Work α) : Inquiry.eval answer (ExceptT.run w) = w.eval answer := rfl

@[simp] theorem eval_pure (a : α) : (pure a : Work α).eval answer = .ok a := rfl

@[simp] theorem eval_throw (stop : Stop) : (throw stop : Work α).eval answer = .error stop := rfl

@[simp] theorem eval_refuse (s : Status) : (refuse s : Work α).eval answer = .error (.status s) :=
  rfl

@[simp] theorem eval_bind (x : Work α) (f : α → Work β) :
    (x >>= f).eval answer = x.eval answer >>= fun a => (f a).eval answer := by
  unfold eval
  rw [ExceptT.run_bind, Inquiry.eval_bind]
  cases Inquiry.eval answer x.run <;> rfl

@[simp] theorem eval_map (x : Work α) (f : α → β) :
    (f <$> x).eval answer = (x.eval answer).map f := by
  rw [map_eq_pure_bind, eval_bind]
  cases x.eval answer <;> rfl

@[simp] theorem eval_compare (fn : Option CompareFn) (a b : Bytes) :
    (compare fn a b).eval answer = .ok (Order.answered answer fn a b) := by
  cases fn <;> rfl

theorem itemAt_eq {xs : List α} {i : Nat} {x : α} (h : xs[i]? = some x) : itemAt xs i = pure x := by
  simp only [itemAt, h]

theorem eval_itemAt {xs : List α} {i : Nat} {x : α} (h : xs[i]? = some x) :
    (itemAt xs i).eval answer = .ok x := by
  rw [itemAt_eq h, eval_pure]

theorem eval_itemAt_eq_ok {xs : List α} {i : Nat} {x : α} :
    (itemAt xs i).eval answer = .ok x ↔ xs[i]? = some x := by
  unfold itemAt
  cases xs[i]? with
  | none => exact iff_of_false nofun nofun
  | some y => simp

theorem minus_eq {a b : Nat} (h : b ≤ a) : minus a b = pure (a - b) := if_pos h

theorem minus_short {a b : Nat} (h : a < b) : minus a b = breach .underflow :=
  if_neg (Nat.not_le.mpr h)

theorem eval_minus {a b : Nat} (h : b ≤ a) : (minus a b).eval answer = .ok (a - b) := by
  rw [minus_eq h, eval_pure]

/-! An item whose place is the length of what stands before it. -/

@[simp] theorem eval_itemAt_cut (before after : List α) (x : α) :
    (itemAt (before ++ x :: after) before.length).eval answer = .ok x :=
  eval_itemAt answer (by simp)

@[simp] theorem eval_setAt_cut (before after : List α) (x y : α) :
    (setAt (before ++ x :: after) before.length y).eval answer = .ok (before ++ y :: after) := by
  simp [setAt]

theorem insertIdx_cut (before after : List α) (x : α) :
    (before ++ after).insertIdx before.length x = before ++ x :: after := by
  induction before with
  | nil => rfl
  | cons y ys ih => simp [ih]

@[simp] theorem eval_insertAt_cut (before after : List α) (x : α) :
    (insertAt (before ++ after) before.length x).eval answer = .ok (before ++ x :: after) := by
  rw [insertAt, if_pos (by simp), eval_pure, insertIdx_cut]

@[simp] theorem eval_eraseAt_cut (before after : List α) (x : α) :
    (eraseAt (before ++ x :: after) before.length).eval answer = .ok (before ++ after) := by
  rw [eraseAt, if_pos (by simp), eval_pure, List.eraseIdx_append_of_length_le (Nat.le_refl _)]
  simp

end Work

end CollatedStore
