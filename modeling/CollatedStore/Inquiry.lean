import CollatedStore.Order

/-!
A store does not compare keys itself: it asks a comparison function and goes on with the answer.
An inquiry is such a computation, with every question it asks in sight.
-/
namespace CollatedStore

/-- Number of comparison functions kept ready for registered contexts. -/
def slotCount : Nat := 32

abbrev SlotIndex := Fin slotCount

/-- The comparison functions a store can be given. All but `direct` find their order in the
registry when they are called. -/
inductive CompareFn where
  | baseline
  | single
  | slot (index : SlotIndex)
  | direct (compare : Bytes → Bytes → Int32)

/-- How does `left` stand to `right` under `fn`? -/
structure Question where
  fn : CompareFn
  left : Bytes
  right : Bytes

inductive Inquiry (α : Type) where
  | done (value : α)
  | ask (question : Question) (next : Ordering → Inquiry α)

namespace Inquiry

variable {α β : Type}

protected def bind (f : α → Inquiry β) : Inquiry α → Inquiry β
  | .done a => f a
  | .ask q next => .ask q fun o => Inquiry.bind f (next o)

instance : Monad Inquiry where
  pure := .done
  bind x f := Inquiry.bind f x

@[simp] theorem pure_eq (a : α) : (pure a : Inquiry α) = .done a := rfl

@[simp] theorem done_bind (a : α) (f : α → Inquiry β) : (Inquiry.done a >>= f) = f a := rfl

@[simp] theorem ask_bind (q : Question) (next : Ordering → Inquiry α) (f : α → Inquiry β) :
    (Inquiry.ask q next >>= f) = .ask q fun o => next o >>= f := rfl

theorem bind_done (x : Inquiry α) : (x >>= Inquiry.done) = x := by
  induction x with
  | done a => rfl
  | ask q next ih => simp [ih]

theorem bind_assoc {γ : Type} (x : Inquiry α) (f : α → Inquiry β) (g : β → Inquiry γ) :
    (x >>= f >>= g) = x >>= fun a => f a >>= g := by
  induction x with
  | done a => rfl
  | ask q next ih => simp [ih]

instance : LawfulMonad Inquiry :=
  LawfulMonad.mk' Inquiry (fun x => bind_done x) (fun _ _ => rfl) bind_assoc

/-- One question. -/
def compare (fn : CompareFn) (left right : Bytes) : Inquiry Ordering :=
  .ask ⟨fn, left, right⟩ .done

/-- What comes out when `answer` answers every question. -/
def eval (answer : Question → Ordering) : Inquiry α → α
  | .done a => a
  | .ask q next => (next (answer q)).eval answer

@[simp] theorem eval_done (answer : Question → Ordering) (a : α) :
    (Inquiry.done a).eval answer = a := rfl

@[simp] theorem eval_bind (answer : Question → Ordering) (x : Inquiry α) (f : α → Inquiry β) :
    (x >>= f).eval answer = (f (x.eval answer)).eval answer := by
  induction x with
  | done a => rfl
  | ask q next ih => simpa [eval] using ih (answer q)

end Inquiry

end CollatedStore
