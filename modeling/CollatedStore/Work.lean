import CollatedStore.Inquiry
import CollatedStore.Status

/-!
The steps a store's call is made of. A step may ask for comparisons, and it may stop short:
refused with a status, refused because of an item that is there, or broken off at a failed check.
-/
namespace CollatedStore

/-- A check that a computation relies on and that did not hold. -/
inductive Breach where
  | index (length i : Nat)
  | underflow
  | divideByZero
  | wideEnvironment
  | capacity
  deriving DecidableEq, Repr

namespace Breach

def text : Breach → String
  | .index length i => s!"index out of bounds: the len is {length} but the index is {i}"
  | .underflow => "attempt to subtract with overflow"
  | .divideByZero => "attempt to divide by zero"
  | .wideEnvironment => "environment id exceeds 31 bits"
  | .capacity => "capacity overflow"

end Breach

/-- Where an item stands: the number of its key, and its number among that key's values. -/
structure Place where
  entry : Nat
  value : Nat
  deriving DecidableEq, Repr

/-- Why a step stopped short. An item that is there is told with its value. -/
inductive Stop where
  | status (s : Status)
  | existing (place : Place) (value : Bytes)
  | broken (b : Breach)
  deriving DecidableEq, Repr

/-- How a call ended: with a status, or broken off. -/
abbrev Outcome := Except Breach Status

/-- How a call ends that stops short. -/
def Stop.outcome : Stop → Outcome
  | .status s => .ok s
  | .existing _ _ => .ok .keyExist
  | .broken b => .error b

abbrev Work := ExceptT Stop Inquiry

namespace Work

variable {α : Type}

def refuse (s : Status) : Work α := throw (.status s)

def breach (b : Breach) : Work α := throw (.broken b)

/-- The order that `fn` gives, or the baseline order if a database has no function. -/
def compare (fn : Option CompareFn) (left right : Bytes) : Work Ordering :=
  match fn with
  | none => pure (Order.baseline left right)
  | some fn => ExceptT.lift (Inquiry.compare fn left right)

def itemAt (xs : List α) (i : Nat) : Work α :=
  match xs[i]? with
  | some x => pure x
  | none => breach (.index xs.length i)

def setAt (xs : List α) (i : Nat) (x : α) : Work (List α) :=
  if i < xs.length then pure (xs.set i x) else breach (.index xs.length i)

def insertAt (xs : List α) (i : Nat) (x : α) : Work (List α) :=
  if i ≤ xs.length then pure (xs.insertIdx i x) else breach (.index xs.length i)

def eraseAt (xs : List α) (i : Nat) : Work (List α) :=
  if i < xs.length then pure (xs.eraseIdx i) else breach (.index xs.length i)

/-- The items from `start` on, up to but without `stop`. -/
def slice (xs : List α) (start stop : Nat) : Work (List α) :=
  if start ≤ stop ∧ stop ≤ xs.length then pure ((xs.take stop).drop start)
  else breach (.index xs.length stop)

def minus (a b : Nat) : Work Nat :=
  if b ≤ a then pure (a - b) else breach .underflow

end Work

end CollatedStore
