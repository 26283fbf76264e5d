import CollatedStore.Registry.Basic

/-!
What a comparison comes to: an order, and a fault if the order is only the baseline standing in for
one that could not be had.
-/
namespace CollatedStore

/-- A fault comes with the policy that it falls under. -/
structure Judgement where
  order : Ordering
  fault : Option (Fault × FaultPolicy)

namespace Judgement

def sound (order : Ordering) : Judgement := ⟨order, none⟩

/-- The baseline order in place of one that could not be had. -/
def degraded (kind : FaultKind) (message : String) (policy : FaultPolicy) (a b : Bytes) :
    Judgement :=
  ⟨Order.baseline a b, some (⟨kind, message⟩, policy)⟩

end Judgement

/-- A failure falls under the policy of the registration. -/
def Enrolment.judge (e : Enrolment) (a b : Bytes) : Judgement :=
  match e.collation a b with
  | .ok order => .sound order
  | .error text => .degraded .collation text e.policy a b

namespace Registry

/-- A comparison that meets no collation falls under the policy of the moment. -/
def unregistered (r : Registry) (message : String) (a b : Bytes) : Judgement :=
  .degraded .unregistered message r.settings.policy a b

/-- Compares under a context id. -/
def judgeContext (r : Registry) (id : ContextId) (a b : Bytes) : Judgement :=
  match r.live? id with
  | some (_, e) => e.judge a b
  | none => r.unregistered (CallError.unregisteredContext id).text a b

def judgeSingle (r : Registry) (a b : Bytes) : Judgement :=
  match r.single with
  | some e => e.judge a b
  | none => r.unregistered CallError.noSingle.text a b

def judgeSlot (r : Registry) (i : SlotIndex) (a b : Bytes) : Judgement :=
  match r.slots i with
  | some s =>
    match s.enrolment with
    | some e => e.judge a b
    | none =>
      r.unregistered s!"context {s.id.text} was released while slot {i} is still installed" a b
  | none => r.unregistered s!"comparator slot {i} is not bound to a context" a b

/-- Calls a comparison function. -/
def judge (r : Registry) (fn : CompareFn) (a b : Bytes) : Judgement :=
  match fn with
  | .baseline => .sound (Order.baseline a b)
  | .single => r.judgeSingle a b
  | .slot i => r.judgeSlot i a b
  | .direct compare => .sound (Order.ofCode (compare a b))

end Registry

end CollatedStore
