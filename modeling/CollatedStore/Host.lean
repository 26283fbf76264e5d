import CollatedStore.Registry.Judgement

/-!
What all calls of one process share: the registry, the fault that waits to be reported, and the last
error told to foreign callers. A session is a computation on it, which ends in nothing if the
process is aborted on the way.
-/
namespace CollatedStore

structure Host where
  registry : Registry
  /-- The first fault since the last one was taken. -/
  parked : Option Fault
  lastError : Option String

namespace Host

def new (settings : Settings) : Host := ⟨Registry.new.configure settings, none, none⟩

end Host

abbrev Session := StateT Host Option

namespace Session

def abort {α : Type} : Session α := fun _ => none

/-- Under the abort policy nothing follows a fault. -/
def report (policy : FaultPolicy) : Session Unit :=
  match policy with
  | .abort => abort
  | .sentinel => pure ()

/-- Reports a fault and parks it, unless an earlier one waits already. -/
def raise (fault : Fault) (policy : FaultPolicy) : Session Unit := do
  report policy
  modify fun host => { host with parked := host.parked.or (some fault) }

def takeParked : Session (Option Fault) :=
  modifyGet fun host => (host.parked, { host with parked := none })

def clearParked : Session Unit := modify fun host => { host with parked := none }

/-- The order a judgement gives, once its fault is raised. -/
def settle (j : Judgement) : Session Ordering := do
  match j.fault with
  | some (fault, policy) => raise fault policy
  | none => pure ()
  return j.order

def answer (q : Question) : Session Ordering := do
  settle ((← get).registry.judge q.fn q.left q.right)

/-- Compares under a context id, as the collation registered there does. -/
def dispatch (id : ContextId) (a b : Bytes) : Session Ordering := do
  settle ((← get).registry.judgeContext id a b)

/-- Calls a comparison function directly. Only a `direct` one reports more than a sign. -/
def callFn (fn : CompareFn) (a b : Bytes) : Session Int32 := do
  let order ← answer ⟨fn, a, b⟩
  match fn with
  | .direct compare => return compare a b
  | _ => return Order.toCode order

end Session

/-- Runs an inquiry on the registry of the process. -/
def Inquiry.run {α : Type} : Inquiry α → Session α
  | .done a => pure a
  | .ask q next => do (next (← Session.answer q)).run

end CollatedStore
