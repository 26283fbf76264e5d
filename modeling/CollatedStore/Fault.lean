/-!
Faults: what went wrong inside a function that a store had called. Such a function cannot raise an
error through the store, so the fault either ends the process or is kept until the call is over.
-/
namespace CollatedStore

inductive FaultPolicy where
  /-- End the process. -/
  | abort
  /-- Answer the store in the baseline order and keep the fault. -/
  | sentinel
  deriving DecidableEq, Repr

structure Settings where
  policy : FaultPolicy := .abort
  traceLines : Bool := false
  deriving DecidableEq, Repr

inductive FaultKind where
  | collation
  | unregistered
  | handler
  deriving DecidableEq, Repr

namespace FaultKind

def text : FaultKind → String
  | .collation => "comparator panicked"
  | .unregistered => "unregistered comparator context"
  | .handler => "message handler panicked"

end FaultKind

structure Fault where
  kind : FaultKind
  message : String
  deriving DecidableEq, Repr

def Fault.text (fault : Fault) : String := fault.kind.text ++ ": " ++ fault.message

end CollatedStore
