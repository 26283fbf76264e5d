import CollatedStore.Context
import CollatedStore.Fault

/-!
Why a call failed: the store reported a status, the call was refused before it reached the store, or
someone broke the rules that the store relies on.
-/
namespace CollatedStore

inductive CallError where
  | store (op : String) (status : Status)
  | incongruentPage (length stride : Nat)
  | unregisteredContext (id : ContextId)
  | contextTaken (id : ContextId)
  | slotsExhausted (count : Nat)
  | stillInstalled (id : ContextId) (databases : Nat)
  | noSingle
  | singleTaken
  | nullPointer
  | fault (f : Fault)
  deriving DecidableEq, Repr

inductive ErrorCategory where
  | store
  | validation
  | contract
  deriving DecidableEq, Repr

/-- The codes by which foreign callers learn how a call ended. -/
inductive ResultCode where
  | ok
  | error
  | invalidArgument
  | nullPointer
  | alreadyRegistered
  | notRegistered
  | exhausted
  | inUse
  deriving DecidableEq, Repr

namespace ResultCode

def number : ResultCode → Nat
  | .ok => 0
  | .error => 1
  | .invalidArgument => 2
  | .nullPointer => 3
  | .alreadyRegistered => 4
  | .notRegistered => 5
  | .exhausted => 6
  | .inUse => 7

def isOk (code : ResultCode) : Bool := code == .ok

def isErr (code : ResultCode) : Bool := code != .ok

end ResultCode

namespace CallError

def text : CallError → String
  | .store op status => op ++ ": " ++ status.text
  | .incongruentPage length stride =>
    s!"page of {length} bytes is not a multiple of stride {stride}"
  | .unregisteredContext id => s!"no comparator registered for context {id.text}"
  | .contextTaken id => s!"context {id.text} already has a comparator"
  | .slotsExhausted count => s!"all {count} context comparator slots are in use"
  | .stillInstalled id databases =>
    s!"context {id.text} is still installed on {databases} database(s)"
  | .noSingle => "no single-dispatch comparator registered"
  | .singleTaken => "a single-dispatch comparator is already registered"
  | .nullPointer => "null pointer argument"
  | .fault f => "callback fault: " ++ f.text

def category : CallError → ErrorCategory
  | .store _ _ => .store
  | .nullPointer | .fault _ => .contract
  | _ => .validation

def status? : CallError → Option Status
  | .store _ status => some status
  | _ => none

def code : CallError → ResultCode
  | .store _ _ | .fault _ => .error
  | .incongruentPage _ _ => .invalidArgument
  | .nullPointer => .nullPointer
  | .contextTaken _ | .singleTaken => .alreadyRegistered
  | .unregisteredContext _ | .noSingle => .notRegistered
  | .slotsExhausted _ => .exhausted
  | .stillInstalled _ _ => .inUse

/-- Zero is success; any other status is an error of the operation. -/
def check (op : String) (status : Status) : Except CallError Unit :=
  if status = .success then .ok () else .error (.store op status)

end CallError

/-- What keeps a call from its result: an error, or a check that broke it off. -/
inductive Halt where
  | error (e : CallError)
  | breach (b : Breach)
  deriving DecidableEq, Repr

end CollatedStore
