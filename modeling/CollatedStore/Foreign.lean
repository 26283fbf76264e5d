import CollatedStore.Host
import CollatedStore.Records

/-!
The registry as foreign code sees it. Every call ends with a code; the text of the last error is set
exactly when a call fails.
-/
namespace CollatedStore

namespace Foreign

/-- A text with a zero character cannot be told to foreign code, and leaves no last error. -/
def setLastError (text : String) (host : Host) : Host :=
  { host with lastError := if text.contains '\x00' then none else some text }

def clearLastError (host : Host) : Host := { host with lastError := none }

def fail (host : Host) (e : CallError) : ResultCode × Host :=
  (e.code, setLastError e.text host)

/-- Clears the last error, and keeps the registry that `attempt` gives or sets the error. -/
def attempt (host : Host) (attempt : Registry → Except CallError Registry) :
    ResultCode × Host :=
  let host := clearLastError host
  match attempt host.registry with
  | .ok registry => (.ok, { host with registry })
  | .error e => fail host e

/-- Foreign code lends an order as a function that reports by sign. -/
abbrev Callback := Bytes → Bytes → Int32

def required (callback : Option Callback) : Except CallError Collation :=
  match callback with
  | some callback => .ok (.ofCallback callback)
  | none => .error .nullPointer

/-- The registration has no guard: it lasts until the context is deregistered. -/
def registerContext (id : UInt64) (callback : Option Callback) (host : Host) :
    ResultCode × Host :=
  attempt host fun r => do
    let (_, r) ← r.register ⟨id⟩ (← required callback)
    return r

def deregisterContext (id : UInt64) (host : Host) : ResultCode × Host :=
  attempt host fun r => r.deregister ⟨id⟩

def registerSingle (callback : Option Callback) (host : Host) : ResultCode × Host :=
  attempt host fun r => do r.registerSingle (← required callback)

def clearSingle (host : Host) : ResultCode × Host :=
  attempt host fun r => .ok r.clearSingle.2

/-- Stands for an id that there is not. -/
def invalidContext : UInt64 := 0xFFFFFFFFFFFFFFFF

/-- The id of a database's key order. -/
def contextId (envId : UInt64) (dbi : UInt32) (host : Host) : UInt64 × Host :=
  match ContextId.ofDb .keys envId dbi with
  | .ok id => (id.raw, clearLastError host)
  | .error _ =>
    (invalidContext, setLastError s!"environment id {ContextId.hex envId} exceeds 31 bits" host)

/-- That there is no slot to reclaim is an error here. -/
def reclaimContext (id : UInt64) (host : Host) : ResultCode × Host :=
  let host := clearLastError host
  match host.registry.reclaim ⟨id⟩ with
  | .ok (true, registry) => (.ok, { host with registry })
  | .ok (false, _) =>
    (.notRegistered,
      setLastError s!"context {(ContextId.mk id).text} holds no released slot" host)
  | .error e => fail host e

/-- Hands out the comparison function of a context, if there is a place to put it. -/
def contextFn (id : UInt64) (hasPlace : Bool) (host : Host) :
    ResultCode × Option CompareFn × Host :=
  let host := clearLastError host
  let found : Except CallError (CompareFn × Registry) :=
    if hasPlace then host.registry.exportFn (.context ⟨id⟩) else .error .nullPointer
  match found with
  | .ok (fn, registry) => (.ok, some fn, { host with registry })
  | .error e => let (code, host) := fail host e; (code, none, host)

/-- Describes a page of records, if there is a place to put the description. A missing page has no
bytes, and must not claim any. -/
def wrapPage (page : Option Bytes) (length stride : Nat) (hasPlace : Bool) (host : Host) :
    ResultCode × Option (Nat × Nat) × Host :=
  let host := clearLastError host
  let described : Except CallError Batch :=
    if hasPlace ∧ (page.isSome ∨ length = 0) then
      let page := (page.getD []).take length
      match Batch.ofPage? page stride with
      | some batch => .ok batch
      | none => .error (.incongruentPage page.length stride)
    else .error .nullPointer
  match described with
  | .ok batch => (.ok, some (batch.stride, batch.count), host)
  | .error e => let (code, host) := fail host e; (code, none, host)

end Foreign

end CollatedStore
