import CollatedStore.Environment.Cursors
import CollatedStore.Registry.Basic
import CollatedStore.Text.Utf8

/-!
What every store offers. The calls that compare are inquiries; setting an order may act back on the
registry; listing the readers calls a message function, which has a state of its own.
-/
namespace CollatedStore

/-- What a message function is called with. A line without an address is missing. -/
structure Message where
  line : Option Bytes
  /-- Did the context that was handed in come back? -/
  context : Bool

/-- A message function stops the listing by any code but zero. -/
abbrev Messenger (σ : Type) := Message → StateM σ Int32

class Store (ε : Type) where
  envId : ε → UInt64
  /-- Begins a transaction on a thread, the first one if none is named. -/
  txnBegin : ε → Option Handle → UInt32 → (thread : Nat := 1) → Reply Status ε Handle
  txnCommit : ε → Handle → Reply Status ε Unit
  txnAbort : ε → Handle → ε
  dbiOpen : ε → Handle → Option String → UInt32 → Reply Status ε Dbi
  setOrder : ε → Registry → Role → Handle → Dbi → Option CompareFn → Reply Status ε Unit × Registry
  get : ε → Handle → Dbi → Option Descriptor → Option Descriptor →
    Inquiry (Reply Outcome ε (Option Descriptor))
  put : ε → Handle → Dbi → Option Descriptor → Option Descriptor → UInt32 →
    Inquiry (Reply Outcome ε (Option Descriptor))
  del : ε → Handle → Dbi → Option Descriptor → Option Descriptor → Inquiry (Reply Outcome ε Unit)
  cursorOpen : ε → Handle → Dbi → Reply Status ε Handle
  cursorClose : ε → Handle → ε
  cursorGet : ε → Handle → Option Descriptor → Option Descriptor → UInt32 →
    Inquiry (Reply Outcome ε (Option Descriptor × Option Descriptor))
  cursorPut : ε → Handle → Option Descriptor → Option Descriptor → UInt32 →
    Inquiry (Reply Outcome ε (Option Descriptor))
  /-- Stores a page of records: key, page, number of records, bytes of each. -/
  cursorPutMany : ε → Handle → Option Descriptor → Bytes → Nat → Nat → UInt32 →
    Inquiry (Reply Outcome ε Nat)
  cursorDel : ε → Handle → UInt32 → Inquiry (Reply Outcome ε Unit)
  listReaders : {σ : Type} → ε → Option (Messenger σ) → StateM σ Status

/-- Calls `call` on each message until it returns a code other than zero. -/
def Messenger.until {σ : Type} (call : Messenger σ) : List Message → StateM σ Status
  | [] => return .success
  | m :: rest => do
    let code ← call m
    if code = 0 then Messenger.until call rest else return ⟨code⟩

namespace Environment

def listReaders {σ : Type} (env : Environment) (call : Option (Messenger σ)) :
    StateM σ Status :=
  match call with
  | none => return .noFunction
  | some call =>
    call.until ((env.readers.lines env.owner).map fun line => ⟨some (Utf8.encode line), true⟩)

instance : Store Environment where
  envId := id
  txnBegin env parent flags thread := env.txnBegin parent flags thread
  txnCommit := txnCommit
  txnAbort := txnAbort
  dbiOpen := dbiOpen
  setOrder env registry role txn dbi fn := (env.setOrder role txn dbi fn, registry)
  get := get
  put := put
  del := del
  cursorOpen := cursorOpen
  cursorClose := cursorClose
  cursorGet := cursorGet
  cursorPut := cursorPut
  cursorPutMany := cursorPutMany
  cursorDel := cursorDel
  listReaders := listReaders

end Environment

end CollatedStore
