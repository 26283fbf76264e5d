import CollatedStore.Host
import CollatedStore.Records
import CollatedStore.Store.Buffers

/-!
Calls as a client makes them: one store call each. A fault parked during the call is reported in
place of the status; one parked earlier is not.
-/
namespace CollatedStore

namespace Client

variable {ε : Type} [Store ε] {α : Type}

/-- Makes one store call with no fault parked, and tells first the fault, then the status. What the
call hands out is given back in any case. -/
def call (op : String) (native : Inquiry (Reply Outcome ε α)) :
    Session (Except Halt Unit × α × ε) := do
  Session.clearParked
  let reply ← native.run
  match reply.ended with
  | .error b => return (.error (.breach b), reply.out, reply.store)
  | .ok status =>
    match ← Session.takeParked with
    | some fault => return (.error (.error (.fault fault)), reply.out, reply.store)
    | none =>
      return ((CallError.check op status).mapError .error, reply.out, reply.store)

def get (store : ε) (txn : Handle) (dbi : Dbi) (key : Bytes) :
    Session (Except Halt Descriptor × ε) := do
  let (result, data, store) ← call "mdb_get" (Buffers.get store txn dbi (some key))
  return (result.map fun _ => data.getD .empty, store)

def put (store : ε) (txn : Handle) (dbi : Dbi) (key value : Bytes) (flags : UInt32) :
    Session (Except Halt Unit × ε) := do
  let (result, _, store) ←
    call "mdb_put" (Buffers.put store txn dbi (some key) (some value) flags)
  return (result, store)

/-- Puts a value given by a descriptor, and hands the descriptor back as the store left it. -/
def putDescribed (store : ε) (txn : Handle) (dbi : Dbi) (key : Bytes) (value : Descriptor)
    (flags : UInt32) : Session (Except Halt Unit × Option Descriptor × ε) :=
  call "mdb_put" (Buffers.putDescribed store txn dbi (some key) (some value) flags)

def del (store : ε) (txn : Handle) (dbi : Dbi) (key : Bytes) (value : Option Bytes) :
    Session (Except Halt Unit × ε) := do
  let (result, _, store) ← call "mdb_del" (Buffers.del store txn dbi (some key) value)
  return (result, store)

/-- Moves a cursor. Without a key no input is passed, and without a value only the key. -/
def cursorGet (store : ε) (cursor : Handle) (key value : Bytes) (op : UInt32) :
    Session (Except Halt (Descriptor × Descriptor) × ε) := do
  let (result, (key, data), store) ← call "mdb_cursor_get" <|
    if key.isEmpty then Buffers.cursorGet store cursor op
    else if value.isEmpty then Buffers.cursorGetKey store cursor (some key) op
    else Buffers.cursorGetPair store cursor (some key) (some value) op
  return (result.map fun _ => (key.getD .empty, data.getD .empty), store)

def cursorPut (store : ε) (cursor : Handle) (key value : Bytes) (flags : UInt32) :
    Session (Except Halt Unit × ε) := do
  let (result, _, store) ←
    call "mdb_cursor_put" (Buffers.cursorPut store cursor (some key) (some value) flags)
  return (result, store)

/-- Stores all records of a page. A page that is not all records never reaches the store. -/
def cursorPutMany (store : ε) (cursor : Handle) (key page : Bytes) (stride : Nat)
    (flags : UInt32) : Session (Except Halt Nat × ε) :=
  match Batch.ofPage? page stride with
  | none => return (.error (.error (.incongruentPage page.length stride)), store)
  | some batch => do
    let (result, count, store) ← call "mdb_cursor_put" <|
      Store.cursorPutMany store cursor (some (.filled key)) page batch.count stride
        (flags ||| Flags.multiple)
    return (result.map fun _ => count, store)

def cursorDel (store : ε) (cursor : Handle) (flags : UInt32) :
    Session (Except Halt Unit × ε) := do
  let (result, _, store) ← call "mdb_cursor_del" (Store.cursorDel store cursor flags)
  return (result, store)

/-- Walks forward from the first item, and gives the items met, at most `limit` of them, and what
ended the walk. -/
def walk (store : ε) (cursor : Handle) : (limit : Nat) → CursorOp →
    Session (List (Descriptor × Descriptor) × Option Halt × ε)
  | 0, _ => return ([], none, store)
  | limit + 1, op => do
    let (result, store) ← cursorGet store cursor [] [] op.code
    match result with
    | .error halt => return ([], some halt, store)
    | .ok item =>
      let (items, halt, store) ← walk store cursor limit .next
      return (item :: items, halt, store)

end Client

end CollatedStore
