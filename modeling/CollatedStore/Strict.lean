import CollatedStore.Environment.Cursors
import CollatedStore.Text.Utf8

/-!
Calls that must succeed. The first that does not ends the whole computation with a text; the
environment stays as the calls before left it.
-/
namespace CollatedStore

abbrev Strict := ExceptT String (StateM Environment)

namespace Strict

/-- Opens an environment with a configuration that must be usable. -/
def create (id : UInt64) (owner : String) (config : EnvConfig) : Except String Environment :=
  (Environment.create id owner config).mapError fun
    | .config .noReaderSlots => "Failed to open memory engine: NoReaderSlots"
    | .config (.mapTooSmall size) => s!"Failed to open memory engine: MapTooSmall({size})"
    | .breach b => b.text

/-- Takes over what a call leaves, which must be a success. -/
def expect {α : Type} (op : String) (call : Environment → Reply Status Environment α) :
    Strict α := do
  let reply := call (← get)
  set reply.store
  if reply.ended = .success then return reply.out
  else throw (op ++ " failed: " ++ reply.ended.describe)

def beginWrite : Strict Handle := expect "mdb_txn_begin" fun env => env.txnBegin none 0

def beginRead : Strict Handle :=
  expect "mdb_txn_begin" fun env => env.txnBegin none Flags.readOnly

def commit (txn : Handle) : Strict Unit := expect "mdb_txn_commit" fun env => env.txnCommit txn

/-- Names the first zero byte of a database name, and all its bytes. -/
def zeroInName (name : String) : Option String :=
  let bytes := Utf8.encode name
  (bytes.findIdx? (· == 0)).map fun i =>
    s!"Database name contains NUL: NulError({i}, [" ++ ", ".intercalate (bytes.map toString) ++ "])"

/-- Opens a database, which is created if there is none of that name. -/
def openDb (txn : Handle) (name : String) (flags : UInt32) : Strict Dbi :=
  match zeroInName name with
  | some text => throw text
  | none => expect "mdb_dbi_open" fun env => env.dbiOpen txn (some name) (flags ||| Flags.create)

def openCursor (txn : Handle) (dbi : Dbi) : Strict Handle :=
  expect "mdb_cursor_open" fun env => env.cursorOpen txn dbi

/-- A writer with a database and a cursor on it. -/
structure Scratch where
  txn : Handle
  dbi : Dbi
  cursor : Handle
  deriving DecidableEq, Repr

def scratch (name : String) (flags : UInt32) : Strict Scratch := do
  let txn ← beginWrite
  let dbi ← openDb txn name flags
  return ⟨txn, dbi, ← openCursor txn dbi⟩

end Strict

end CollatedStore
