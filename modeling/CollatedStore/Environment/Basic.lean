import CollatedStore.Cursor
import CollatedStore.Descriptor
import CollatedStore.Readers
import CollatedStore.Table

/-!
An environment in memory, and its transactions. Readers keep the snapshot they began with; the one
writer works on a copy, which becomes the committed snapshot when it commits.
-/
namespace CollatedStore

structure EnvConfig where
  maxReaders : Nat := 126
  maxDbs : Nat := 8
  /-- Bytes of key and data that the environment may hold. -/
  mapSize : Nat := 10485760
  deriving DecidableEq, Repr

inductive ConfigError where
  | noReaderSlots
  | mapTooSmall (size : Nat)
  deriving DecidableEq, Repr

namespace ConfigError

def text : ConfigError → String
  | .noReaderSlots => "max_readers must be at least 1"
  | .mapTooSmall size => s!"map_size {size} is too small"

end ConfigError

/-- There has to be a slot for a reader, and room for one byte of key and one of data. -/
def EnvConfig.check (config : EnvConfig) : Except ConfigError Unit :=
  if config.maxReaders = 0 then .error .noReaderSlots
  else if config.mapSize < 2 then .error (.mapTooSmall config.mapSize)
  else .ok ()

/-- Why there is no environment: its configuration is refused, or a check broke it off. -/
inductive CreateError where
  | config (e : ConfigError)
  | breach (b : Breach)
  deriving DecidableEq, Repr

/-- Every database as of one transaction, and the bytes they hold together. -/
structure Snapshot where
  txnId : Nat
  dbs : Table Dbi Contents
  used : Nat

/-- A database's name, which the root has not, and its layout. -/
structure DbRecord where
  name : Option String
  layout : Layout

/-- Every database that was ever named, the root first. -/
abbrev Catalog := List DbRecord

namespace Catalog

/-- A database's number is its place in the catalog, counted from one. -/
def get? (catalog : Catalog) : Dbi → Option DbRecord
  | 0 => none
  | n + 1 => catalog[n]?

def find? (catalog : Catalog) (name : Option String) : Option Dbi :=
  (catalog.findIdx? (·.name == name)).map (· + 1)

def modify (catalog : Catalog) (dbi : Dbi) (f : DbRecord → DbRecord) : Catalog :=
  List.modify catalog (dbi - 1) f

end Catalog

inductive Txn where
  | reader (snapshot : Snapshot) (slot : Nat)
  | writer (snapshot : Snapshot)

def Txn.snapshot : Txn → Snapshot
  | .reader s _ => s
  | .writer s => s

structure Environment where
  id : UInt64
  /-- The name under which the reader table lists this process. -/
  owner : String
  config : EnvConfig
  committed : Snapshot
  catalog : Catalog
  txns : Table Handle Txn
  cursors : Table Handle Cursor
  writer : Option Handle
  lastHandle : Handle
  readers : Readers

/-- What a store's call leaves: how it ended, what it handed out, and the store. A call that only
ever ends with a status has `ρ = Status`; one that may break off has `ρ = Outcome`. -/
structure Reply (ρ ε α : Type) where
  ended : ρ
  out : α
  store : ε

namespace Environment

/-- The number of the root database. -/
def rootDbi : Dbi := 1

/-- A new environment holds the root database, empty and plain. -/
def new (id : UInt64) (owner : String) (config : EnvConfig) : Environment where
  id
  owner
  config
  committed := ⟨0, Table.empty.insert rootDbi [], 0⟩
  catalog := [⟨none, ⟨none, none, .plain⟩⟩]
  txns := .empty
  cursors := .empty
  writer := none
  lastHandle := 0
  readers := .new config.maxReaders

/-- Opens an environment. Its configuration is looked at before the reader table is laid out. -/
def create (id : UInt64) (owner : String) (config : EnvConfig) :
    Except CreateError Environment := do
  config.check.mapError .config
  if Readers.fits config.maxReaders then return new id owner config
  else throw (.breach .capacity)

def activeTxns (env : Environment) : Nat := env.txns.size

/-- Enters a transaction under the next handle. -/
def enter (env : Environment) (txn : Txn) : Handle × Environment :=
  let h := env.lastHandle + 1
  (h, { env with lastHandle := h, txns := env.txns.insert h txn })

/-- Begins a transaction. Transactions do not nest, and there is one writer at a time. A reader is
listed under the thread that begins it. -/
def txnBegin (env : Environment) (parent : Option Handle) (flags : UInt32) (thread : Nat := 1) :
    Reply Status Environment Handle :=
  if parent.isSome then ⟨.invalid, 0, env⟩
  else if Flags.has flags Flags.readOnly then
    match env.readers.acquire ⟨thread, env.committed.txnId⟩ with
    | none => ⟨.readersFull, 0, env⟩
    | some (slot, readers) =>
      let (h, env) := { env with readers }.enter (.reader env.committed slot)
      ⟨.success, h, env⟩
  else if env.writer.isSome then ⟨.busy, 0, env⟩
  else
    let snapshot := { env.committed with txnId := env.committed.txnId + 1 }
    let (h, env) := env.enter (.writer snapshot)
    ⟨.success, h, { env with writer := some h }⟩

/-- Ends a transaction and closes its cursors. -/
def finish (env : Environment) (h : Handle) : Option (Txn × Environment) :=
  (env.txns.get? h).map fun txn =>
    (txn, { env with
      txns := env.txns.erase h
      cursors := env.cursors.filter fun _ c => c.txn != h
      writer := if env.writer = some h then none else env.writer
      readers := match txn with
        | .reader _ slot => env.readers.release slot
        | .writer _ => env.readers })

def txnCommit (env : Environment) (h : Handle) : Reply Status Environment Unit :=
  match env.finish h with
  | none => ⟨.invalid, (), env⟩
  | some (.reader _ _, env) => ⟨.success, (), env⟩
  | some (.writer snapshot, env) => ⟨.success, (), { env with committed := snapshot }⟩

def txnAbort (env : Environment) (h : Handle) : Environment :=
  match env.finish h with
  | none => env
  | some (_, env) => env

end Environment

end CollatedStore
