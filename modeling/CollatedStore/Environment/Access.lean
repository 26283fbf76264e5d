import CollatedStore.Environment.Databases

/-!
Reading and writing by key. A call is first admitted: its arguments are checked one after another,
and the first that is wrong gives the status. Only an admitted call asks for comparisons.
-/
namespace CollatedStore

namespace Environment

/-- A database as a writer finds it. -/
structure Opened where
  txn : Handle
  dbi : Dbi
  snapshot : Snapshot
  entries : Contents
  layout : Layout

def Opened.holding (db : Opened) : Holding := ⟨db.entries, db.snapshot.used⟩

/-- Puts the holding that a write leaves back into the writer's snapshot. -/
def keep (env : Environment) (db : Opened) (h : Holding) : Environment :=
  { env with txns := env.txns.insert db.txn (.writer { db.snapshot with
      dbs := db.snapshot.dbs.insert db.dbi h.entries, used := h.used }) }

def present (d : Option Descriptor) : Except Status Bytes :=
  match d with
  | some d => .ok d.bytes
  | none => .error .invalid

def checkKey (key : Bytes) : Except Status Unit :=
  if validKey key then .ok () else .error .badValSize

def checkFlags (flags mask : UInt32) : Except Status Unit :=
  if Flags.within flags mask then .ok () else .error .invalid

/-- The entries of a database in the snapshot of a transaction, with the layout they are in. -/
def readable (env : Environment) (txn : Handle) (dbi : Dbi) : Except Status (Contents × Layout) :=
  match env.txns.get? txn, env.catalog.get? dbi with
  | some t, some record =>
    match t.snapshot.dbs.get? dbi with
    | some entries => .ok (entries, record.layout)
    | none => .error .badDbi
  | _, _ => .error .invalid

/-- The same for writing, which only the writer may. -/
def writable (env : Environment) (txn : Handle) (dbi : Dbi) : Except Status Opened :=
  match env.txns.get? txn, env.catalog.get? dbi with
  | some (.writer snapshot), some record =>
    match snapshot.dbs.get? dbi with
    | some entries => .ok ⟨txn, dbi, snapshot, entries, record.layout⟩
    | none => .error .badDbi
  | some (.reader _ _), some _ => .error .accessDenied
  | _, _ => .error .invalid

def admitGet (env : Environment) (txn : Handle) (dbi : Dbi) (key data : Option Descriptor) :
    Except Status (Bytes × Contents × Layout) := do
  let key ← present key
  let _ ← present data
  checkKey key
  return (key, ← env.readable txn dbi)

/-- The smallest value of a key. -/
def get (env : Environment) (txn : Handle) (dbi : Dbi) (key data : Option Descriptor) :
    Inquiry (Reply Outcome Environment (Option Descriptor)) :=
  match env.admitGet txn dbi key data with
  | .error s => return ⟨.ok s, data, env⟩
  | .ok (key, entries, layout) => do
    let found : Work Bytes := do entries.valueAt (← Cursor.seekKey layout entries key)
    match ← found.run with
    | .ok value => return ⟨.ok .success, some (.filled value), env⟩
    | .error stop => return ⟨stop.outcome, data, env⟩

def admitPut (env : Environment) (txn : Handle) (dbi : Dbi) (key data : Option Descriptor)
    (flags : UInt32) : Except Status (Bytes × Bytes × Opened) := do
  let key ← present key
  let value ← present data
  checkFlags flags Flags.put
  checkKey key
  return (key, value, ← env.writable txn dbi)

/-- Stores a pair. A put that is refused because of an item hands out that item's value. -/
def put (env : Environment) (txn : Handle) (dbi : Dbi) (key data : Option Descriptor)
    (flags : UInt32) : Inquiry (Reply Outcome Environment (Option Descriptor)) :=
  match env.admitPut txn dbi key data flags with
  | .error s => return ⟨.ok s, data, env⟩
  | .ok (key, value, db) => do
    match ← (db.holding.put db.layout env.config.mapSize (.ofFlags flags) key value).run with
    | .ok (_, holding) => return ⟨.ok .success, data, env.keep db holding⟩
    | .error (.existing p v) => return ⟨(Stop.existing p v).outcome, some (.filled v), env⟩
    | .error stop => return ⟨stop.outcome, data, env⟩

def admitDel (env : Environment) (txn : Handle) (dbi : Dbi) (key : Option Descriptor) :
    Except Status (Bytes × Opened) := do
  let key ← present key
  checkKey key
  return (key, ← env.writable txn dbi)

/-- Deletes a key, or one value of it if `data` is given and the values are sorted. -/
def del (env : Environment) (txn : Handle) (dbi : Dbi) (key data : Option Descriptor) :
    Inquiry (Reply Outcome Environment Unit) :=
  match env.admitDel txn dbi key with
  | .error s => return ⟨.ok s, (), env⟩
  | .ok (key, db) => do
    match ← (db.holding.remove db.layout key (data.map Descriptor.bytes)).run with
    | .ok holding => return ⟨.ok .success, (), env.keep db holding⟩
    | .error stop => return ⟨stop.outcome, (), env⟩

end Environment

end CollatedStore
