import CollatedStore.Environment.Access

/-!
Calls through cursors. A move or a write ends the mark that a deletion left on the cursor, whether
or not it succeeds.
-/
namespace CollatedStore

namespace Environment

def cursorOpen (env : Environment) (txn : Handle) (dbi : Dbi) : Reply Status Environment Handle :=
  match env.readable txn dbi with
  | .error s => ⟨s, 0, env⟩
  | .ok _ =>
    let h := env.lastHandle + 1
    ⟨.success, h, { env with
      lastHandle := h, cursors := env.cursors.insert h (.new txn dbi) }⟩

def cursorClose (env : Environment) (h : Handle) : Environment :=
  { env with cursors := env.cursors.erase h }

def setCursor (env : Environment) (h : Handle) (c : Cursor) : Environment :=
  { env with cursors := env.cursors.insert h c }

def cursor (env : Environment) (h : Handle) : Except Status Cursor :=
  match env.cursors.get? h with
  | some c => .ok c
  | none => .error .invalid

def admitMove (env : Environment) (h : Handle) : Except Status (Cursor × Contents × Layout) := do
  let c ← env.cursor h
  return (c, ← env.readable c.txn c.dbi)

/-- Fills the descriptors that are there. A value that no one wants is not read. -/
def handOut (entries : Contents) (fetch : Fetch) (key data : Option Descriptor) :
    Work (Option Descriptor × Option Descriptor) := do
  let k ← fetch.key entries
  return (key.map fun _ => .filled k, ← data.mapM fun _ => .filled <$> fetch.value entries)

/-- Moves a cursor and hands out what it yields. The cursor has moved by the time the item is
read. -/
def cursorGet (env : Environment) (h : Handle) (key data : Option Descriptor) (op : UInt32) :
    Inquiry (Reply Outcome Environment (Option Descriptor × Option Descriptor)) :=
  match env.admitMove h with
  | .error s => return ⟨.ok s, (key, data), env⟩
  | .ok (c, entries, layout) => do
    let moved : Work (Fetch × Cursor) :=
      match CursorOp.ofCode? op with
      | none => Work.refuse .invalid
      | some op =>
        c.move layout entries op (Descriptor.bytesOf key) (Descriptor.bytesOf data)
    match ← moved.run with
    | .error stop =>
      return ⟨stop.outcome, (key, data), env.setCursor h { c with deleted := false }⟩
    | .ok (fetch, c) =>
      match ← (handOut entries fetch key data).run with
      | .error stop => return ⟨stop.outcome, (key, data), env.setCursor h c⟩
      | .ok out => return ⟨.ok .success, out, env.setCursor h c⟩

def admitCursorPut (env : Environment) (h : Handle) (key data : Option Descriptor)
    (flags : UInt32) : Except Status (Bytes × Bytes × Cursor × Opened) := do
  let key ← present key
  let value ← present data
  checkFlags flags Flags.cursorPut
  checkKey key
  let c ← env.cursor h
  return (key, value, c, ← env.writable c.txn c.dbi)

/-- Replaces the value of the cursor's item, provided the key is equal to the item's. -/
def replaceCurrent (c : Cursor) (db : Opened) (limit : Nat) (key value : Bytes) :
    Work (Place × Holding) :=
  match c.current db.entries with
  | none => Work.refuse .invalid
  | some p => do
    let e ← Work.itemAt db.entries p.entry
    match ← Work.compare db.layout.keyOrder e.key key with
    | .eq => db.holding.replaceAt db.layout limit p value
    | _ => Work.refuse .invalid

/-- Writes one pair as the flags ask. `multiple` announces records, and a database that does not
keep records of one length refuses it. One that does would read a second descriptor, which a caller
who sets the flag owes the store; where there is one pair only, it is refused as well. -/
def writePair (c : Cursor) (db : Opened) (limit : Nat) (flags : UInt32) (key value : Bytes) :
    Work (Place × Holding) :=
  if Flags.has flags Flags.multiple then Work.refuse .invalid
  else if Flags.has flags Flags.current then replaceCurrent c db limit key value
  else db.holding.put db.layout limit (.ofFlags flags) key value

/-- Stores a pair through a cursor, which comes to stand on the item stored, or on the item
because of which the put was refused. -/
def cursorPut (env : Environment) (h : Handle) (key data : Option Descriptor) (flags : UInt32) :
    Inquiry (Reply Outcome Environment (Option Descriptor)) :=
  match env.admitCursorPut h key data flags with
  | .error s => return ⟨.ok s, data, env⟩
  | .ok (key, value, c, db) => do
    match ← (writePair c db env.config.mapSize flags key value).run with
    | .ok (p, holding) =>
      return ⟨.ok .success, data,
        (env.keep db holding).setCursor h { c with place := some p, deleted := false }⟩
    | .error (.existing p v) =>
      return ⟨(Stop.existing p v).outcome, some (.filled v),
        env.setCursor h { c with place := some p, deleted := false }⟩
    | .error stop => return ⟨stop.outcome, data, env.setCursor h { c with deleted := false }⟩

/-- How far a put of many records has come. -/
structure Progress where
  written : Nat
  place : Option Place
  holding : Holding

/-- Stores records under one key until one is refused. -/
def putRecords (layout : Layout) (limit : Nat) (rule : PutRule) (key : Bytes) :
    List Bytes → Progress → Inquiry (Outcome × Progress)
  | [], progress => return (.ok .success, progress)
  | record :: rest, progress => do
    match ← (progress.holding.put layout limit rule key record).run with
    | .ok (p, holding) =>
      putRecords layout limit rule key rest ⟨progress.written + 1, some p, holding⟩
    | .error stop => return (stop.outcome, progress)

/-- Stores `count` records of `stride` bytes from the front of `page`, all under one key, as the
flags ask that go with `multiple`. Hands out the number of records stored, or `count` itself if the
call is refused before the first. -/
def cursorPutMany (env : Environment) (h : Handle) (key : Option Descriptor) (page : Bytes)
    (count stride : Nat) (flags : UInt32) : Inquiry (Reply Outcome Environment Nat) :=
  match env.admitCursorPut h key (some (.filled page)) flags with
  | .error s => return ⟨.ok s, count, env⟩
  | .ok (key, _, c, db) =>
    let c := { c with deleted := false }
    if !db.layout.flags.fixed then return ⟨.ok .invalid, count, env.setCursor h c⟩
    else if stride = 0 ∧ 0 < count then return ⟨.ok .badValSize, count, env.setCursor h c⟩
    else do
      let records := (List.range count).map fun i => (page.drop (i * stride)).take stride
      let (outcome, progress) ← putRecords db.layout env.config.mapSize (.ofFlags flags) key
        records ⟨0, c.place, db.holding⟩
      return ⟨outcome, progress.written,
        (env.keep db progress.holding).setCursor h { c with place := progress.place }⟩

def admitCursorDel (env : Environment) (h : Handle) : Except Status (Cursor × Place × Opened) := do
  let c ← env.cursor h
  let db ← env.writable c.txn c.dbi
  match c.current db.entries with
  | some p => return (c, p, db)
  | none => .error .invalid

/-- Deletes the cursor's item, or its whole key, and marks the cursor. -/
def cursorDel (env : Environment) (h : Handle) (flags : UInt32) :
    Inquiry (Reply Outcome Environment Unit) :=
  match env.admitCursorDel h with
  | .error s => return ⟨.ok s, (), env⟩
  | .ok (c, p, db) => do
    let all := !db.layout.flags.dupSort || Flags.has flags Flags.noDupData
    match ← (db.holding.removeAt p all).run with
    | .ok (p, holding) =>
      return ⟨.ok .success, (),
        (env.keep db holding).setCursor h { c with place := some p, deleted := true }⟩
    | .error stop => return ⟨stop.outcome, (), env⟩

end Environment

end CollatedStore
