import CollatedStore.Environment.Basic

/-!
Opening databases and setting their orders. A database that is not in the transaction's snapshot is
created on request; its name keeps its number for good, even if the creation is never committed.
-/
namespace CollatedStore

namespace Environment

/-- Creates the database in the writer's snapshot, with a number of its own if the name is new. -/
def createDb (env : Environment) (txn : Handle) (snapshot : Snapshot) (name : Option String)
    (flags : DbFlags) : Reply Status Environment Dbi :=
  let place (dbi : Dbi) (catalog : Catalog) : Reply Status Environment Dbi :=
    ⟨.success, dbi, { env with
      catalog := catalog.modify dbi fun r => { r with layout := { r.layout with flags } }
      txns := env.txns.insert txn
        (.writer { snapshot with dbs := snapshot.dbs.insert dbi [] }) }⟩
  match env.catalog.find? name with
  | some dbi => place dbi env.catalog
  | none =>
    if env.config.maxDbs ≤ env.catalog.length - 1 then ⟨.dbsFull, 0, env⟩
    else place (env.catalog.length + 1) (env.catalog ++ [⟨name, ⟨none, none, flags⟩⟩])

/-- The record of the database called `name`, if the snapshot has that database. -/
def known? (env : Environment) (snapshot : Snapshot) (name : Option String) :
    Option (Dbi × DbRecord) := do
  let dbi ← env.catalog.find? name
  if snapshot.dbs.contains dbi then
    let record ← env.catalog.get? dbi
    return (dbi, record)
  else none

/-- Opens a database by name; no name is the root. Asking for flags other than a database has is
refused, asking for none is not. -/
def dbiOpen (env : Environment) (txn : Handle) (name : Option String) (flags : UInt32) :
    Reply Status Environment Dbi :=
  match DbFlags.ofFlags? flags with
  | none => ⟨.invalid, 0, env⟩
  | some wanted =>
    match env.txns.get? txn with
    | none => ⟨.invalid, 0, env⟩
    | some t =>
      match env.known? t.snapshot name with
      | some (dbi, record) =>
        if wanted ≠ .plain ∧ wanted ≠ record.layout.flags then ⟨.incompatible, 0, env⟩
        else ⟨.success, dbi, env⟩
      | none =>
        if Flags.has flags Flags.create then
          match t with
          | .reader _ _ => ⟨.accessDenied, 0, env⟩
          | .writer snapshot => env.createDb txn snapshot name wanted
        else ⟨.notFound, 0, env⟩

/-- Gives a database one of its orders; no function stands for the baseline order. -/
def setOrder (env : Environment) (role : Role) (txn : Handle) (dbi : Dbi)
    (fn : Option CompareFn) : Reply Status Environment Unit :=
  if env.txns.contains txn && (env.catalog.get? dbi).isSome then
    ⟨.success, (), { env with
      catalog := env.catalog.modify dbi fun r => { r with
        layout := match role with
          | .keys => { r.layout with keyOrder := fn }
          | .values => { r.layout with valueOrder := fn } } }⟩
  else ⟨.invalid, (), env⟩

end Environment

end CollatedStore
