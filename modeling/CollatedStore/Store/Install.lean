import CollatedStore.Registry.Install
import CollatedStore.Store.Basic

/-!
Installing orders in a store. The registry records the installation before the store is asked, and
takes it back if the store refuses.
-/
namespace CollatedStore

namespace Registry

variable {ε : Type} [Store ε]

def setName : Role → String
  | .keys => "mdb_set_compare"
  | .values => "mdb_set_dupsort"

/-- Gives a database the order that `mode` stands for. -/
def install (r : Registry) (store : ε) (role : Role) (txn : Handle) (dbi : Dbi)
    (mode : Dispatch) : Except CallError Unit × Registry × ε :=
  match r.beginInstall ⟨Store.envId store, dbi, role⟩ mode with
  | .error e => (.error e, r, store)
  | .ok (installing, r) =>
    let (reply, r) := Store.setOrder store r role txn dbi (some installing.fn)
    let result := CallError.check (setName role) reply.ended
    (result, r.endInstall installing result.isOk, reply.store)

/-- Registers a collation under the id of a database's own order and installs it there. If the store
refuses it, the registration ends again. -/
def registerDb (r : Registry) (store : ε) (role : Role) (txn : Handle) (dbi : Dbi)
    (collation : Collation) : Except Halt Guard × Registry × ε :=
  match ContextId.ofDb role (Store.envId store) dbi.toUInt32 with
  | .error b => (.error (.breach b), r, store)
  | .ok id =>
    match r.register id collation with
    | .error e => (.error (.error e), r, store)
    | .ok (guard, r) =>
      match r.install store role txn dbi (.context id) with
      | (.ok (), r, store) => (.ok guard, r, store)
      | (.error e, r, store) => (.error (.error e), r.release guard, store)

end Registry

end CollatedStore
