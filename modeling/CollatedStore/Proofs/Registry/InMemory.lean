import CollatedStore.Proofs.Environment.Catalog
import CollatedStore.Proofs.Environment.Effects
import CollatedStore.Proofs.Registry.World

/-!
The environment in memory as a store that holds functions. Setting an order is the only call that
changes them.
-/
namespace CollatedStore

def Layout.order (layout : Layout) : Role → Option CompareFn
  | .keys => layout.keyOrder
  | .values => layout.valueOrder

namespace Environment

/-- The function that a database compares with in one role. -/
def fn (env : Environment) (dbi : Dbi) (role : Role) : Option CompareFn :=
  (env.catalog.get? dbi).bind fun record => record.layout.order role

theorem setOrder_fn {env : Environment} {role : Role} {txn : Handle} {dbi : Dbi}
    {f : Option CompareFn} (h : (env.setOrder role txn dbi f).ended = .success) (d : Dbi)
    (ρ : Role) :
    (env.setOrder role txn dbi f).store.fn d ρ = if d = dbi ∧ ρ = role then f else env.fn d ρ := by
  unfold setOrder at h ⊢
  split at h
  · rename_i known
    rw [if_pos known]
    simp only [Bool.and_eq_true, Option.isSome_iff_exists] at known
    obtain ⟨_, record, hrecord⟩ := known
    have pos : 0 < dbi := by
      cases dbi with
      | zero => cases hrecord
      | succ n => exact Nat.succ_pos n
    simp only [fn, Catalog.get?_modify _ pos]
    by_cases hd : d = dbi
    · subst hd
      cases role <;> cases ρ <;> simp [hrecord, Layout.order]
    · cases env.catalog.get? d <;> simp [hd]
  · cases h

def orderView : Registry.OrderView Environment where
  fn := Environment.fn
  envId env r role txn dbi f := by
    change (env.setOrder role txn dbi f).store.id = env.id
    unfold setOrder
    split <;> rfl
  registry _ _ _ _ _ _ := rfl
  taken _ _ _ _ _ _ h d ρ := setOrder_fn h d ρ
  refused env r role txn dbi f h d ρ := by
    change (env.setOrder role txn dbi f).store.fn d ρ = env.fn d ρ
    rw [setOrder_refused h]

/-- The functions that databases compare with are the same as before. -/
structure SameFns (env env' : Environment) : Prop where
  id : env'.id = env.id
  fn : ∀ d ρ, env'.fn d ρ = env.fn d ρ

theorem touched_sameFns {env env' : Environment} (h : Touched env env') : SameFns env env' := by
  induction h with
  | same | wrote => exact ⟨rfl, fun _ _ => rfl⟩
  | moved _ _ _ _ ih => exact ⟨ih.id, ih.fn⟩

/-- A change of flags alone leaves the orders. -/
theorem fn_modify {env : Environment} {catalog : Catalog}
    (same : ∀ d ρ, (catalog.get? d).bind (·.layout.order ρ) = env.fn d ρ) {dbi : Dbi}
    (pos : 0 < dbi) (flags : DbFlags) (d : Dbi) (ρ : Role) :
    ((catalog.modify dbi fun r => { r with layout := { r.layout with flags } }).get? d).bind
      (·.layout.order ρ) = env.fn d ρ := by
  rw [← same d ρ, Catalog.get?_modify catalog pos]
  cases catalog.get? d with
  | none => rfl
  | some r => by_cases hd : d = dbi <;> cases ρ <;> simp [hd, Layout.order]

theorem fn_append (env : Environment) (name : Option String) (flags : DbFlags) (d : Dbi)
    (ρ : Role) :
    (Catalog.get? (env.catalog ++ [⟨name, ⟨none, none, flags⟩⟩]) d).bind (·.layout.order ρ) =
      env.fn d ρ := by
  cases d with
  | zero => rfl
  | succ n =>
    simp only [fn, Catalog.get?, List.getElem?_append]
    split
    · rfl
    · rename_i beyond
      rw [List.getElem?_eq_none (Nat.le_of_not_lt beyond)]
      cases n - env.catalog.length <;> cases ρ <;> rfl

theorem createDb_sameFns (env : Environment) (txn : Handle) (snapshot : Snapshot)
    (name : Option String) (flags : DbFlags) :
    SameFns env (env.createDb txn snapshot name flags).store := by
  unfold createDb
  split
  · rename_i dbi known
    obtain ⟨n, _, rfl⟩ := Option.map_eq_some_iff.mp known
    exact ⟨rfl, fn_modify (fun _ _ => rfl) (Nat.succ_pos n) flags⟩
  · split
    · exact ⟨rfl, fun _ _ => rfl⟩
    · exact ⟨rfl, fn_modify (fn_append env name flags) (Nat.succ_pos _) flags⟩

/-- Only setting an order changes the functions that databases compare with. -/
theorem step_sameFns {call : Call} {env env' : Environment} (h : Step call env env')
    (other : ∀ role txn dbi f, call ≠ .setOrder role txn dbi f) : SameFns env env' := by
  cases step_effect h with
  | setOrder role txn dbi f => exact absurd rfl (other role txn dbi f)
  | touched _ touched => exact touched_sameFns touched
  | txnBegin parent flags thread =>
    obtain ⟨_, _, reply⟩ | ⟨_, _, _, _, reply⟩ | ⟨_, _, reply⟩ :=
      txnBegin_cases env parent flags thread
    · rw [reply]; exact ⟨rfl, fun _ _ => rfl⟩
    · rw [reply]; exact ⟨rfl, fun _ _ => rfl⟩
    · rw [reply]; exact ⟨rfl, fun _ _ => rfl⟩
  | txnCommit txn =>
    cases was : env.txns.get? txn with
    | none => simp only [txnCommit, finish, was]; exact ⟨rfl, fun _ _ => rfl⟩
    | some t =>
      cases t <;> (simp only [txnCommit, finish, was]; exact ⟨rfl, fun _ _ => rfl⟩)
  | txnAbort txn =>
    cases was : env.txns.get? txn with
    | none => simp only [txnAbort, finish, was]; exact ⟨rfl, fun _ _ => rfl⟩
    | some t => simp only [txnAbort, finish, was]; exact ⟨rfl, fun _ _ => rfl⟩
  | dbiOpen txn name flags =>
    obtain same | ⟨snapshot, wanted, _, _, created⟩ := dbiOpen_cases env txn name flags
    · rw [same]; exact ⟨rfl, fun _ _ => rfl⟩
    · rw [created]; exact createDb_sameFns _ _ _ _ _
  | cursorOpen txn dbi =>
    unfold cursorOpen
    split <;> exact ⟨rfl, fun _ _ => rfl⟩
  | cursorClose cursor => exact ⟨rfl, fun _ _ => rfl⟩

/-- Any other call on an open environment is work that leaves its orders alone. -/
theorem step_works {w : Registry.World Environment} {e : UInt64} {env env' : Environment}
    (here : w.stores e = some env) {call : Call} (h : Step call env env')
    (other : ∀ role txn dbi f, call ≠ .setOrder role txn dbi f) :
    Registry.World.Step orderView w (w.setStore e (some env')) :=
  have same := step_sameFns h other
  .work w e env env' here same.id same.fn

end Environment

end CollatedStore
