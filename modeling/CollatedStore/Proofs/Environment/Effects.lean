import CollatedStore.Proofs.Edits
import CollatedStore.Proofs.Environment.Endings

/-!
What each call may leave of an environment, said once: a call on data edits at most one holding of
the writer's snapshot, and moves at most its own cursor.
-/
namespace CollatedStore.Environment

/-- What a call on data leaves. -/
inductive Touched (env : Environment) : Environment → Prop
  | same : Touched env env
  | wrote {db : Opened} {holding : Holding} (h : env.writable db.txn db.dbi = .ok db)
      (edits : Holding.Edits db.layout env.config.mapSize db.holding holding) :
      Touched env (env.keep db holding)
  | moved {env' : Environment} {h : Handle} {c c' : Cursor} (rest : Touched env env')
      (here : env.cursors.get? h = some c) (txn : c'.txn = c.txn) (dbi : c'.dbi = c.dbi) :
      Touched env (env'.setCursor h c')

/-- What a call leaves. -/
inductive Effect (env : Environment) : Call → Environment → Prop
  | txnBegin (parent : Option Handle) (flags : UInt32) (thread : Nat) :
      Effect env (.txnBegin parent flags thread) (env.txnBegin parent flags thread).store
  | txnCommit (txn : Handle) : Effect env (.txnCommit txn) (env.txnCommit txn).store
  | txnAbort (txn : Handle) : Effect env (.txnAbort txn) (env.txnAbort txn)
  | dbiOpen (txn : Handle) (name : Option String) (flags : UInt32) :
      Effect env (.dbiOpen txn name flags) (env.dbiOpen txn name flags).store
  | setOrder (role : Role) (txn : Handle) (dbi : Dbi) (fn : Option CompareFn) :
      Effect env (.setOrder role txn dbi fn) (env.setOrder role txn dbi fn).store
  | cursorOpen (txn : Handle) (dbi : Dbi) :
      Effect env (.cursorOpen txn dbi) (env.cursorOpen txn dbi).store
  | cursorClose (cursor : Handle) : Effect env (.cursorClose cursor) (env.cursorClose cursor)
  | touched {call : Call} {env' : Environment} (unpublished : env.publishes call = false)
      (h : Touched env env') : Effect env call env'

section
variable {env : Environment} {txn cursor : Handle} {dbi : Dbi} {key data : Option Descriptor}
  {op : UInt32} {k v : Bytes} {db : Opened}

/-! ## Calls on transactions and databases -/

/-- A begin is refused, or enters a reader or the writer under a new handle. -/
theorem txnBegin_cases (env : Environment) (parent : Option Handle) (flags : UInt32)
    (thread : Nat) :
    (∃ s, s ≠ .success ∧ env.txnBegin parent flags thread = ⟨s, 0, env⟩) ∨
      (Flags.has flags Flags.readOnly = true ∧ ∃ slot readers,
        env.readers.acquire ⟨thread, env.committed.txnId⟩ = some (slot, readers) ∧
        env.txnBegin parent flags thread = ⟨.success, env.lastHandle + 1,
          (({ env with readers } : Environment).enter (.reader env.committed slot)).2⟩) ∨
      (Flags.has flags Flags.readOnly = false ∧ env.writer = none ∧
        env.txnBegin parent flags thread = ⟨.success, env.lastHandle + 1,
          { (env.enter (.writer { env.committed with txnId := env.committed.txnId + 1 })).2 with
            writer := some (env.lastHandle + 1) }⟩) := by
  unfold txnBegin
  split
  · exact .inl ⟨_, by decide, rfl⟩
  · split
    · rename_i readOnly
      split
      · exact .inl ⟨_, by decide, rfl⟩
      · rename_i slot readers acquired
        exact .inr (.inl ⟨readOnly, slot, readers, acquired, rfl⟩)
    · rename_i readWrite
      split
      · exact .inl ⟨_, by decide, rfl⟩
      · rename_i idle
        exact .inr (.inr ⟨by simpa using readWrite, by simpa using idle, rfl⟩)

/-- Opening a database leaves the environment as it is, or creates the database for a writer who
does not have it. -/
theorem dbiOpen_cases (env : Environment) (txn : Handle) (name : Option String) (flags : UInt32) :
    (env.dbiOpen txn name flags).store = env ∨
      ∃ snapshot wanted, env.txns.get? txn = some (.writer snapshot) ∧
        env.known? snapshot name = none ∧
        env.dbiOpen txn name flags = env.createDb txn snapshot name wanted := by
  unfold dbiOpen
  split
  · exact .inl rfl
  · split
    · exact .inl rfl
    · split
      · split <;> exact .inl rfl
      · rename_i unknown
        split
        · split
          · exact .inl rfl
          · rename_i snapshot was
            exact .inr ⟨snapshot, _, was, unknown, rfl⟩
        · exact .inl rfl

/-- A cursor is refused, or opened under a new handle. -/
theorem cursorOpen_cases (env : Environment) (txn : Handle) (dbi : Dbi) :
    (∃ s, s ≠ .success ∧ env.cursorOpen txn dbi = ⟨s, 0, env⟩) ∨
      ∃ found, env.readable txn dbi = .ok found ∧
        env.cursorOpen txn dbi = ⟨.success, env.lastHandle + 1, { env with
          lastHandle := env.lastHandle + 1
          cursors := env.cursors.insert (env.lastHandle + 1) (.new txn dbi) }⟩ := by
  unfold cursorOpen
  cases readable : env.readable txn dbi with
  | error s => exact .inl ⟨s, denies_readable env txn dbi s readable, rfl⟩
  | ok found => exact .inr ⟨found, rfl, rfl⟩

theorem setOrder_refused {role : Role} {fn : Option CompareFn}
    (failed : (env.setOrder role txn dbi fn).ended ≠ .success) :
    (env.setOrder role txn dbi fn).store = env := by
  unfold setOrder at failed ⊢
  split
  · rename_i known
    rw [if_pos known] at failed
    exact absurd rfl failed
  · rfl

/-! ## Calls on data -/

/-- A move leaves a cursor its transaction and its database. -/
theorem move_keeps {c c' : Cursor} {layout : Layout} {entries : Contents} {op : CursorOp}
    {fetch : Fetch} {key data : Bytes}
    (h : (c.move layout entries op key data).run.Yields (.ok (fetch, c'))) :
    c'.txn = c.txn ∧ c'.dbi = c.dbi := by
  unfold Cursor.move at h
  obtain ⟨_, _, h⟩ := Work.yields_bind.mp h
  obtain ⟨_, _, h⟩ := Work.yields_bind.mp h
  cases h
  exact ⟨rfl, rfl⟩

theorem MoveEnded.touched {may : Question → Ordering → Prop}
    {reply : Reply Outcome Environment (Option Descriptor × Option Descriptor)}
    (h : MoveEnded may env cursor key data op reply) : Touched env reply.store := by
  cases h with
  | refused => exact .same
  | unknown here => exact .moved .same here rfl rfl
  | stuck admitted => exact .moved .same (admitMove_eq_ok.mp admitted).1 rfl rfl
  | unread admitted _ moved | yielded admitted _ moved =>
    have kept := move_keeps moved.yields
    exact .moved .same (admitMove_eq_ok.mp admitted).1 kept.1 kept.2

theorem Attempted.touched {may : Question → Ordering → Prop} {call : Call} {outcome : Outcome}
    {env' : Environment} (h : Attempted may env call outcome env') : Touched env env' := by
  induction h with
  | refused => exact .same
  | wrote writable _ admitted made => exact .wrote writable (Write.change admitted made).edits
  | stopped => exact .same
  | moved _ _ here txn dbi _ touched => exact .moved touched here txn dbi

theorem BatchEnded.touched {may : Question → Ordering → Prop} {page : Bytes} {count stride : Nat}
    {flags : UInt32} {reply : Reply Outcome Environment Nat}
    (h : BatchEnded may env cursor key page count stride flags reply) :
    Touched env reply.store := by
  cases h with
  | refused => exact .same
  | unfit _ here => exact .moved .same here rfl rfl
  | made here writable _ valid put =>
    have changes := putRecords_changes valid put
    exact .moved (.wrote (writable_self writable) changes.edits) here rfl rfl

end

theorem step_effect {call : Call} {env env' : Environment} (h : Step call env env') :
    Effect env call env' := by
  obtain ⟨outcome, ended⟩ := step_ended h
  cases ended with
  | txnBegin parent flags thread => exact .txnBegin parent flags thread
  | txnCommit txn => exact .txnCommit txn
  | txnAbort txn => exact .txnAbort txn
  | dbiOpen txn name flags => exact .dbiOpen txn name flags
  | setOrder role txn dbi fn => exact .setOrder role txn dbi fn
  | cursorOpen txn dbi => exact .cursorOpen txn dbi
  | cursorClose cursor => exact .cursorClose cursor
  | read _ => exact .touched rfl .same
  | attempted unpublished attempt => exact .touched unpublished attempt.touched
  | batch ended => exact .touched rfl ended.touched
  | moved ended => exact .touched rfl ended.touched

end CollatedStore.Environment
