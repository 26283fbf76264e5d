import CollatedStore.Proofs.Environment.Atomicity
import CollatedStore.Proofs.Environment.Deletion
import CollatedStore.Proofs.Environment.Lookups
import CollatedStore.Proofs.Flags

/-!
Two routes to one database. What is written by key and what is written through a cursor ends alike
and leaves the same contents, whatever the answers are, as long as both routes get the same ones.
-/
namespace CollatedStore

namespace Environment

/-- The two replies are the same, and so is what they leave, but for the cursor. -/
structure SameReply {α : Type} (cursor : Handle) (direct through : Reply Outcome Environment α) :
    Prop where
  ended : through.ended = direct.ended
  out : through.out = direct.out
  store : Unchanged (some cursor) direct.store through.store

/-- Moves the cursor and, if that yields something, deletes there. -/
def deleteAt (env : Environment) (cursor : Handle) (op : CursorOp) (key data : Option Descriptor)
    (flags : UInt32) : Inquiry (Reply Outcome Environment Unit) := do
  let moved ← env.cursorGet cursor key data op.code
  if moved.ended = .ok .success then moved.store.cursorDel cursor flags
  else return ⟨moved.ended, (), moved.store⟩

section
variable {env : Environment} {cursor : Handle} {c : Cursor} {snapshot : Snapshot} {db : Opened}
  {answer : Question → Ordering} {key : Descriptor} {data : Option Descriptor} {flags : UInt32}
  {s : Status}

/-! ## Puts -/

/-- A put through a cursor of a database is admitted as a put there is. -/
theorem admitCursorPut_eq {key : Option Descriptor} (here : env.cursors.get? cursor = some c)
    (single : Flags.has flags Flags.multiple = false)
    (plain : Flags.has flags Flags.current = false) :
    env.admitCursorPut cursor key data flags =
      (env.admitPut c.txn c.dbi key data flags).map fun (k, v, db) => (k, v, c, db) := by
  have live : env.cursor cursor = .ok c := cursor_eq_ok.mpr here
  unfold admitCursorPut admitPut checkFlags
  rw [Flags.cursorPut, Flags.within_or single, Flags.within_or plain, live]
  cases present key with
  | error s => rfl
  | ok k =>
    cases present data with
    | error s => rfl
    | ok v =>
      cases Flags.within flags Flags.put with
      | false => rfl
      | true =>
        cases checked : checkKey k with
        | error s => simp [checked]
        | ok u => cases writable : env.writable c.txn c.dbi <;> simp [checked, writable]

theorem cursorPut_agrees {key : Option Descriptor} (here : env.cursors.get? cursor = some c)
    (single : Flags.has flags Flags.multiple = false)
    (plain : Flags.has flags Flags.current = false) :
    SameReply cursor ((env.put c.txn c.dbi key data flags).eval answer)
      ((env.cursorPut cursor key data flags).eval answer) := by
  unfold put cursorPut
  rw [admitCursorPut_eq here single plain]
  cases env.admitPut c.txn c.dbi key data flags with
  | error s => exact ⟨rfl, rfl, .refl (some cursor) env⟩
  | ok found =>
    obtain ⟨k, v, db⟩ := found
    simp only [map_ok, writePair_put single plain, Inquiry.eval_bind, Work.eval_run]
    generalize Work.eval answer _ = result
    rcases result with stop | ⟨p, holding⟩
    · cases stop with
      | existing p v => exact ⟨rfl, rfl, (Unchanged.refl (some cursor) env).setCursor here rfl⟩
      | status s => exact ⟨rfl, rfl, (Unchanged.refl (some cursor) env).setCursor here rfl⟩
      | broken b => exact ⟨rfl, rfl, (Unchanged.refl (some cursor) env).setCursor here rfl⟩
    · exact ⟨rfl, rfl, (Unchanged.refl (some cursor) (env.keep db holding)).setCursor here rfl⟩

/-- Where many values are announced, nothing is put by key. -/
theorem put_refuses_many {key : Option Descriptor} (many : Flags.has flags Flags.multiple = true) :
    env.put txn dbi key data flags = .done ⟨.ok .invalid, data, env⟩ := by
  have outside : Flags.within flags Flags.put = false := by
    rw [Bool.eq_false_iff]
    intro inside
    rw [Flags.has_of_within (by decide) inside] at many
    cases many
  have refused : env.admitPut txn dbi key data flags = .error .invalid := by
    unfold admitPut checkFlags
    rw [outside]
    cases key with
    | none => rfl
    | some key => cases data <;> rfl
  rw [put, refused]
  rfl

/-- Nor is one of them put through a cursor. -/
theorem cursorPut_refuses_many {key : Option Descriptor}
    (many : Flags.has flags Flags.multiple = true) :
    ∃ s env', s ≠ .success ∧
      (env.cursorPut cursor key data flags).eval answer = ⟨.ok s, data, env'⟩ ∧
        Unchanged (some cursor) env env' := by
  have start := Unchanged.refl (some cursor) env
  cases admitted : env.admitCursorPut cursor key data flags with
  | error s =>
    have failed := denies_admitCursorPut env cursor key data flags s admitted
    exact ⟨s, env, failed, by rw [cursorPut, admitted]; rfl, start⟩
  | ok found =>
    obtain ⟨k, v, c, db⟩ := found
    obtain ⟨_, _, _, _, here, _⟩ := admitCursorPut_eq_ok.mp admitted
    refine ⟨.invalid, env.setCursor cursor { c with deleted := false }, by decide, ?_,
      start.setCursor here rfl⟩
    simp only [cursorPut, admitted, writePair_multiple many]
    rfl

/-! ## Deletions -/

theorem readable_error (writer : env.txns.get? c.txn = some (.writer snapshot))
    (denied : env.writable c.txn c.dbi = .error s) : env.readable c.txn c.dbi = .error s := by
  unfold writable at denied
  unfold readable
  cases named : env.catalog.get? c.dbi with
  | none => simpa [writer, named] using denied
  | some record =>
    cases stored : snapshot.dbs.get? c.dbi with
    | none => simpa [writer, named, stored, Txn.snapshot] using denied
    | some entries => simp [writer, named, stored] at denied

theorem eval_cursorDel (answer : Question → Ordering) {p : Place}
    (here : env.cursors.get? cursor = some c) (writable : env.writable c.txn c.dbi = .ok db)
    (stands : c.current db.entries = some p) (flags : UInt32) :
    (env.cursorDel cursor flags).eval answer =
      match (db.holding.removeAt p (takesKey db.layout flags)).eval answer with
      | .ok (p', holding) => ⟨.ok .success, (),
          (env.keep db holding).setCursor cursor { c with place := some p', deleted := true }⟩
      | .error stop => ⟨stop.outcome, (), env⟩ := by
  have admitted := admitCursorDel_eq_ok.mpr ⟨here, writable, stands⟩
  simp only [cursorDel, admitted, Inquiry.eval_bind, Work.eval_run]
  rw [← takesKey]
  generalize Work.eval answer _ = result
  rcases result with stop | ⟨p', holding⟩ <;> rfl

/-- Where the key is removed as the item is that the cursor is moved to. -/
theorem deleteAt_agrees {value : Option Descriptor} {op : CursorOp} {p : Place} {e : Entry}
    {v : Bytes} (here : env.cursors.get? cursor = some c)
    (writable : env.writable c.txn c.dbi = .ok db) (valid : validKey key.bytes = true)
    (stood : db.entries[p.entry]? = some e) (was : e.values[p.value]? = some v)
    (led : (env.cursorGet cursor (some key) data op.code).eval answer =
      moveFound (some key) data (env.setCursor cursor (c.landed (some (p, e.key, v))))
        (some (e.key, v)))
    (removed : (db.holding.remove db.layout key.bytes (value.map Descriptor.bytes)).eval answer =
      ((db.holding.removeAt p (takesKey db.layout flags)).eval answer).map (·.2)) :
    SameReply cursor ((env.del c.txn c.dbi (some key) value).eval answer)
      ((env.deleteAt cursor op (some key) data flags).eval answer) := by
  have there : (env.setCursor cursor (c.landed (some (p, e.key, v)))).cursors.get? cursor =
      some (c.landed (some (p, e.key, v))) := Table.get?_insert_self _ _ _
  have stands : (c.landed (some (p, e.key, v))).current db.entries = some p := by
    obtain ⟨among, -⟩ := List.getElem?_eq_some_iff.mp was
    simp [Cursor.current, Cursor.landed, Contents.holds_iff.mpr ⟨e, stood, among⟩]
  have deleted := eval_cursorDel answer there writable stands flags
  rw [eval_del writable valid, removed, deleteAt, Inquiry.eval_bind, led]
  simp only [moveFound, if_true, deleted]
  generalize Work.eval answer (db.holding.removeAt p (takesKey db.layout flags)) = result
  rcases result with stop | ⟨p', holding⟩
  · exact ⟨rfl, rfl, (Unchanged.refl (some cursor) env).setCursor here rfl⟩
  · have wrote := Unchanged.refl (some cursor) (env.keep db holding)
    have moved : Unchanged (some cursor) _
        ((env.keep db holding).setCursor cursor (c.landed (some (p, e.key, v)))) :=
      wrote.setCursor here rfl
    exact ⟨rfl, rfl, moved.setCursor here rfl⟩

/-- Where the key is not there to be removed, nor for the cursor to be moved to. -/
theorem deleteAt_agrees_nothing {value : Option Descriptor} {op : CursorOp}
    (here : env.cursors.get? cursor = some c) (writable : env.writable c.txn c.dbi = .ok db)
    (valid : validKey key.bytes = true)
    (led : (env.cursorGet cursor (some key) data op.code).eval answer =
      moveFound (some key) data (env.setCursor cursor (c.landed none)) none)
    (removed : (db.holding.remove db.layout key.bytes (value.map Descriptor.bytes)).eval answer =
      .error (.status .notFound)) :
    SameReply cursor ((env.del c.txn c.dbi (some key) value).eval answer)
      ((env.deleteAt cursor op (some key) data flags).eval answer) := by
  rw [eval_del writable valid, removed, deleteAt, Inquiry.eval_bind, led]
  exact ⟨rfl, rfl, (Unchanged.refl (some cursor) env).setCursor here rfl⟩

/-- Where there is no such database, neither route gets to it. -/
theorem deleteAt_agrees_refused {value : Option Descriptor} {op : CursorOp}
    (here : env.cursors.get? cursor = some c)
    (writer : env.txns.get? c.txn = some (.writer snapshot)) (valid : validKey key.bytes = true)
    (denied : env.writable c.txn c.dbi = .error s) :
    SameReply cursor ((env.del c.txn c.dbi (some key) value).eval answer)
      ((env.deleteAt cursor op (some key) data flags).eval answer) := by
  have direct : env.admitDel c.txn c.dbi (some key) = .error s := by
    simp [admitDel, present, checkKey, valid, denied]
  have through : env.admitMove cursor = .error s := by
    simp [admitMove, cursor_eq_ok.mpr here, readable_error writer denied]
  have failed : ¬(.ok s : Outcome) = .ok .success :=
    fun success => denies_writable env c.txn c.dbi s denied (Except.ok.inj success)
  have stopped : (env.deleteAt cursor op (some key) data flags).eval answer =
      ⟨.ok s, (), env⟩ := by
    rw [deleteAt, cursorGet, through]
    simp [failed]
  rw [del, direct, stopped]
  exact ⟨rfl, rfl, .refl (some cursor) env⟩

theorem del_key_agrees (balanced : Balanced env) (here : env.cursors.get? cursor = some c)
    (writer : env.txns.get? c.txn = some (.writer snapshot)) (valid : validKey key.bytes = true) :
    SameReply cursor ((env.del c.txn c.dbi (some key) none).eval answer)
      ((env.deleteAt cursor .set (some key) data Flags.noDupData).eval answer) := by
  cases writable : env.writable c.txn c.dbi with
  | error s => exact deleteAt_agrees_refused here writer valid writable
  | ok db =>
    have readable := readable_of_writable writable
    obtain ⟨spot, located⟩ := Contents.find_ends answer db.layout db.entries key.bytes
    have sought := Contents.eval_seekKey valid located
    cases spot with
    | absent i =>
      refine deleteAt_agrees_nothing here writable valid ?_ (Holding.eval_remove_absent located)
      refine eval_cursorGet_lands here readable rfl .nothing ?_
      rw [Cursor.target, Work.eval_map]
      exact congrArg (Except.map Fetch.item) sought
    | found i =>
      have inside : i < db.entries.length := (@Contents.ensures_find True _ _ _).of_eval located
      have stood := List.getElem?_eq_getElem inside
      obtain ⟨v, vs, first⟩ := List.exists_cons_of_ne_nil
        (readable_inhabited balanced readable _ (List.getElem_mem inside))
      have was : db.entries[i].values[0]? = some v := by rw [first]; rfl
      refine deleteAt_agrees (p := ⟨i, 0⟩) here writable valid stood was ?_ ?_
      · refine eval_cursorGet_lands here readable rfl (.item stood was) ?_
        rw [Cursor.target, Work.eval_map]
        exact congrArg (Except.map Fetch.item) sought
      · have whole : takesKey db.layout Flags.noDupData = true := Bool.or_eq_true_iff.mpr (.inr rfl)
        rw [whole]
        exact Holding.eval_remove_whole located (.inr rfl)

theorem del_value_agrees {value : Descriptor} {record : DbRecord}
    (here : env.cursors.get? cursor = some c)
    (writer : env.txns.get? c.txn = some (.writer snapshot))
    (named : env.catalog.get? c.dbi = some record) (sorted : record.layout.flags.dupSort = true)
    (valid : validKey key.bytes = true) :
    SameReply cursor ((env.del c.txn c.dbi (some key) (some value)).eval answer)
      ((env.deleteAt cursor .getBoth (some key) (some value) 0).eval answer) := by
  cases writable : env.writable c.txn c.dbi with
  | error s => exact deleteAt_agrees_refused here writer valid writable
  | ok db =>
    have readable := readable_of_writable writable
    have sorted : db.layout.flags.dupSort = true := by
      obtain ⟨_, _, _, _, named', _, rfl⟩ := writable_eq_ok.mp writable
      cases named.symm.trans named'
      exact sorted
    -- Where no such pair is found, there is none to remove.
    have nothing (missed : (Cursor.seekPair db.layout db.entries false key.bytes value.bytes).eval
          answer = .error (.status .notFound))
        (removed : (db.holding.remove db.layout key.bytes (some value.bytes)).eval answer =
          .error (.status .notFound)) :
        SameReply cursor ((env.del c.txn c.dbi (some key) (some value)).eval answer)
          ((env.deleteAt cursor .getBoth (some key) (some value) 0).eval answer) := by
      refine deleteAt_agrees_nothing here writable valid ?_ removed
      refine eval_cursorGet_lands here readable rfl .nothing ?_
      rw [Cursor.target, Work.eval_map]
      exact congrArg (Except.map Fetch.item) missed
    obtain ⟨spot, located⟩ := Contents.find_ends answer db.layout db.entries key.bytes
    cases spot with
    | absent i =>
      exact nothing (Contents.eval_seekPair_absent valid sorted located)
        (Holding.eval_remove_absent located)
    | found i =>
      have inside : i < db.entries.length := (@Contents.ensures_find True _ _ _).of_eval located
      have stood := List.getElem?_eq_getElem inside
      obtain ⟨spot, among⟩ :=
        Contents.findIn_ends answer db.layout db.entries[i].values value.bytes
      have sought := Contents.eval_seekPair_found false valid sorted located stood among
      have removed : (db.holding.remove db.layout key.bytes (some value.bytes)).eval answer = _ :=
        Holding.eval_remove_value located sorted stood
      rw [among, ok_bind] at removed
      cases spot with
      | absent j => exact nothing sought removed
      | found j =>
        have there : j < db.entries[i].values.length :=
          (@Contents.ensures_findIn True _ _ _).of_eval among
        refine deleteAt_agrees (p := ⟨i, j⟩) here writable valid stood
          (List.getElem?_eq_getElem there) ?_ ?_
        · refine eval_cursorGet_lands here readable rfl
            (.item stood (List.getElem?_eq_getElem there)) ?_
          rw [Cursor.target, Work.eval_map]
          exact congrArg (Except.map Fetch.item) sought
        · have one : takesKey db.layout 0 = false := by simp [takesKey, sorted, Flags.has]
          rw [one]
          exact removed

end

/-! ## Both routes -/

/-- What is written by key is written through the cursor as well. -/
structure RoutesAgree (answer : Question → Ordering) (env : Environment) (cursor : Handle)
    (c : Cursor) : Prop where
  put : ∀ key data flags, Flags.has flags Flags.multiple = false →
    Flags.has flags Flags.current = false →
    SameReply cursor ((env.put c.txn c.dbi key data flags).eval answer)
      ((env.cursorPut cursor key data flags).eval answer)
  /-- Where many values are announced, neither route stores the one that is there. -/
  many : ∀ key data flags, Flags.has flags Flags.multiple = true →
    (env.put c.txn c.dbi key data flags).eval answer = ⟨.ok .invalid, data, env⟩ ∧
      ∃ s env', s ≠ .success ∧
        (env.cursorPut cursor key data flags).eval answer = ⟨.ok s, data, env'⟩ ∧
          Unchanged (some cursor) env env'
  /-- A key is deleted where it is sought, with all its values. -/
  key : ∀ (key : Descriptor) data, validKey key.bytes = true →
    SameReply cursor ((env.del c.txn c.dbi (some key) none).eval answer)
      ((env.deleteAt cursor .set (some key) data Flags.noDupData).eval answer)
  /-- One of several values is deleted where the pair is sought. -/
  value : ∀ (key value : Descriptor) record, validKey key.bytes = true →
    env.catalog.get? c.dbi = some record → record.layout.flags.dupSort = true →
    SameReply cursor ((env.del c.txn c.dbi (some key) (some value)).eval answer)
      ((env.deleteAt cursor .getBoth (some key) (some value) 0).eval answer)

/-- **Direct writes and cursor writes agree.** A put, and the deletion of a key or of one value,
end alike by both routes, hand out the same, and leave the same store but for where the cursor
stands. The entries may stand in any order, and the answers need not be those of one. -/
theorem direct_and_cursor_writes_agree {env : Environment} {cursor : Handle} {c : Cursor}
    {snapshot : Snapshot} (reached : Reachable env) (here : env.cursors.get? cursor = some c)
    (writer : env.txns.get? c.txn = some (.writer snapshot)) (answer : Question → Ordering) :
    RoutesAgree answer env cursor c where
  put _ _ _ single plain := cursorPut_agrees here single plain
  many _ _ _ announced :=
    ⟨by rw [put_refuses_many announced]; rfl, cursorPut_refuses_many announced⟩
  key _ _ valid := del_key_agrees (reachable_balanced reached) here writer valid
  value _ _ _ valid named sorted := del_value_agrees here writer named sorted valid

/-- Among the values of a key, one of which is deleted. -/
theorem direct_and_cursor_writes_agree_on_two_values :
    ∃ env c snapshot, Reachable env ∧ env.cursors.get? 2 = some c ∧
      env.txns.get? c.txn = some (.writer snapshot) ∧
      snapshot.dbs.get? c.dbi = some [⟨[1], [[5], [7]]⟩] ∧
      ∃ direct through : Reply Outcome Environment Unit,
        (env.del c.txn c.dbi (some (.filled [1])) (some (.filled [5]))).eval
          (fun q => Order.baseline q.left q.right) = direct ∧
        (env.deleteAt 2 .getBoth (some (.filled [1])) (some (.filled [5])) 0).eval
          (fun q => Order.baseline q.left q.right) = through ∧
        direct.ended = .ok .success ∧ SameReply 2 direct through := by
  have start : Reachable (Environment.new 1 "" {}) := ⟨1, "", {}, 0, .start⟩
  have begun := start.next (.txnBegin none 0) ⟨_, .done _⟩
  have opened := begun.next (.dbiOpen 1 (some "values") (Flags.dupSort ||| Flags.create))
    ⟨_, .done _⟩
  have first := opened.next (.put 1 2 (some (.filled [1])) (some (.filled [5])) 0) ⟨_, .done _⟩
  have second := first.next (.put 1 2 (some (.filled [1])) (some (.filled [7])) 0) ⟨_, .done _⟩
  have reached := second.next (.cursorOpen 1 2) ⟨_, .done _⟩
  have agree : RoutesAgree _ _ 2 _ :=
    direct_and_cursor_writes_agree reached rfl rfl fun q => Order.baseline q.left q.right
  exact ⟨_, _, _, reached, rfl, rfl, rfl, _, _, rfl, rfl, rfl,
    agree.value _ _ _ rfl rfl rfl⟩

end Environment

end CollatedStore
