import CollatedStore.Proofs.Environment.Batches
import CollatedStore.Proofs.Environment.Checks

/-!
Where cursors stand. A call leaves every cursor where it stood, or puts its own among the entries of
its database, or just past them; what others do to the database later does not move it.
-/
namespace CollatedStore

/-- Each entry has a key of at least a byte. -/
theorem Contents.length_le_size {entries : Contents} (keys : ∀ e ∈ entries, 1 ≤ e.key.length) :
    entries.length ≤ entries.size := by
  induction entries with
  | nil => exact Nat.le_refl 0
  | cons e rest ih =>
    have key := keys e List.mem_cons_self
    have more := ih fun e' there => keys e' (List.mem_cons_of_mem e there)
    rw [size_cons, Entry.size, List.length_cons]
    omega

/-- There are no more entries than bytes in use. -/
theorem Snapshot.Accounted.length_le {limit : Nat} {s : Snapshot} (ok : s.Accounted limit)
    {dbi : Dbi} {entries : Contents} (has : s.dbs.get? dbi = some entries) :
    entries.length ≤ s.used := by
  have bytes := Contents.length_le_size fun e there => (ok.keys has e there).1
  have others := Table.sum_insert_of_get? Contents.size has []
  have used := ok.used
  rw [Contents.size_nil] at others
  omega

namespace Environment

/-- Each cursor stands where it stood, or in its database as its transaction finds it now. -/
def Settled (env env' : Environment) : Prop :=
  ∀ (k : Handle) (c : Cursor) (p : Place), env'.cursors.get? k = some c → c.place = some p →
    (∃ c₀, env.cursors.get? k = some c₀ ∧ c₀.place = some p) ∨ env'.Near c.txn c.dbi p

section
variable {may : Question → Ordering → Prop} {env env' : Environment} {call : Call}
  {outcome : Outcome} {cursor : Handle} {key data : Option Descriptor}

theorem Settled.of_cursors (same : env'.cursors = env.cursors) : Settled env env' :=
  fun _ c _ here place => .inl ⟨c, same ▸ here, place⟩

/-- Cursors that are closed stand nowhere. -/
theorem Settled.of_filter (kept : Handle → Cursor → Bool)
    (some_closed : env'.cursors = env.cursors.filter kept) : Settled env env' := by
  intro k c p here place
  rw [some_closed, Table.get?_eq_some_iff] at here
  have open_before := (Table.get?_eq_some_iff env.cursors k c).mpr (List.mem_of_mem_filter here)
  exact .inl ⟨c, open_before, place⟩

/-- One cursor moves, or is opened. -/
theorem Settled.setCursor (settled : Settled env env') {h : Handle} {c : Cursor}
    (place : ∀ p, c.place = some p →
      (∃ c₀, env.cursors.get? h = some c₀ ∧ c₀.place = some p) ∨ env'.Near c.txn c.dbi p) :
    Settled env (env'.setCursor h c) := by
  intro k c' p here stands
  by_cases own : k = h
  · subst own
    obtain rfl : c = c' := by simpa [Environment.setCursor] using here
    exact place p stands
  · have here : env'.cursors.get? k = some c' := by
      simpa [Environment.setCursor, own] using here
    exact settled k c' p here stands

theorem Attempted.settled (h : Attempted may env call outcome env') : Settled env env' := by
  induction h with
  | refused => exact .of_cursors rfl
  | wrote => exact .of_cursors rfl
  | stopped => exact .of_cursors rfl
  | @moved outcome env' h c c' _ _ here txn dbi place settled =>
    refine settled.setCursor fun p stands => ?_
    obtain stood | near := place p stands
    · exact .inl ⟨c, here, stood⟩
    · rw [txn, dbi]
      exact .inr near

theorem MoveEnded.settled {op : UInt32}
    {reply : Reply Outcome Environment (Option Descriptor × Option Descriptor)}
    (balanced : Balanced env) (h : MoveEnded may env cursor key data op reply) :
    Settled env reply.store := by
  have start : Settled env env := .of_cursors rfl
  cases h with
  | refused => exact start
  | @unknown c here => exact start.setCursor fun p stood => .inl ⟨c, here, stood⟩
  | @stuck c _ _ _ _ admitted =>
    exact start.setCursor fun p stood => .inl ⟨c, (admitMove_eq_ok.mp admitted).1, stood⟩
  | @unread c c' entries layout move fetch _ admitted _ moved
  | @yielded c c' entries layout move fetch _ admitted _ moved =>
    have readable := (admitMove_eq_ok.mp admitted).2
    obtain ⟨q, among, same⟩ := (move_checked balanced admitted).result moved.yields
    obtain rfl : c' = { c with place := some q, deleted := false } := same
    refine start.setCursor fun p stands => .inr ⟨entries, layout, readable, ?_⟩
    exact Option.some.inj stands ▸ Nat.le_of_lt among

/-- As long as no record is stored, the place is that from before. -/
theorem putRecords_place {layout : Layout} {limit : Nat} {rule : PutRule} {k : Bytes}
    (valid : validKey k = true) {records : List Bytes} {progress progress' : Progress}
    (put : (putRecords layout limit rule k records progress).YieldsBy may (outcome, progress')) :
    progress'.place = progress.place ∨ progress'.Stands := by
  cases records with
  | nil =>
    cases put
    exact .inl rfl
  | cons record rest =>
    obtain ⟨result, stored, put⟩ := Inquiry.yieldsBy_bind.mp put
    cases result with
    | ok placed =>
      have stands := (Holding.put_placed valid stored).stands
      exact .inr (putRecords_stands valid ⟨placed.1, rfl, stands⟩ put.yields)
    | error stop =>
      cases put
      exact .inl rfl

theorem BatchEnded.settled {page : Bytes} {count stride : Nat} {flags : UInt32}
    {reply : Reply Outcome Environment Nat}
    (h : BatchEnded may env cursor key page count stride flags reply) :
    Settled env reply.store := by
  have start : Settled env env := .of_cursors rfl
  cases h with
  | refused => exact start
  | @unfit _ c _ here => exact start.setCursor fun p stood => .inl ⟨c, here, stood⟩
  | @made k c db outcome progress here writable _ valid put =>
    have kept : Settled env (env.keep db progress.holding) := .of_cursors rfl
    refine kept.setCursor fun p stands => ?_
    obtain same | ⟨q, reached, holds⟩ := putRecords_place valid put
    · exact .inl ⟨c, here, same.symm.trans stands⟩
    · obtain rfl : q = p := Option.some.inj (reached.symm.trans stands)
      exact .inr (.of_keep writable (Nat.le_of_lt (Contents.entry_lt_of_holds holds)))

theorem finish_settled {h : Handle} {t : Txn} (ended : env.finish h = some (t, env')) :
    Settled env env' := by
  obtain ⟨u, _, same⟩ := Option.map_eq_some_iff.mp ended
  cases same
  exact .of_filter (fun _ c => c.txn != h) rfl

end

theorem step_settled {env env' : Environment} {call : Call} (balanced : Balanced env)
    (h : Step call env env') : Settled env env' := by
  obtain ⟨outcome, ended⟩ := step_ended h
  cases ended with
  | txnBegin parent flags thread =>
    obtain ⟨_, _, same⟩ | ⟨_, _, _, _, begun⟩ | ⟨_, _, begun⟩ :=
      txnBegin_cases env parent flags thread
    · rw [same]; exact .of_cursors rfl
    · rw [begun]; exact .of_cursors rfl
    · rw [begun]; exact .of_cursors rfl
  | txnCommit txn =>
    unfold txnCommit
    split
    · exact .of_cursors rfl
    · rename_i ended
      exact finish_settled ended
    · rename_i ended
      obtain ⟨u, _, same⟩ := Option.map_eq_some_iff.mp ended
      cases same
      exact .of_filter (fun _ c => c.txn != txn) rfl
  | txnAbort txn =>
    unfold txnAbort
    split
    · exact .of_cursors rfl
    · rename_i ended
      exact finish_settled ended
  | dbiOpen txn name flags =>
    obtain same | ⟨snapshot, wanted, _, unknown, opened⟩ := dbiOpen_cases env txn name flags
    · rw [same]; exact .of_cursors rfl
    · rw [opened]
      obtain same | ⟨_, _, created, _⟩ := createDb_cases unknown txn wanted
      · rw [same]; exact .of_cursors rfl
      · rw [created]; exact .of_cursors rfl
  | setOrder role txn dbi fn =>
    unfold setOrder
    split <;> exact .of_cursors rfl
  | cursorOpen txn dbi =>
    unfold cursorOpen
    split
    · exact .of_cursors rfl
    · -- A cursor that is opened stands nowhere yet.
      have entered : Settled env { env with lastHandle := env.lastHandle + 1 } := .of_cursors rfl
      exact entered.setCursor fun p stands => absurd stands.symm (Option.some_ne_none p)
  | cursorClose cursor => exact .of_filter (fun k _ => decide (k ≠ cursor)) rfl
  | read _ => exact .of_cursors rfl
  | attempted _ attempt => exact attempt.settled
  | batch ended => exact ended.settled
  | moved ended => exact ended.settled balanced

end Environment

end CollatedStore
