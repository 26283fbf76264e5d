import CollatedStore.Proofs.Environment.Accounting
import CollatedStore.Proofs.Environment.Atomicity
import CollatedStore.Proofs.InOrder
import CollatedStore.Proofs.Orders

/-!
The order of what is stored. As long as every call on a database is answered by the same two total
preorders, whoever holds a snapshot finds its keys, and the values of each key, in strict order.
-/
namespace CollatedStore.Environment

/-- The snapshot is the committed one, or that of a transaction. -/
def Holds (env : Environment) (s : Snapshot) : Prop :=
  s = env.committed ∨ ∃ h t, env.txns.get? h = some t ∧ s = t.snapshot

/-- Where a call has the entries from that a snapshot has in a database. -/
inductive Origin (may : Question → Ordering → Prop) (env : Environment) (call : Call) (dbi : Dbi) :
    Contents → Prop
  | held {s : Snapshot} {entries : Contents} (holds : env.Holds s)
      (has : s.dbs.get? dbi = some entries) : Origin may env call dbi entries
  | created : Origin may env call dbi []
  | written {db : Opened} {holding : Holding} (writable : env.writable db.txn db.dbi = .ok db)
      (own : db.dbi = dbi) (subject : env.subject call = some dbi)
      (changes : Holding.Changes may db.layout env.config.mapSize db.holding holding) :
      Origin may env call dbi holding.entries

section
variable {may : Question → Ordering → Prop} {env env' : Environment} {call : Call} {dbi : Dbi}
  {s : Snapshot} {entries : Contents}

theorem writer_holds {h : Handle} (was : env.txns.get? h = some (.writer s)) : env.Holds s :=
  .inr ⟨h, _, was, rfl⟩

theorem Holds.rest (holds : env'.Holds s) (txns : env'.txns = env.txns)
    (committed : env'.committed = env.committed) : env.Holds s := by
  unfold Holds at holds
  rwa [txns, committed] at holds

/-- A transaction enters, or the writer changes its copy. -/
theorem Holds.insert {k : Handle} {t : Txn} (holds : env'.Holds s)
    (txns : env'.txns = env.txns.insert k t) (committed : env'.committed = env.committed) :
    s = t.snapshot ∨ env.Holds s := by
  obtain rfl | ⟨h, u, live, rfl⟩ := holds
  · exact .inr (.inl committed)
  · rw [txns, Table.get?_insert] at live
    split at live
    · cases live
      exact .inl rfl
    · exact .inr (.inr ⟨h, u, live, rfl⟩)

/-- A transaction ends, and what it held may be committed now. -/
theorem Holds.erase {k : Handle} (holds : env'.Holds s) (txns : env'.txns = env.txns.erase k)
    (committed : env.Holds env'.committed) : env.Holds s := by
  obtain rfl | ⟨h, u, live, rfl⟩ := holds
  · exact committed
  · rw [txns, Table.get?_erase] at live
    split at live
    · cases live
    · exact .inr ⟨h, u, live, rfl⟩

/-- What is kept of a write is the one database of the one transaction. -/
theorem keep_origin {db : Opened} {holding : Holding}
    (writable : env.writable db.txn db.dbi = .ok db) (subject : env.subject call = some db.dbi)
    (changes : Holding.Changes may db.layout env.config.mapSize db.holding holding)
    (holds : (env.keep db holding).Holds s) (has : s.dbs.get? dbi = some entries) :
    Origin may env call dbi entries := by
  obtain rfl | holds : _ ∨ env.Holds s := holds.insert rfl rfl
  · simp only [Txn.snapshot, Table.get?_insert] at has
    split at has
    · rename_i own
      cases has
      exact .written writable own.symm (own ▸ subject) changes
    · exact .held (writer_holds (writable_was writable).1) has
  · exact .held holds has

theorem Attempted.origin {outcome : Outcome} (h : Attempted may env call outcome env')
    (holds : env'.Holds s) (has : s.dbs.get? dbi = some entries) :
    Origin may env call dbi entries := by
  induction h with
  | refused => exact .held holds has
  | wrote writable subject admitted made =>
    exact keep_origin writable subject (.single (Write.change admitted made)) holds has
  | stopped => exact .held holds has
  | moved _ _ _ _ _ _ ih => exact ih holds

theorem BatchEnded.origin {cursor : Handle} {key : Option Descriptor} {page : Bytes}
    {count stride : Nat} {flags : UInt32} {reply : Reply Outcome Environment Nat}
    (h : BatchEnded may env cursor key page count stride flags reply)
    (holds : reply.store.Holds s) (has : s.dbs.get? dbi = some entries) :
    Origin may env (.cursorPutMany cursor key page count stride flags) dbi entries := by
  cases h with
  | refused => exact .held holds has
  | unfit => exact .held holds has
  | @made k c db outcome progress here writable _ valid put =>
    have subject : env.subject (.cursorPutMany cursor key page count stride flags) =
        some db.dbi := subject_of_cursor here writable rfl
    have changes := putRecords_changes valid put
    have kept : (env.keep db progress.holding).Holds s := holds
    exact keep_origin (writable_self writable) subject changes kept has

theorem txnBegin_holds {parent : Option Handle} {flags : UInt32} {thread : Nat}
    (holds : (env.txnBegin parent flags thread).store.Holds s) :
    ∃ s', env.Holds s' ∧ s'.dbs = s.dbs := by
  obtain ⟨_, _, same⟩ | ⟨_, slot, _, _, begun⟩ | ⟨_, _, begun⟩ :=
    txnBegin_cases env parent flags thread
  · rw [same] at holds
    exact ⟨s, holds, rfl⟩
  · rw [begun] at holds
    obtain rfl | holds : _ ∨ env.Holds s := holds.insert rfl rfl
    · exact ⟨env.committed, .inl rfl, rfl⟩
    · exact ⟨s, holds, rfl⟩
  · rw [begun] at holds
    obtain rfl | holds : _ ∨ env.Holds s := holds.insert rfl rfl
    · exact ⟨env.committed, .inl rfl, rfl⟩
    · exact ⟨s, holds, rfl⟩

theorem finish_holds {h : Handle} {t : Txn} (ended : env.finish h = some (t, env'))
    (holds : env'.Holds s) : env.Holds s := by
  obtain ⟨u, live, same⟩ := Option.map_eq_some_iff.mp ended
  cases same
  exact holds.erase rfl (.inl rfl)

theorem txnCommit_holds {h : Handle} (holds : (env.txnCommit h).store.Holds s) : env.Holds s := by
  unfold txnCommit at holds
  split at holds
  · exact holds
  · rename_i ended
    exact finish_holds ended holds
  · rename_i snapshot ended' ended
    obtain ⟨t, live, same⟩ := Option.map_eq_some_iff.mp ended
    cases same
    exact holds.erase rfl (writer_holds live)

theorem txnAbort_holds {h : Handle} (holds : (env.txnAbort h).Holds s) : env.Holds s := by
  unfold txnAbort at holds
  split at holds
  · exact holds
  · rename_i ended
    exact finish_holds ended holds

/-- A database that is created is empty. -/
theorem dbiOpen_origin {txn : Handle} {name : Option String} {flags : UInt32}
    (holds : (env.dbiOpen txn name flags).store.Holds s) (has : s.dbs.get? dbi = some entries) :
    Origin may env call dbi entries := by
  obtain same | ⟨snapshot, wanted, was, unknown, opened⟩ := dbiOpen_cases env txn name flags
  · rw [same] at holds
    exact .held holds has
  · rw [opened] at holds
    obtain same | ⟨new, catalog, created, _⟩ := createDb_cases unknown txn wanted
    · rw [same] at holds
      exact .held holds has
    · rw [created] at holds
      obtain rfl | holds : _ ∨ env.Holds s := holds.insert rfl rfl
      · simp only [Txn.snapshot, Table.get?_insert] at has
        split at has
        · cases has
          exact .created
        · exact .held (writer_holds was) has
      · exact .held holds has

/-- One case for each call: entries that are held after it were held before it, or are empty, or
were written by it. -/
theorem perform_origin {outcome : Outcome}
    (made : (env.perform call).YieldsBy may (outcome, env')) (holds : env'.Holds s)
    (has : s.dbs.get? dbi = some entries) : Origin may env call dbi entries := by
  cases perform_ended made with
  | txnBegin parent flags thread =>
    obtain ⟨s', held, dbs⟩ := txnBegin_holds holds
    exact .held held (dbs ▸ has)
  | txnCommit txn => exact .held (txnCommit_holds holds) has
  | txnAbort txn => exact .held (txnAbort_holds holds) has
  | dbiOpen txn name flags => exact dbiOpen_origin holds has
  | setOrder role txn dbi fn =>
    refine .held (holds.rest ?_ ?_) has
    all_goals
      unfold setOrder
      split <;> rfl
  | cursorOpen txn dbi =>
    refine .held (holds.rest ?_ ?_) has
    all_goals
      unfold cursorOpen
      split <;> rfl
  | cursorClose cursor => exact .held holds has
  | read _ => exact .held holds has
  | attempted _ attempt => exact attempt.origin holds has
  | batch ended => exact ended.origin holds has
  | @moved cursor key data op reply ended =>
    have same : reply.store = { env with cursors := reply.store.cursors } := ended.unchanged.data
    exact .held (holds.rest (by rw [same]) (by rw [same])) has

end

/-! ## Runs under the same orders -/

/-- A call during which the orders of a database are these two: it goes elsewhere, or these are
the answers. Other databases may be answered in any way. -/
inductive SteadyStep (dbi : Dbi) (keys values : Order) (env env' : Environment) : Prop
  | elsewhere (call : Call) (other : env.subject call ≠ some dbi) (step : Step call env env')
  | here (call : Call) (answer : Question → Ordering)
      (orders : ∀ record, env.catalog.get? dbi = some record →
        record.layout.keys answer = keys ∧ record.layout.values answer = values)
      (made : ((env.perform call).eval answer).2 = env')

/-- Calls during which the orders of a database stay the same. -/
abbrev SteadyRun (dbi : Dbi) (keys values : Order) : Environment → Environment → Prop :=
  Relation.ReflTransGen (SteadyStep dbi keys values)

/-- Whoever holds a snapshot of the database finds it in order. -/
def Ordered (dbi : Dbi) (keys values : Order) (env : Environment) : Prop :=
  ∀ {s entries}, env.Holds s → s.dbs.get? dbi = some entries → entries.InOrder keys values

variable {dbi : Dbi} {keys values : Order} {env env' : Environment}

theorem SteadyStep.step (h : SteadyStep dbi keys values env env') : ∃ call, Step call env env' := by
  cases h with
  | elsewhere call _ step => exact ⟨call, step⟩
  | here call answer _ made =>
    subst made
    exact ⟨call, _, Inquiry.yields_eval answer (env.perform call)⟩

theorem SteadyStep.ordered [Std.TransCmp keys] [Std.TransCmp values] (balanced : Balanced env)
    (ordered : Ordered dbi keys values env) (h : SteadyStep dbi keys values env env') :
    Ordered dbi keys values env' := by
  intro s entries holds has
  cases h with
  | elsewhere call other step =>
    obtain ⟨outcome, made⟩ := step
    cases perform_origin (Inquiry.yields_iff.mp made) holds has with
    | held holds has => exact ordered holds has
    | created => exact Contents.inOrder_nil
    | written _ _ subject _ => exact absurd subject other
  | here call answer orders made =>
    subst made
    cases perform_origin (Inquiry.yieldsBy_answer.mpr rfl) holds has with
    | held holds has => exact ordered holds has
    | created => exact Contents.inOrder_nil
    | @written db holding writable own _ changes =>
      obtain ⟨_, record, _, was, listed, stored, same⟩ := writable_eq_ok.mp writable
      have layout : db.layout = record.layout := by rw [same]
      obtain ⟨rfl, rfl⟩ := orders record (own ▸ listed)
      rw [← layout] at *
      have before := ordered (writer_holds (writable_was writable).1)
        (own ▸ (writable_was writable).2)
      exact changes.inOrder (writable_accounted balanced writable) before

theorem SteadyRun.ordered [Std.TransCmp keys] [Std.TransCmp values] (start : Reachable env)
    (ordered : Ordered dbi keys values env) (run : SteadyRun dbi keys values env env') :
    Reachable env' ∧ Ordered dbi keys values env' := by
  induction run with
  | refl => exact ⟨start, ordered⟩
  | tail _ step ih =>
    obtain ⟨reached, ordered⟩ := ih
    obtain ⟨call, made⟩ := step.step
    exact ⟨reached.next call made, step.ordered (reachable_balanced reached) ordered⟩

/-- **What is stored stays in order.** From an empty database on, as long as its calls are answered
by two total preorders, no snapshot that anyone holds has two equal keys in it, or two equal values
of a key, and all stand in increasing order. -/
theorem entries_stay_in_order [Std.TransCmp keys] [Std.TransCmp values] (start : Reachable env)
    (empty : ∀ {s entries}, env.Holds s → s.dbs.get? dbi = some entries → entries = [])
    (run : SteadyRun dbi keys values env env') {s : Snapshot} {entries : Contents}
    (holds : env'.Holds s) (has : s.dbs.get? dbi = some entries) :
    entries.InOrder keys values ∧ entries.Apart keys values := by
  have first : Ordered dbi keys values env := by
    intro s entries holds has
    rw [empty holds has]
    exact Contents.inOrder_nil
  have inOrder := (run.ordered start first).2 holds has
  exact ⟨inOrder, inOrder.apart⟩

/-- A value that is replaced by a longer one moves behind those that it is longer than. -/
theorem entries_stay_in_order_by_length :
    ∃ (env env' : Environment) (s : Snapshot), Reachable env ∧
      SteadyRun 2 .baseline .length env env' ∧ env'.Holds s ∧
      s.dbs.get? 2 = some [⟨[1], [[6, 6], [7, 7, 7]]⟩] ∧
      Contents.InOrder .baseline .length [⟨[1], [[6, 6], [7, 7, 7]]⟩] ∧
      Contents.Apart .baseline .length [⟨[1], [[6, 6], [7, 7, 7]]⟩] := by
  -- Once the cursor is open, all that changes are its place and the writer's view.
  let after (place : Option Place) (entries : Contents) (used : Nat) : Environment :=
    { (((((Environment.new 1 "" {}).txnBegin none 0).store.dbiOpen 1 (some "values")
        (Flags.dupSort ||| Flags.create)).store.setOrder .values 1 2 (some .single)).store.cursorOpen
          1 2).store with
      cursors := Table.empty.insert 2 ⟨1, 2, place, false⟩
      txns := Table.empty.insert 1 (.writer ⟨1, (Table.empty.insert 1 []).insert 2 entries, used⟩) }
  have start : Reachable (Environment.new 1 "" {}) := ⟨1, "", {}, 0, .start⟩
  have begun := start.next (.txnBegin none 0) ⟨_, .done _⟩
  have opened := begun.next (.dbiOpen 1 (some "values") (Flags.dupSort ||| Flags.create))
    ⟨_, .done _⟩
  have ordered := opened.next (.setOrder .values 1 2 (some .single)) ⟨_, .done _⟩
  have ready : Reachable (after none [] 0) := ordered.next (.cursorOpen 1 2) ⟨_, .done _⟩
  have empty : ∀ {s entries}, (after none [] 0).Holds s → s.dbs.get? 2 = some entries →
      entries = [] := by
    rintro s entries (rfl | ⟨h, t, live, rfl⟩) has
    · cases has
    · have only : (Table.empty.insert 1 (.writer ⟨1, (Table.empty.insert 1 []).insert 2 [], 0⟩) :
          Table Handle Txn).get? h = some t := live
      rw [Table.get?_insert] at only
      split at only
      · cases only
        cases has
        rfl
      · cases only
  let byLength : Question → Ordering := fun q => Order.length q.left q.right
  have orders : ∀ {place entries used} record,
      (after place entries used).catalog.get? 2 = some record →
      record.layout.keys byLength = .baseline ∧ record.layout.values byLength = .length := by
    rintro _ _ _ record ⟨⟩
    exact ⟨rfl, rfl⟩
  have longer : SteadyRun 2 .baseline .length (after none [] 0)
      (after (some ⟨0, 0⟩) [⟨[1], [[6, 6]]⟩] 3) :=
    .single (.here (.cursorPut 2 (some (.filled [1])) (some (.filled [6, 6])) 0) byLength orders
      rfl)
  have shorter : SteadyRun 2 .baseline .length (after none [] 0)
      (after (some ⟨0, 0⟩) [⟨[1], [[5], [6, 6]]⟩] 4) :=
    longer.tail (.here (.cursorPut 2 (some (.filled [1])) (some (.filled [5])) 0) byLength orders
      rfl)
  have replaced : SteadyRun 2 .baseline .length (after none [] 0)
      (after (some ⟨0, 1⟩) [⟨[1], [[6, 6], [7, 7, 7]]⟩] 6) :=
    shorter.tail (.here (.cursorPut 2 (some (.filled [1])) (some (.filled [7, 7, 7]))
      Flags.current) byLength orders rfl)
  have holds : (after (some ⟨0, 1⟩) [⟨[1], [[6, 6], [7, 7, 7]]⟩] 6).Holds _ :=
    .inr ⟨1, _, rfl, rfl⟩
  exact ⟨_, _, _, ready, replaced, holds, rfl,
    entries_stay_in_order ready empty replaced holds rfl⟩

end CollatedStore.Environment
