import CollatedStore.Proofs.Environment.Effects

/-!
Refusals. A call that does not succeed leaves the environment as it was, whatever it had done by
the time it was refused; at most the cursor it goes through stands elsewhere.
-/
namespace CollatedStore

/-- A call that stores many records may have stored some of them by the time it is refused. -/
def Call.isBatch : Call → Bool
  | .cursorPutMany .. => true
  | _ => false

/-- The transaction and the database that a cursor belongs to. -/
def Cursor.home (c : Cursor) : Handle × Dbi := (c.txn, c.dbi)

namespace Environment

/-- Nothing differs but where one cursor stands, and what mark it bears. -/
structure Unchanged (cursor : Option Handle) (env env' : Environment) : Prop where
  /-- Snapshots, catalog, transactions, writer, readers and the last handle are the same. -/
  data : env' = { env with cursors := env'.cursors }
  /-- The same cursors are open, each in its database. -/
  homes : ∀ h, (env'.cursors.get? h).map Cursor.home = (env.cursors.get? h).map Cursor.home
  others : ∀ h, some h ≠ cursor → env'.cursors.get? h = env.cursors.get? h

section
variable {env env' : Environment} {cursor : Option Handle}

theorem Unchanged.refl (cursor : Option Handle) (env : Environment) : Unchanged cursor env env :=
  ⟨rfl, fun _ => rfl, fun _ _ => rfl⟩

theorem Unchanged.setCursor {h : Handle} {c c' : Cursor} (same : Unchanged (some h) env env')
    (here : env.cursors.get? h = some c) (home : c'.home = c.home) :
    Unchanged (some h) env (env'.setCursor h c') := by
  constructor
  case data =>
    have data := same.data
    unfold Environment.setCursor
    rw [data]
  case homes =>
    intro k
    by_cases own : k = h
    · subst own
      simp [Environment.setCursor, here, home]
    · simpa [Environment.setCursor, own] using same.homes k
  case others =>
    intro k other
    have apart : k ≠ h := fun own => other (congrArg some own)
    simpa [Environment.setCursor, apart] using same.others k other

/-- Only a write changes data, and a call that wrote is told so. -/
theorem Attempted.unchanged {may : Question → Ordering → Prop} {call : Call} {outcome : Outcome}
    (h : Attempted may env call outcome env') (failed : outcome ≠ .ok .success) :
    Unchanged call.cursor env env' := by
  induction h with
  | refused => exact .refl _ env
  | wrote => exact absurd rfl failed
  | stopped => exact .refl _ env
  | moved _ own here txn dbi _ same =>
    have same := same failed
    rw [own] at same ⊢
    exact same.setCursor here (Prod.ext txn dbi)

theorem MoveEnded.unchanged {may : Question → Ordering → Prop} {h : Handle}
    {key data : Option Descriptor} {op : UInt32}
    {reply : Reply Outcome Environment (Option Descriptor × Option Descriptor)}
    (ended : MoveEnded may env h key data op reply) :
    Unchanged (some h) env reply.store := by
  have start := Unchanged.refl (some h) env
  cases ended with
  | refused => exact start
  | unknown here => exact start.setCursor here rfl
  | stuck admitted => exact start.setCursor (admitMove_eq_ok.mp admitted).1 rfl
  | unread admitted _ moved | yielded admitted _ moved =>
    have kept := move_keeps moved.yields
    exact start.setCursor (admitMove_eq_ok.mp admitted).1 (Prod.ext kept.1 kept.2)

/-! ## Calls on transactions and databases -/

theorem txnBegin_refused {parent : Option Handle} {flags : UInt32} {thread : Nat}
    (failed : (env.txnBegin parent flags thread).ended ≠ .success) :
    (env.txnBegin parent flags thread).store = env := by
  obtain ⟨_, _, reply⟩ | ⟨_, _, _, _, reply⟩ | ⟨_, _, reply⟩ :=
    txnBegin_cases env parent flags thread
  · rw [reply]
  · rw [reply] at failed
    exact absurd rfl failed
  · rw [reply] at failed
    exact absurd rfl failed

theorem txnCommit_refused {txn : Handle} (failed : (env.txnCommit txn).ended ≠ .success) :
    (env.txnCommit txn).store = env := by
  unfold txnCommit at failed ⊢
  split
  · rfl
  · rename_i ended
    rw [ended] at failed
    exact absurd rfl failed
  · rename_i ended
    rw [ended] at failed
    exact absurd rfl failed

theorem createDb_refused {txn : Handle} {snapshot : Snapshot} {name : Option String}
    {flags : DbFlags} (failed : (env.createDb txn snapshot name flags).ended ≠ .success) :
    (env.createDb txn snapshot name flags).store = env := by
  unfold createDb at failed ⊢
  cases named : env.catalog.find? name with
  | some dbi =>
    rw [named] at failed
    exact absurd rfl failed
  | none =>
    rw [named] at failed
    dsimp only at failed ⊢
    split
    · rfl
    · rename_i room
      rw [if_neg room] at failed
      exact absurd rfl failed

theorem dbiOpen_refused {txn : Handle} {name : Option String} {flags : UInt32}
    (failed : (env.dbiOpen txn name flags).ended ≠ .success) :
    (env.dbiOpen txn name flags).store = env := by
  obtain same | ⟨_, _, _, _, created⟩ := dbiOpen_cases env txn name flags
  · exact same
  · rw [created] at failed ⊢
    exact createDb_refused failed

theorem cursorOpen_refused {txn : Handle} {dbi : Dbi}
    (failed : (env.cursorOpen txn dbi).ended ≠ .success) :
    (env.cursorOpen txn dbi).store = env := by
  unfold cursorOpen at failed ⊢
  split
  · rfl
  · rename_i readable
    rw [readable] at failed
    exact absurd rfl failed

/-- A refusal that leaves all as it was leaves the cursors, too. -/
theorem Unchanged.of_refused {s : Status} (failed : (Except.ok s : Outcome) ≠ .ok .success)
    (refused : s ≠ .success → env' = env) : Unchanged cursor env env' := by
  rw [refused fun succeeded => failed (congrArg Except.ok succeeded)]
  exact .refl cursor env

end

/-- **A call that does not succeed changes nothing**, whatever the comparison functions answered:
neither the data nor what is open, but for the place and the mark of the call's own cursor. -/
theorem failed_calls_change_nothing {env env' : Environment} {call : Call} {outcome : Outcome}
    (single : call.isBatch = false) (made : (env.perform call).Yields (outcome, env'))
    (failed : outcome ≠ .ok .success) : Unchanged call.cursor env env' := by
  cases perform_ended (Inquiry.yields_iff.mp made) with
  | txnBegin parent flags thread => exact .of_refused failed txnBegin_refused
  | txnCommit txn => exact .of_refused failed txnCommit_refused
  | txnAbort txn => exact absurd rfl failed
  | dbiOpen txn name flags => exact .of_refused failed dbiOpen_refused
  | setOrder role txn dbi fn => exact .of_refused failed setOrder_refused
  | cursorOpen txn dbi => exact .of_refused failed cursorOpen_refused
  | cursorClose cursor => exact absurd rfl failed
  | read _ => exact .refl _ env
  | attempted _ attempt => exact attempt.unchanged failed
  | batch _ => cases single
  | moved ended => exact ended.unchanged

/-- There is no room for the longer value, and the shorter one is still there to be read. -/
theorem failed_calls_change_nothing_in_a_full_map :
    ∃ env env', Reachable env ∧
      (env.perform (.cursorPut 2 (some (.filled [1])) (some (.filled [7, 7, 7]))
        Flags.current)).Yields (.ok .mapFull, env') ∧
      env'.txns.get? 1 = some (.writer ⟨1, (Table.empty.insert rootDbi []).insert 2
        [⟨[1], [[5], [6]]⟩], 3⟩) ∧
      Unchanged (some 2) env env' := by
  have start : Reachable (Environment.new 1 "" { mapSize := 4 }) := ⟨1, "", _, 0, .start⟩
  have begun := start.next (.txnBegin none 0) ⟨_, .done _⟩
  have opened := begun.next (.dbiOpen 1 (some "values") (Flags.dupSort ||| Flags.create))
    ⟨_, .done _⟩
  have first := opened.next (.put 1 2 (some (.filled [1])) (some (.filled [5])) 0) ⟨_, .done _⟩
  have second := first.next (.put 1 2 (some (.filled [1])) (some (.filled [6])) 0) ⟨_, .done _⟩
  have cursor := second.next (.cursorOpen 1 2) ⟨_, .done _⟩
  have moved := cursor.next (.cursorGet 2 none none CursorOp.first.code) ⟨_, .done _⟩
  obtain ⟨env, env', reached, made, held⟩ : ∃ env env', Reachable env ∧
      (env.perform (.cursorPut 2 (some (.filled [1])) (some (.filled [7, 7, 7]))
        Flags.current)).Yields (.ok .mapFull, env') ∧
      env'.txns.get? 1 = some (.writer ⟨1, (Table.empty.insert rootDbi []).insert 2
        [⟨[1], [[5], [6]]⟩], 3⟩) := ⟨_, _, moved, .done _, rfl⟩
  have full : (Except.ok .mapFull : Outcome) ≠ .ok .success := fun told =>
    absurd (Except.ok.inj told) (by decide)
  exact ⟨env, env', reached, made, held, failed_calls_change_nothing rfl made full⟩

end Environment

end CollatedStore
