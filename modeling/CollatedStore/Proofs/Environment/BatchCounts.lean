import CollatedStore.Proofs.Environment.Atomicity
import CollatedStore.Proofs.Refusals
import CollatedStore.Store.Buffers

/-!
What a put of many records tells. Once its first record has been tried, the count is that of the
records stored, all of them or those before the one refused. Refused before, it tells the number of
records that it was asked to store, although none is.
-/
namespace CollatedStore

namespace Environment

/-! ## Counting -/

/-- The records are stored one after another, each where those before it are stored already. -/
inductive StoredInTurn (layout : Layout) (limit : Nat) (rule : PutRule) (key : Bytes) :
    Holding → List Bytes → Holding → Prop
  | none (h : Holding) : StoredInTurn layout limit rule key h [] h
  | next {h h' h'' : Holding} {p : Place} {record : Bytes} {records : List Bytes}
      (stored : (h.put layout limit rule key record).run.Yields (.ok (p, h')))
      (rest : StoredInTurn layout limit rule key h' records h'') :
      StoredInTurn layout limit rule key h (record :: records) h''

/-- How many records were stored, and why no more were: there were no more, or the next one was
refused. -/
inductive StoredUpTo (layout : Layout) (limit : Nat) (rule : PutRule) (key : Bytes)
    (records : List Bytes) (h h' : Holding) : Nat → Outcome → Prop
  | all (stored : StoredInTurn layout limit rule key h records h') :
      StoredUpTo layout limit rule key records h h' records.length (.ok .success)
  | refused {n : Nat} {record : Bytes} {stop : Stop}
      (stored : StoredInTurn layout limit rule key h (records.take n) h')
      (next : records[n]? = some record)
      (put : (h'.put layout limit rule key record).run.Yields (.error stop))
      (told : stop.outcome ≠ .ok .success) :
      StoredUpTo layout limit rule key records h h' n stop.outcome

section
variable {layout : Layout} {limit : Nat} {rule : PutRule} {key : Bytes}

theorem StoredUpTo.next {record : Bytes} {records : List Bytes} {h h' h'' : Holding} {p : Place}
    {n : Nat} {outcome : Outcome}
    (stored : (h.put layout limit rule key record).run.Yields (.ok (p, h')))
    (rest : StoredUpTo layout limit rule key records h' h'' n outcome) :
    StoredUpTo layout limit rule key (record :: records) h h'' (n + 1) outcome := by
  cases rest with
  | all later => exact .all (.next stored later)
  | refused later next put told => exact .refused (.next stored later) next put told

/-- The count grows by one with each record stored. -/
theorem putRecords_storedUpTo {records : List Bytes} {progress progress' : Progress}
    {outcome : Outcome}
    (put : (putRecords layout limit rule key records progress).Yields (outcome, progress')) :
    ∃ n, progress'.written = progress.written + n ∧
      StoredUpTo layout limit rule key records progress.holding progress'.holding n
        outcome := by
  induction records generalizing progress with
  | nil =>
    cases put
    exact ⟨0, rfl, .all (.none _)⟩
  | cons record rest ih =>
    obtain ⟨result, stored, put⟩ := Inquiry.yields_bind.mp put
    cases result with
    | ok placed =>
      obtain ⟨n, counted, upTo⟩ := ih put
      refine ⟨n + 1, ?_, upTo.next stored⟩
      rw [counted]
      exact Nat.add_right_comm progress.written 1 n
    | error stop =>
      cases put
      have told := (Holding.earnest_put stop stored).outcome_ne
      exact ⟨0, rfl, .refused (.none _) rfl stored told⟩

end

/-- What the reply to a put of many records tells of what was done. -/
inductive Counted (env : Environment) (cursor : Handle) (key : Option Descriptor) (page : Bytes)
    (count stride : Nat) (flags : UInt32) : Reply Outcome Environment Nat → Prop
  /-- Refused before the first record, and what was asked for is told. -/
  | unheard {s : Status} {env' : Environment} (failed : s ≠ .success)
      (same : Unchanged (some cursor) env env') :
      Counted env cursor key page count stride flags ⟨.ok s, count, env'⟩
  /-- As many were stored as are told. -/
  | stored {c : Cursor} {db : Opened} {k : Bytes} {n : Nat} {outcome : Outcome}
      {holding : Holding} {place : Option Place}
      (here : env.cursors.get? cursor = some c) (writable : env.writable c.txn c.dbi = .ok db)
      (given : present key = .ok k)
      (upTo : StoredUpTo db.layout env.config.mapSize (.ofFlags flags) k
        (Records.front count stride page) db.holding holding n outcome) :
      Counted env cursor key page count stride flags
        ⟨outcome, n, (env.keep db holding).setCursor cursor { c with deleted := false, place }⟩

variable {env : Environment} {cursor : Handle} {page : Bytes} {count stride : Nat}
  {flags : UInt32}

theorem cursorPutMany_counted {key : Option Descriptor} {reply : Reply Outcome Environment Nat}
    (made : (env.cursorPutMany cursor key page count stride flags).Yields reply) :
    Counted env cursor key page count stride flags reply := by
  have start := Unchanged.refl (some cursor) env
  cases cursorPutMany_ended (Inquiry.yields_iff.mp made) with
  | refused denied => exact .unheard (denies_admitCursorPut _ _ _ _ _ _ denied) start
  | unfit failed here => exact .unheard failed (start.setCursor here rfl)
  | made here writable given _ put =>
    obtain ⟨n, counted, upTo⟩ := putRecords_storedUpTo put.yields
    rw [counted, Nat.zero_add]
    exact .stored here writable given upTo

/-- **A put of many records counts those that it stored**, the first ones of the page up to the
first that is refused; but the count is no news where no record was tried. -/
theorem batch_counts_stored_records {key : Option Bytes}
    {reply : Reply Outcome Environment (Option Nat)} (sized : stride ≠ 0)
    (made : (Buffers.cursorPutMany env cursor key page count stride flags).Yields reply) :
    ∃ told, reply.out = some told ∧
      Counted env cursor (some (.ofBuffer key)) page count stride (flags ||| Flags.multiple)
        ⟨reply.ended, told, reply.store⟩ := by
  unfold Buffers.cursorPutMany at made
  rw [if_neg sized] at made
  obtain ⟨inner, put, ends⟩ := Inquiry.yields_bind.mp made
  cases ends
  exact ⟨inner.out, rfl, cursorPutMany_counted put⟩

/-- Two records of three are stored before the map is full. -/
theorem batch_counts_stored_records_until_full :
    ∃ (env : Environment) (reply : Reply Outcome Environment (Option Nat)),
      (Buffers.cursorPutMany env 2 (some [1]) [5, 6, 7] 3 1 0).Yields reply ∧
      reply.out = some 2 ∧
      Counted env 2 (some (.filled [1])) [5, 6, 7] 3 1 Flags.multiple
        ⟨reply.ended, 2, reply.store⟩ := by
  let begun := ((Environment.new 1 "" { mapSize := 3 }).txnBegin none 0).store
  let opened := (begun.dbiOpen 1 (some "records")
    (Flags.dupSort ||| Flags.dupFixed ||| Flags.create)).store
  let env := (opened.cursorOpen 1 2).store
  have made := Inquiry.yields_eval (fun _ => .eq)
    (Buffers.cursorPutMany env 2 (some [1]) [5, 6, 7] 3 1 0)
  have two : ((Buffers.cursorPutMany env 2 (some [1]) [5, 6, 7] 3 1 0).eval fun _ => .eq).out =
      some 2 := by decide +kernel +zetaReduce
  obtain ⟨told, out, counted⟩ := batch_counts_stored_records (by decide) made
  obtain rfl : 2 = told := Option.some.inj (two.symm.trans out)
  exact ⟨env, _, made, two, counted⟩

/-- Through a cursor that is not open nothing is stored, and yet two records are told. -/
theorem batch_tells_of_records_not_stored :
    ∃ reply : Reply Outcome Environment (Option Nat),
      (Buffers.cursorPutMany (Environment.new 1 "" {}) 7 (some [1]) [5, 6] 2 1 0).Yields reply ∧
      reply.store = Environment.new 1 "" {} ∧ reply.ended = .ok .invalid ∧ reply.out = some 2 :=
  ⟨_, .done _, rfl, rfl, rfl⟩

end Environment

end CollatedStore
