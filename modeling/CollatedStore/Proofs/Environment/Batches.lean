import CollatedStore.Proofs.Environment.Isolation
import CollatedStore.Proofs.Environment.Requests
import CollatedStore.Proofs.Refusals
import CollatedStore.Records

/-!
Many records in one call. A page of records does to the data what its records do one at a time, up to
the first that is refused, and is answered as that one is.
-/
namespace CollatedStore

namespace PutRule

/-- The flags that ask for this rule, for many records at once. -/
def batchWord (rule : PutRule) : UInt32 := rule.word ||| Flags.multiple

@[simp] theorem ofFlags_batchWord (rule : PutRule) : ofFlags rule.batchWord = rule := by
  obtain ⟨a, b, c, d⟩ := rule
  revert a b c d
  decide

theorem within_batchWord (rule : PutRule) :
    Flags.within rule.batchWord Flags.cursorPut = true := by
  obtain ⟨a, b, c, d⟩ := rule
  revert a b c d
  decide

end PutRule

namespace Environment

/-- Puts records under one key, one call for each, until one does not succeed. Hands out the number
of those that did. -/
def putEach (env : Environment) (cursor : Handle) (key : Descriptor) (flags : UInt32) :
    List Bytes → Inquiry (Reply Outcome Environment Nat)
  | [] => return ⟨.ok .success, 0, env⟩
  | record :: rest => do
    let reply ← env.cursorPut cursor (some key) (some (.filled record)) flags
    if reply.ended.toOption = some .success then
      let later ← reply.store.putEach cursor key flags rest
      return { later with out := later.out + 1 }
    else return ⟨reply.ended, 0, reply.store⟩

/-- The bytes in use as a transaction sees them. -/
def bytesUsed (env : Environment) (txn : Handle) : Option Nat :=
  (env.txns.get? txn).map fun t => t.snapshot.used

/-- The same data, committed and in every transaction. -/
structure SameData (env env' : Environment) : Prop where
  view : ∀ txn dbi, env.view txn dbi = env'.view txn dbi
  bytesUsed : ∀ txn, env.bytesUsed txn = env'.bytesUsed txn
  committed : env.committed = env'.committed

section
variable {env env' : Environment} {txn : Handle} {dbi : Dbi} {db : Opened}

theorem SameData.trans {env'' : Environment} (h : SameData env env') (h' : SameData env' env'') :
    SameData env env'' :=
  ⟨fun txn dbi => (h.view txn dbi).trans (h'.view txn dbi),
    fun txn => (h.bytesUsed txn).trans (h'.bytesUsed txn), h.committed.trans h'.committed⟩

theorem SameData.symm (h : SameData env env') : SameData env' env :=
  ⟨fun txn dbi => (h.view txn dbi).symm, fun txn => (h.bytesUsed txn).symm, h.committed.symm⟩

/-- A cursor is no data. -/
theorem setCursor_sameData (cursor : Handle) (c : Cursor) :
    SameData (env.setCursor cursor c) env := ⟨fun _ _ => rfl, fun _ => rfl, rfl⟩

/-- Only the one database of the one transaction changes, and the bytes that it uses. -/
theorem keep_view (writable : env.writable txn dbi = .ok db) (holding : Holding) (t : Handle)
    (d : Dbi) :
    (env.keep db holding).view t d =
      if t = txn ∧ d = dbi then some holding.entries else env.view t d := by
  obtain ⟨snapshot, record, entries, was, _, _, rfl⟩ := writable_eq_ok.mp writable
  by_cases here : t = txn
  · subst here
    by_cases there : d = dbi <;> simp [view, keep, was, there, Txn.snapshot]
  · simp [view, keep, here]

theorem keep_bytesUsed (db : Opened) (holding : Holding) (t : Handle) :
    (env.keep db holding).bytesUsed t =
      if t = db.txn then some holding.used else env.bytesUsed t := by
  by_cases here : t = db.txn <;> simp [bytesUsed, keep, here, Txn.snapshot]

/-- What a database holds already can be put back. -/
theorem keep_held (writable : env.writable txn dbi = .ok db) :
    SameData env (env.keep db db.holding) := by
  obtain ⟨snapshot, record, entries, was, _, stored, rfl⟩ := writable_eq_ok.mp writable
  refine ⟨fun t d => ?_, fun t => ?_, rfl⟩
  · rw [keep_view writable]
    split
    · rename_i here
      simp [view, here.1, here.2, was, Txn.snapshot, stored, Opened.holding]
    · rfl
  · rw [keep_bytesUsed]
    split
    · rename_i here
      simp [bytesUsed, here, was, Txn.snapshot, Opened.holding]
    · rfl

/-- What is kept last stays. -/
theorem keep_again {db' : Opened} (writable : env.writable txn dbi = .ok db) (first : Holding)
    (later : (env.keep db first).writable txn dbi = .ok db') (last : Holding) :
    SameData ((env.keep db first).keep db' last) (env.keep db last) := by
  have sameTxn : db'.txn = db.txn := by
    obtain ⟨_, _, _, _, _, _, rfl⟩ := writable_eq_ok.mp writable
    obtain ⟨_, _, _, _, _, _, rfl⟩ := writable_eq_ok.mp later
    rfl
  refine ⟨fun t d => ?_, fun t => ?_, rfl⟩
  · rw [keep_view later, keep_view writable, keep_view writable]
    split <;> rfl
  · rw [keep_bytesUsed, keep_bytesUsed, keep_bytesUsed, sameTxn]
    split <;> rfl

end

section
variable {answer : Question → Ordering} {env : Environment} {cursor : Handle} {c : Cursor}
  {db : Opened} {key : Descriptor} {rule : PutRule}

/-- One record of a batch: it is stored, or the batch ends as the put of it does. -/
theorem eval_putRecords_cons {layout : Layout} {limit : Nat} {key record : Bytes}
    {rest : List Bytes} {progress : Progress} :
    (putRecords layout limit rule key (record :: rest) progress).eval answer =
      match (progress.holding.put layout limit rule key record).eval answer with
      | .ok (p, holding) =>
        (putRecords layout limit rule key rest ⟨progress.written + 1, some p, holding⟩).eval answer
      | .error stop => (stop.outcome, progress) := by
  rw [putRecords, Inquiry.eval_bind, Work.eval_run]
  generalize Work.eval answer _ = result
  rcases result with stop | ⟨p, holding⟩ <;> rfl

/-- A put through a cursor of a writer stores its pair, or leaves the data as it was and does not
succeed. -/
theorem cursorPut_cases (answer : Question → Ordering) (here : env.cursors.get? cursor = some c)
    (writable : env.writable c.txn c.dbi = .ok db) (valid : validKey key.bytes = true)
    (rule : PutRule) (record : Bytes) :
    (∃ p holding,
      (db.holding.put db.layout env.config.mapSize rule key.bytes record).eval answer =
        .ok (p, holding) ∧
      (env.cursorPut cursor (some key) (some (.filled record)) rule.word).eval answer =
        ⟨.ok .success, some (.filled record),
          (env.keep db holding).setCursor cursor { c with place := some p, deleted := false }⟩) ∨
    ∃ stop data c',
      (db.holding.put db.layout env.config.mapSize rule key.bytes record).eval answer =
        .error stop ∧
      (env.cursorPut cursor (some key) (some (.filled record)) rule.word).eval answer =
        ⟨stop.outcome, data, env.setCursor cursor c'⟩ ∧ stop.outcome ≠ .ok .success := by
  have same : (Descriptor.filled record).bytes = record := rfl
  rw [eval_cursorPut here writable valid rule, same]
  cases put : (db.holding.put db.layout env.config.mapSize rule key.bytes record).eval answer with
  | ok stored => exact .inl ⟨stored.1, stored.2, rfl, rfl⟩
  | error stop =>
    have refused := Holding.earnest_put.outcome_ne put
    cases stop with
    | status s => exact .inr ⟨_, _, _, rfl, rfl, refused⟩
    | existing p v => exact .inr ⟨_, _, _, rfl, rfl, refused⟩
    | broken b => exact .inr ⟨_, _, _, rfl, rfl, refused⟩

section
variable {flags : UInt32} {record : Bytes} {rest : List Bytes} {data : Option Descriptor}
  {env' : Environment}

theorem eval_putEach_stored
    (put : (env.cursorPut cursor (some key) (some (.filled record)) flags).eval answer =
      ⟨.ok .success, data, env'⟩) :
    (env.putEach cursor key flags (record :: rest)).eval answer =
      let later := (env'.putEach cursor key flags rest).eval answer
      { later with out := later.out + 1 } := by
  have stored : (Except.ok Status.success : Outcome).toOption = some .success := rfl
  rw [putEach, Inquiry.eval_bind, put]
  dsimp only
  rw [if_pos stored, Inquiry.eval_bind]
  rfl

theorem eval_putEach_refused {outcome : Outcome}
    (put : (env.cursorPut cursor (some key) (some (.filled record)) flags).eval answer =
      ⟨outcome, data, env'⟩) (refused : outcome ≠ .ok .success) :
    (env.putEach cursor key flags (record :: rest)).eval answer = ⟨outcome, 0, env'⟩ := by
  rw [putEach, Inquiry.eval_bind, put]
  dsimp only
  rw [if_neg (by cases outcome <;> simp_all [Except.toOption])]
  rfl

end

/-- The puts of single records lead where the batch does. -/
structure Agrees (env : Environment) (cursor : Handle) (c : Cursor) (db : Opened) (written : Nat)
    (records : List Bytes) (many : Outcome × Progress) (each : Reply Outcome Environment Nat) :
    Prop where
  ended : many.1 = each.ended
  counted : many.2.written = written + each.out
  all : each.ended = .ok .success → each.out = records.length
  data : SameData (env.keep db many.2.holding) each.store
  stands : each.ended = .ok .success → c.deleted = false ∨ records ≠ [] →
    each.store.cursors.get? cursor = some ⟨c.txn, c.dbi, many.2.place, false⟩

theorem Agrees.stored {db' : Opened} {p : Place} {written : Nat} {record : Bytes}
    {rest : List Bytes} {many : Outcome × Progress} {each : Reply Outcome Environment Nat}
    (writable : env.writable c.txn c.dbi = .ok db)
    (writable' : (env.keep db db'.holding).writable c.txn c.dbi = .ok db')
    (later : Agrees ((env.keep db db'.holding).setCursor cursor
        { c with place := some p, deleted := false }) cursor
      { c with place := some p, deleted := false } db' (written + 1) rest many each) :
    Agrees env cursor c db written (record :: rest) many { each with out := each.out + 1 } where
  ended := later.ended
  counted := by rw [later.counted, Nat.add_assoc, Nat.add_comm 1]
  all done := congrArg (· + 1) (later.all done)
  data :=
    have unmoved : SameData ((env.keep db db'.holding).keep db' many.2.holding)
        (((env.keep db db'.holding).setCursor cursor
          { c with place := some p, deleted := false }).keep db' many.2.holding) :=
      (setCursor_sameData cursor _).symm
    ((keep_again writable _ writable' _).symm.trans unmoved).trans later.data
  stands done _ := later.stands done (.inl rfl)

theorem putRecords_agrees (answer : Question → Ordering) (rule : PutRule) (records : List Bytes)
    (written : Nat)
    (here : env.cursors.get? cursor = some c) (writable : env.writable c.txn c.dbi = .ok db)
    (valid : validKey key.bytes = true) :
    Agrees env cursor c db written records
      ((putRecords db.layout env.config.mapSize rule key.bytes records
        ⟨written, c.place, db.holding⟩).eval answer)
      ((env.putEach cursor key rule.word records).eval answer) := by
  induction records generalizing env c db written with
  | nil =>
    refine ⟨rfl, rfl, fun _ => rfl, (keep_held writable).symm, fun _ unmarked => ?_⟩
    obtain unmarked | none := unmarked
    · rw [show (env.putEach cursor key rule.word []).eval answer = ⟨.ok .success, 0, env⟩ from rfl,
        here, ← unmarked]
      rfl
    · exact absurd rfl none
  | cons record rest ih =>
    rw [eval_putRecords_cons]
    obtain ⟨p, holding, put, told⟩ | ⟨stop, data, c', put, told, refused⟩ :=
      cursorPut_cases answer here writable valid rule record
    · rw [put, eval_putEach_stored told]
      obtain ⟨db', writable', layout, rfl⟩ := keep_serves writable holding
      have moved : ((env.keep db db'.holding).setCursor cursor
          { c with place := some p, deleted := false }).cursors.get? cursor =
            some { c with place := some p, deleted := false } := Table.get?_insert_self _ _ _
      have later := ih (written + 1) moved writable'
      rw [layout] at later
      exact later.stored writable writable'
    · rw [put, eval_putEach_refused told refused]
      exact ⟨rfl, rfl, fun done => absurd done refused,
        (keep_held writable).symm.trans (setCursor_sameData cursor c').symm,
        fun done => absurd done refused⟩

/-- The place reached is that of an item. -/
def Progress.Stands (progress : Progress) : Prop :=
  ∃ p, progress.place = some p ∧ progress.holding.entries.holds p = true

/-- Each record stored leaves the place on its own item. -/
theorem putRecords_stands {layout : Layout} {limit : Nat} {key : Bytes} {outcome : Outcome}
    (valid : validKey key = true) {records : List Bytes} {progress progress' : Progress}
    (stands : progress.Stands)
    (put : (putRecords layout limit rule key records progress).Yields (outcome, progress')) :
    progress'.Stands := by
  induction records generalizing progress with
  | nil => cases put; exact stands
  | cons record rest ih =>
    obtain ⟨result, stored, put⟩ := Inquiry.yields_bind.mp put
    cases result with
    | ok placed =>
      have stands := (Holding.put_placed valid (Inquiry.yields_iff.mp stored)).stands
      exact ih ⟨placed.1, rfl, stands⟩ put
    | error stop => cases put; exact stands

theorem putRecords_all_stand {layout : Layout} {limit : Nat} {key : Bytes}
    (valid : validKey key = true) {records : List Bytes} (some_record : records ≠ [])
    {progress progress' : Progress}
    (put : (putRecords layout limit rule key records progress).Yields (.ok .success, progress')) :
    progress'.Stands := by
  cases records with
  | nil => exact absurd rfl some_record
  | cons record rest =>
    obtain ⟨result, stored, put⟩ := Inquiry.yields_bind.mp put
    cases result with
    | ok placed =>
      have stands := (Holding.put_placed valid (Inquiry.yields_iff.mp stored)).stands
      exact putRecords_stands valid ⟨placed.1, rfl, stands⟩ put
    | error stop =>
      exact absurd (congrArg Prod.fst (Inquiry.yields_done.mp put)).symm
        (Holding.earnest_put stop stored).outcome_ne

/-- An admitted batch puts the records of its page, from the cursor's place on. -/
theorem cursorPutMany_admitted {page : Bytes} {stride : Nat}
    (here : env.cursors.get? cursor = some c) (writable : env.writable c.txn c.dbi = .ok db)
    (fixed : db.layout.flags.fixed = true) (valid : validKey key.bytes = true) :
    env.cursorPutMany cursor (some key) page (page.length / stride) stride rule.batchWord =
      putRecords db.layout env.config.mapSize rule key.bytes (Records.split stride page)
        ⟨0, c.place, db.holding⟩ >>= fun done =>
      .done ⟨done.1, done.2.written, (env.keep db done.2.holding).setCursor cursor
        { c with deleted := false, place := done.2.place }⟩ := by
  have admitted : env.admitCursorPut cursor (some key) (some (.filled page)) rule.batchWord =
      .ok (key.bytes, page, c, db) :=
    admitCursorPut_eq_ok.mpr ⟨rfl, rfl, rule.within_batchWord, valid, here, writable⟩
  have sized : ¬(stride = 0 ∧ 0 < page.length / stride) := by
    rintro ⟨rfl, some_record⟩
    simp at some_record
  simp only [cursorPutMany, admitted, fixed, Bool.not_true, Bool.false_eq_true, if_false, sized,
    PutRule.ofFlags_batchWord]
  rfl

theorem eval_cursorPutMany {page : Bytes} {stride : Nat}
    (here : env.cursors.get? cursor = some c) (writable : env.writable c.txn c.dbi = .ok db)
    (fixed : db.layout.flags.fixed = true) (valid : validKey key.bytes = true)
    {outcome : Outcome} {progress : Progress}
    (put : (putRecords db.layout env.config.mapSize rule key.bytes (Records.split stride page)
      ⟨0, c.place, db.holding⟩).eval answer = (outcome, progress)) :
    (env.cursorPutMany cursor (some key) page (page.length / stride) stride
        rule.batchWord).eval answer =
      ⟨outcome, progress.written, (env.keep db progress.holding).setCursor cursor
        { c with deleted := false, place := progress.place }⟩ := by
  rw [cursorPutMany_admitted here writable fixed valid, Inquiry.eval_bind, put]
  rfl

/-- What many records put at once have in common with the same records put one by one. -/
structure AsOneByOne (cursor : Handle) (c : Cursor) (records : List Bytes)
    (many each : Reply Outcome Environment Nat) : Prop where
  data : SameData many.store each.store
  ended : many.ended = each.ended
  /-- The number of records stored. -/
  counted : many.out = each.out
  all : each.ended = .ok .success → each.out = records.length
  /-- Once all are stored, the cursor stands on one item, whichever way they were put. -/
  stands : each.ended = .ok .success → records ≠ [] → ∃ p entries,
    many.store.cursors.get? cursor = some ⟨c.txn, c.dbi, some p, false⟩ ∧
    each.store.cursors.get? cursor = some ⟨c.txn, c.dbi, some p, false⟩ ∧
    each.store.view c.txn c.dbi = some entries ∧ entries.holds p = true

/-- **A page of records is put as its records are put one by one**, up to the first that is refused,
by any rule, whatever the order and the size of the map. -/
theorem batch_is_each_record (here : env.cursors.get? cursor = some c)
    (writable : env.writable c.txn c.dbi = .ok db) (fixed : db.layout.flags.fixed = true)
    (valid : validKey key.bytes = true) (page : Bytes) (stride : Nat) (rule : PutRule) :
    AsOneByOne cursor c (Records.split stride page)
      ((env.cursorPutMany cursor (some key) page (page.length / stride) stride
        rule.batchWord).eval answer)
      ((env.putEach cursor key rule.word (Records.split stride page)).eval answer) := by
  cases put : (putRecords db.layout env.config.mapSize rule key.bytes (Records.split stride page)
      ⟨0, c.place, db.holding⟩).eval answer with
  | mk outcome progress =>
    have agrees := putRecords_agrees answer rule (Records.split stride page) 0 here writable valid
    rw [put] at agrees
    rw [eval_cursorPutMany here writable fixed valid put]
    constructor
    case data => exact (setCursor_sameData cursor _).trans agrees.data
    case ended => exact agrees.ended
    case counted => exact agrees.counted.trans (Nat.zero_add _)
    case all => exact agrees.all
    case stands =>
      intro done some_record
      have all : outcome = .ok .success := agrees.ended.trans done
      have yields := Inquiry.yields_eval answer (putRecords db.layout env.config.mapSize rule
        key.bytes (Records.split stride page) ⟨0, c.place, db.holding⟩)
      rw [put, all] at yields
      obtain ⟨p, place, holds⟩ := putRecords_all_stand valid some_record yields
      refine ⟨p, progress.holding.entries, ?_, ?_, ?_, holds⟩
      · rw [← place]
        exact Table.get?_insert_self _ _ _
      · rw [← place]
        exact agrees.stands done (.inr some_record)
      · rw [← agrees.data.view, keep_view writable, if_pos ⟨rfl, rfl⟩]

end

/-- The map is full at the fourth record; the second was stored already. -/
theorem batch_is_each_record_until_full :
    ∃ (env : Environment) (c : Cursor) (db : Opened), env.cursors.get? 2 = some c ∧
      env.writable c.txn c.dbi = .ok db ∧ db.layout.flags.fixed = true ∧
      validKey (Descriptor.filled [1]).bytes = true ∧ ∃ many each,
        (env.cursorPutMany 2 (some (.filled [1])) [5, 5, 5, 5, 6, 6, 7, 7] 4 2
          (PutRule.batchWord ⟨false, false, false, false⟩)).eval (fun _ => .eq) = many ∧
        (env.putEach 2 (.filled [1]) (PutRule.word ⟨false, false, false, false⟩)
          [[5, 5], [5, 5], [6, 6], [7, 7]]).eval (fun _ => .eq) = each ∧
        AsOneByOne 2 c [[5, 5], [5, 5], [6, 6], [7, 7]] many each ∧
        many.ended.toOption = some .mapFull ∧ many.out = 3 := by
  let begun := ((Environment.new 1 "" { mapSize := 6 }).txnBegin none 0).store
  let opened := (begun.dbiOpen 1 (some "records")
    (Flags.dupSort ||| Flags.dupFixed ||| Flags.create)).store
  let env := (opened.cursorOpen 1 2).store
  have agree := @batch_is_each_record (fun _ => .eq) env 2 (.new 1 2) _ (.filled [1]) rfl rfl rfl rfl
    [5, 5, 5, 5, 6, 6, 7, 7] 2 ⟨false, false, false, false⟩
  exact ⟨env, .new 1 2, _, rfl, rfl, rfl, rfl, _, _, rfl, rfl, agree,
    by decide +kernel +zetaReduce, by decide +kernel +zetaReduce⟩

end Environment

end CollatedStore
