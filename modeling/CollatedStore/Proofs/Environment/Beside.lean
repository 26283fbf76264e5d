import CollatedStore.Proofs.Environment.Accounting
import CollatedStore.Proofs.Environment.Alike
import CollatedStore.Proofs.Environment.Batches
import CollatedStore.Proofs.Neighbours

/-!
One database beside different others. What a call on a database of the writer comes to depends on
the entries there, on its layout and on the cursors that stand in it; besides that only on whether
the map has room.
-/
namespace CollatedStore

namespace Environment

/-- The call is made on this database for this transaction, by key or through a cursor there. -/
def Addresses (env : Environment) (txn : Handle) (dbi : Dbi) : Call → Prop
  | .get t d _ _ => t = txn ∧ d = dbi
  | .put t d _ _ _ => t = txn ∧ d = dbi
  | .del t d _ _ => t = txn ∧ d = dbi
  | .cursorGet cursor _ _ _ => env.Stands cursor txn dbi
  | .cursorPut cursor _ _ _ => env.Stands cursor txn dbi
  | .cursorPutMany cursor _ _ _ _ _ => env.Stands cursor txn dbi
  | .cursorDel cursor _ => env.Stands cursor txn dbi
  | _ => False

/-- The writer finds the same in this database, and the same cursors stand there. -/
structure Beside (txn : Handle) (dbi : Dbi) (env env' : Environment) : Prop where
  record : env'.catalog.get? dbi = env.catalog.get? dbi
  writers : ∃ s s', env.txns.get? txn = some (.writer s) ∧ env'.txns.get? txn = some (.writer s') ∧
    s'.dbs.get? dbi = s.dbs.get? dbi
  cursors : ∀ h c, c.txn = txn → c.dbi = dbi →
    (env'.cursors.get? h = some c ↔ env.cursors.get? h = some c)

/-- Two writers found the same database, whatever other ones they have. -/
def Opened.Beside (db db' : Opened) : Prop := ∃ snapshot, db' = { db with snapshot }

end Environment

/-- The same is told and handed out, and the database is the same afterwards, unless one call is
refused for want of room. -/
inductive Reply.Beside (txn : Handle) (dbi : Dbi) {α : Type} :
    Reply Outcome Environment α → Reply Outcome Environment α → Prop
  | same {ended : Outcome} {out : α} {env env' : Environment} (beside : env.Beside txn dbi env') :
      Beside txn dbi ⟨ended, out, env⟩ ⟨ended, out, env'⟩
  | full {reply reply' : Reply Outcome Environment α} (ended : reply.ended = .ok .mapFull) :
      Beside txn dbi reply reply'
  | fullBeside {reply reply' : Reply Outcome Environment α} (ended : reply'.ended = .ok .mapFull) :
      Beside txn dbi reply reply'

namespace Environment

variable {txn : Handle} {dbi : Dbi} {env env' : Environment}

section
variable {cursor : Handle} {c : Cursor} {db db' : Opened}

theorem Beside.refl {s : Snapshot} (writer : env.txns.get? txn = some (.writer s)) (dbi : Dbi) :
    env.Beside txn dbi env :=
  ⟨rfl, ⟨s, s, writer, writer, rfl⟩, fun _ _ _ _ => Iff.rfl⟩

theorem Beside.symm (h : env.Beside txn dbi env') : env'.Beside txn dbi env := by
  obtain ⟨record, ⟨s, s', was, was', same⟩, cursors⟩ := h
  exact ⟨record.symm, ⟨s', s, was', was, same.symm⟩,
    fun h c inTxn inDb => (cursors h c inTxn inDb).symm⟩

theorem Beside.trans {env'' : Environment} (h : env.Beside txn dbi env')
    (h' : env'.Beside txn dbi env'') : env.Beside txn dbi env'' := by
  obtain ⟨record, ⟨s, s', was, was', same⟩, cursors⟩ := h
  obtain ⟨record', ⟨t, t', now, now', same'⟩, cursors'⟩ := h'
  cases was'.symm.trans now
  exact ⟨record'.trans record, ⟨s, t', was, now', same'.trans same⟩,
    fun h c inTxn inDb => (cursors' h c inTxn inDb).trans (cursors h c inTxn inDb)⟩

theorem Beside.readable (h : env.Beside txn dbi env') :
    env'.readable txn dbi = env.readable txn dbi := by
  obtain ⟨record, ⟨s, s', was, was', same⟩, _⟩ := h
  unfold Environment.readable
  rw [record, was, was']
  cases env.catalog.get? dbi with
  | none => rfl
  | some record => simp only [Txn.snapshot, same]

theorem Beside.writable (h : env.Beside txn dbi env') :
    Checked Opened.Beside (env.writable txn dbi) (env'.writable txn dbi) := by
  obtain ⟨record, ⟨s, s', was, was', same⟩, _⟩ := h
  unfold Environment.writable
  rw [record, was, was']
  cases env.catalog.get? dbi with
  | none => exact .refused _
  | some record =>
    dsimp only
    rw [same]
    cases s.dbs.get? dbi with
    | none => exact .refused _
    | some entries => exact .passed ⟨s', rfl⟩

theorem Beside.setCursor (h : env.Beside txn dbi env') (cursor : Handle) (c : Cursor) :
    (env.setCursor cursor c).Beside txn dbi (env'.setCursor cursor c) := by
  refine ⟨h.record, h.writers, fun k d inTxn inDb => ?_⟩
  simp only [Environment.setCursor, Table.get?_insert]
  split
  · exact Iff.rfl
  · exact h.cursors k d inTxn inDb

theorem Beside.keep (h : env.Beside txn dbi env') (writable : env.writable txn dbi = .ok db)
    (opened : db.Beside db') {holding holding' : Holding}
    (same : holding'.entries = holding.entries) :
    (env.keep db holding).Beside txn dbi (env'.keep db' holding') := by
  obtain ⟨snapshot, rfl⟩ := opened
  obtain ⟨_, _, _, _, _, _, rfl⟩ := writable_eq_ok.mp writable
  refine ⟨h.record, ⟨_, _, Table.get?_insert_self _ _ _, Table.get?_insert_self _ _ _, ?_⟩,
    h.cursors⟩
  rw [Table.get?_insert_self, Table.get?_insert_self, same]

/-- The bytes of a database are among those in use. -/
theorem counted (balanced : Balanced env) (writable : env.writable txn dbi = .ok db) :
    db.entries.size ≤ db.snapshot.used := by
  have used : db.snapshot.used = _ + db.entries.size :=
    (writable_accounted balanced (writable_self writable)).used
  omega

theorem Opened.Beside.put_unlessFull {answer : Question → Ordering} {limit limit' : Nat}
    {rule : PutRule} {key value : Bytes} (opened : db.Beside db')
    (counted : db.entries.size ≤ db.snapshot.used)
    (counted' : db'.entries.size ≤ db'.snapshot.used) :
    Work.UnlessFull Holding.SamePlaced
      ((db.holding.put db.layout limit rule key value).eval answer)
      ((db'.holding.put db'.layout limit' rule key value).eval answer) := by
  obtain ⟨snapshot, rfl⟩ := opened
  exact Holding.put_unlessFull counted counted'

end

/-! ## Replies -/

section
variable {answer : Question → Ordering} {α β γ δ : Type}

/-- What follows steps that come to the same, where a refusal for want of room is told as that. -/
theorem beside_after {R : γ → δ → Prop} {w : Work γ} {w' : Work δ}
    (works : Work.UnlessFull R (w.eval answer) (w'.eval answer))
    {f : Except Stop γ → Inquiry (Reply Outcome Environment α)}
    {f' : Except Stop δ → Inquiry (Reply Outcome Environment α)}
    (full : ((f (.error (.status .mapFull))).eval answer).ended = .ok .mapFull)
    (full' : ((f' (.error (.status .mapFull))).eval answer).ended = .ok .mapFull)
    (stops : ∀ stop, Reply.Beside txn dbi ((f (.error stop)).eval answer)
      ((f' (.error stop)).eval answer))
    (done : ∀ a b, R a b → Reply.Beside txn dbi ((f (.ok a)).eval answer)
      ((f' (.ok b)).eval answer)) :
    Reply.Beside txn dbi ((w.run >>= f).eval answer) ((w'.run >>= f').eval answer) := by
  simp only [Inquiry.eval_bind, Work.eval_run]
  generalize w.eval answer = x at works
  generalize w'.eval answer = x' at works
  cases works with
  | stopped stop => exact stops stop
  | done h => exact done _ _ h
  | full => exact .full full
  | fullBeside => exact .fullBeside full'

theorem handing_beside {x x' : Inquiry (Reply Outcome Environment α)}
    (h : Reply.Beside txn dbi (x.eval answer) (x'.eval answer)) (f : α → Handed) :
    Reply.Beside txn dbi ((Reply.handing f <$> x).eval answer)
      ((Reply.handing f <$> x').eval answer) := by
  rw [Inquiry.eval_map, Inquiry.eval_map]
  generalize x.eval answer = reply at h
  generalize x'.eval answer = reply' at h
  cases h with
  | same beside => exact .same beside
  | full ended => exact .full ended
  | fullBeside ended => exact .fullBeside ended

end

/-! ## Calls by key -/

section
variable {answer : Question → Ordering} {key data : Option Descriptor} {flags : UInt32}

theorem get_beside (beside : env.Beside txn dbi env') :
    Reply.Beside txn dbi ((env.get txn dbi key data).eval answer)
      ((env'.get txn dbi key data).eval answer) := by
  have admitted : env'.admitGet txn dbi key data = env.admitGet txn dbi key data := by
    rw [admitGet, admitGet, beside.readable]
  unfold get
  rw [admitted]
  cases env.admitGet txn dbi key data with
  | error s => exact .same beside
  | ok found =>
    simp only [Inquiry.eval_bind, Work.eval_run]
    generalize Work.eval answer _ = result
    cases result with
    | ok value => exact .same beside
    | error stop => exact .same beside

theorem put_beside (balanced : Balanced env) (balanced' : Balanced env')
    (beside : env.Beside txn dbi env') :
    Reply.Beside txn dbi ((env.put txn dbi key data flags).eval answer)
      ((env'.put txn dbi key data flags).eval answer) := by
  have checked : Checked (fun x x' => ∃ db, x.2.2.Beside db ∧ x' = (x.1, x.2.1, db))
      (env.admitPut txn dbi key data flags) (env'.admitPut txn dbi key data flags) := by
    refine .after _ fun key => .after _ fun value => .after _ fun _ => .after _ fun _ => ?_
    exact beside.writable.bind fun db db' opened => .passed ⟨db', opened, rfl⟩
  unfold put
  generalize admitted : env.admitPut txn dbi key data flags = x at checked
  generalize admitted' : env'.admitPut txn dbi key data flags = x' at checked
  cases checked with
  | refused s => exact .same beside
  | @passed x x' h =>
    obtain ⟨key, value, db⟩ := x
    obtain ⟨db', opened, rfl⟩ := h
    obtain ⟨_, _, _, _, writable⟩ := admitPut_eq_ok.mp admitted
    obtain ⟨_, _, _, _, writable'⟩ := admitPut_eq_ok.mp admitted'
    have fits := counted balanced writable
    have fits' := counted balanced' writable'
    refine beside_after (opened.put_unlessFull fits fits') rfl rfl (fun stop => ?_)
      fun placed placed' same => ?_
    · cases stop <;> exact .same beside
    · exact .same (beside.keep writable opened same.2)

theorem del_beside (balanced : Balanced env) (balanced' : Balanced env')
    (beside : env.Beside txn dbi env') :
    Reply.Beside txn dbi ((env.del txn dbi key data).eval answer)
      ((env'.del txn dbi key data).eval answer) := by
  have checked : Checked (fun x x' => ∃ db, x.2.Beside db ∧ x' = (x.1, db))
      (env.admitDel txn dbi key) (env'.admitDel txn dbi key) := by
    refine .after _ fun key => .after _ fun _ => ?_
    exact beside.writable.bind fun db db' opened => .passed ⟨db', opened, rfl⟩
  unfold del
  generalize admitted : env.admitDel txn dbi key = x at checked
  generalize admitted' : env'.admitDel txn dbi key = x' at checked
  cases checked with
  | refused s => exact .same beside
  | @passed x x' h =>
    obtain ⟨key, db⟩ := x
    obtain ⟨db', opened, rfl⟩ := h
    obtain ⟨_, _, writable⟩ := admitDel_eq_ok.mp admitted
    obtain ⟨_, _, writable'⟩ := admitDel_eq_ok.mp admitted'
    have works : Work.UnlessFull (fun left left' => left'.entries = left.entries)
        ((db.holding.remove db.layout key (data.map Descriptor.bytes)).eval answer)
        ((db'.holding.remove db'.layout key (data.map Descriptor.bytes)).eval answer) := by
      obtain ⟨snapshot, rfl⟩ := opened
      exact Holding.remove_unlessFull (counted balanced writable) (counted balanced' writable')
    refine beside_after works rfl rfl (fun stop => .same beside) fun left left' same => ?_
    exact .same (beside.keep writable opened same)

end

/-! ## Calls through cursors -/

section
variable {answer : Question → Ordering} {cursor : Handle} {c : Cursor} {key data : Option Descriptor}
  {op flags : UInt32}

theorem cursorGet_beside (beside : env.Beside txn dbi env') (stands : env.Stands cursor txn dbi) :
    Reply.Beside txn dbi ((env.cursorGet cursor key data op).eval answer)
      ((env'.cursorGet cursor key data op).eval answer) := by
  obtain ⟨c, here, rfl, rfl⟩ := stands
  have here' := (beside.cursors cursor c rfl rfl).mpr here
  have admitted : env'.admitMove cursor = env.admitMove cursor := by
    simp only [admitMove, cursor_eq_ok.mpr here, cursor_eq_ok.mpr here', ok_bind, beside.readable]
  unfold cursorGet
  rw [admitted]
  cases env.admitMove cursor with
  | error s => exact .same beside
  | ok found =>
    simp only [Inquiry.eval_bind, Work.eval_run]
    generalize Work.eval answer _ = moved
    cases moved with
    | error stop => exact .same (beside.setCursor _ _)
    | ok led =>
      simp only [Inquiry.eval_bind, Work.eval_run]
      generalize Work.eval answer _ = read
      cases read with
      | error stop => exact .same (beside.setCursor _ _)
      | ok out => exact .same (beside.setCursor _ _)

theorem admitCursorPut_beside (beside : env.Beside c.txn c.dbi env')
    (here : env.cursors.get? cursor = some c) :
    Checked (fun x x' => ∃ db, x.2.2.2.Beside db ∧ x' = (x.1, x.2.1, x.2.2.1, db))
      (env.admitCursorPut cursor key data flags)
      (env'.admitCursorPut cursor key data flags) := by
  have here' := (beside.cursors cursor c rfl rfl).mpr here
  unfold admitCursorPut
  rw [cursor_eq_ok.mpr here, cursor_eq_ok.mpr here']
  refine .after _ fun key => .after _ fun value => .after _ fun _ => .after _ fun _ => ?_
  exact beside.writable.bind fun db db' opened => .passed ⟨db', opened, rfl⟩

theorem replaceCurrent_unlessFull {db db' : Opened} {limit limit' : Nat} {key value : Bytes}
    (opened : db.Beside db') (counted : db.entries.size ≤ db.snapshot.used)
    (counted' : db'.entries.size ≤ db'.snapshot.used) :
    Work.UnlessFull Holding.SamePlaced ((replaceCurrent c db limit key value).eval answer)
      ((replaceCurrent c db' limit' key value).eval answer) := by
  obtain ⟨snapshot, rfl⟩ := opened
  unfold replaceCurrent
  dsimp only
  split
  · exact .stopped _
  · simp only [Work.eval_bind]
    refine .after _ fun e _ => .after _ fun o _ => ?_
    cases o with
    | eq => exact Holding.replaceAt_unlessFull counted counted'
    | lt | gt => exact .stopped _

theorem writePair_unlessFull {db db' : Opened} {limit limit' : Nat} {key value : Bytes}
    (opened : db.Beside db') (counted : db.entries.size ≤ db.snapshot.used)
    (counted' : db'.entries.size ≤ db'.snapshot.used) :
    Work.UnlessFull Holding.SamePlaced ((writePair c db limit flags key value).eval answer)
      ((writePair c db' limit' flags key value).eval answer) := by
  unfold writePair
  split
  · exact .stopped _
  · split
    · exact replaceCurrent_unlessFull opened counted counted'
    · exact opened.put_unlessFull counted counted'

theorem cursorPut_beside (balanced : Balanced env) (balanced' : Balanced env')
    (beside : env.Beside txn dbi env') (stands : env.Stands cursor txn dbi) :
    Reply.Beside txn dbi ((env.cursorPut cursor key data flags).eval answer)
      ((env'.cursorPut cursor key data flags).eval answer) := by
  obtain ⟨c, here, rfl, rfl⟩ := stands
  have checked : Checked _ (env.admitCursorPut cursor key data flags)
    (env'.admitCursorPut cursor key data flags) := admitCursorPut_beside beside here
  unfold cursorPut
  generalize admitted : env.admitCursorPut cursor key data flags = x at checked
  generalize admitted' : env'.admitCursorPut cursor key data flags = x' at checked
  cases checked with
  | refused s => exact .same beside
  | @passed x x' h =>
    obtain ⟨key, value, c', db⟩ := x
    obtain ⟨db', opened, rfl⟩ := h
    obtain ⟨_, _, _, _, own, writable⟩ := admitCursorPut_eq_ok.mp admitted
    obtain ⟨_, _, _, _, _, writable'⟩ := admitCursorPut_eq_ok.mp admitted'
    cases here.symm.trans own
    have works : Work.UnlessFull Holding.SamePlaced
        ((writePair c db env.config.mapSize flags key value).eval answer)
        ((writePair c db' env'.config.mapSize flags key value).eval answer) :=
      writePair_unlessFull opened (counted balanced writable) (counted balanced' writable')
    refine beside_after works rfl rfl (fun stop => ?_) fun placed placed' same => ?_
    · cases stop <;> exact .same (beside.setCursor _ _)
    · obtain ⟨p, holding⟩ := placed
      obtain ⟨p', holding'⟩ := placed'
      obtain ⟨rfl, same⟩ := same
      exact .same ((beside.keep writable opened same).setCursor _ _)

/-- As many records are stored among the same entries, unless one put is refused for want of
room. -/
inductive RecordsBeside : Outcome × Progress → Outcome × Progress → Prop
  | same {outcome : Outcome} {written : Nat} {place : Option Place} {holding holding' : Holding}
      (entries : holding'.entries = holding.entries) :
      RecordsBeside (outcome, ⟨written, place, holding⟩) (outcome, ⟨written, place, holding'⟩)
  | full (progress : Progress) (result : Outcome × Progress) :
      RecordsBeside (.ok .mapFull, progress) result
  | fullBeside (result : Outcome × Progress) (progress : Progress) :
      RecordsBeside result (.ok .mapFull, progress)

theorem putRecords_beside {layout : Layout} {limit limit' rest rest' written : Nat}
    {rule : PutRule} {key : Bytes} {place : Option Place} {holding holding' : Holding}
    (valid : validKey key = true) (ok : Holding.Accounted layout limit rest holding)
    (ok' : Holding.Accounted layout limit' rest' holding')
    (same : holding'.entries = holding.entries) (records : List Bytes) :
    RecordsBeside
      ((putRecords layout limit rule key records ⟨written, place, holding⟩).eval answer)
      ((putRecords layout limit' rule key records ⟨written, place, holding'⟩).eval answer) := by
  induction records generalizing written place holding holding' with
  | nil => exact .same same
  | cons record more ih =>
    rw [eval_putRecords_cons, eval_putRecords_cons]
    have works : Work.UnlessFull Holding.SamePlaced
        ((holding.put layout limit rule key record).eval answer)
        ((holding'.put layout limit' rule key record).eval answer) := by
      obtain ⟨entries, used⟩ := holding
      obtain ⟨_, used'⟩ := holding'
      cases same
      have used := ok.used
      have used' := ok'.used
      exact Holding.put_unlessFull (by dsimp only at *; omega) (by dsimp only at *; omega)
    generalize stored : (holding.put layout limit rule key record).eval answer = x at works
    generalize stored' : (holding'.put layout limit' rule key record).eval answer = x' at works
    cases works with
    | stopped stop => exact .same same
    | full => exact .full _ _
    | fullBeside => exact .fullBeside _ _
    | @done placed placed' same =>
      obtain ⟨p, left⟩ := placed
      obtain ⟨p', left'⟩ := placed'
      obtain ⟨rfl, same⟩ := same
      have change := (Holding.put_placed valid (Inquiry.yieldsBy_answer.mpr stored.symm)).change
      have change' := (Holding.put_placed valid (Inquiry.yieldsBy_answer.mpr stored'.symm)).change
      exact ih (change.edits.accounted ok) (change'.edits.accounted ok') same

theorem cursorPutMany_beside {page : Bytes} {count stride : Nat} (balanced : Balanced env)
    (balanced' : Balanced env') (beside : env.Beside txn dbi env')
    (stands : env.Stands cursor txn dbi) :
    Reply.Beside txn dbi ((env.cursorPutMany cursor key page count stride flags).eval answer)
      ((env'.cursorPutMany cursor key page count stride flags).eval answer) := by
  obtain ⟨c, here, rfl, rfl⟩ := stands
  have checked : Checked _
    (env.admitCursorPut cursor key (some (.filled page)) flags)
    (env'.admitCursorPut cursor key (some (.filled page)) flags) :=
      admitCursorPut_beside beside here
  unfold cursorPutMany
  generalize admitted : env.admitCursorPut cursor key _ flags = x at checked
  generalize admitted' : env'.admitCursorPut cursor key _ flags = x' at checked
  cases checked with
  | refused s => exact .same beside
  | @passed x x' h =>
    obtain ⟨key, value, c', db⟩ := x
    obtain ⟨db', opened, rfl⟩ := h
    obtain ⟨_, _, _, valid, own, writable⟩ := admitCursorPut_eq_ok.mp admitted
    obtain ⟨_, _, _, _, _, writable'⟩ := admitCursorPut_eq_ok.mp admitted'
    cases here.symm.trans own
    have kept := fun (h h' : Holding) (same : h'.entries = h.entries) =>
      beside.keep writable opened same
    have ok := writable_accounted balanced (writable_self writable)
    have ok' := writable_accounted balanced' (writable_self writable')
    obtain ⟨snapshot, rfl⟩ := opened
    dsimp only
    split
    · exact .same (beside.setCursor _ _)
    · split
      · exact .same (beside.setCursor _ _)
      · generalize (List.range count).map _ = records
        simp only [Inquiry.eval_bind]
        have put : RecordsBeside
            ((putRecords db.layout env.config.mapSize (.ofFlags flags) key records
              ⟨0, c.place, db.holding⟩).eval answer) _ :=
          putRecords_beside valid ok ok' rfl records
        generalize Inquiry.eval answer (putRecords _ env.config.mapSize _ _ _ _) = made at put ⊢
        generalize Inquiry.eval answer (putRecords _ env'.config.mapSize _ _ _ _) = made' at put ⊢
        cases put with
        | same entries => exact .same ((kept _ _ entries).setCursor _ _)
        | full => exact .full rfl
        | fullBeside => exact .fullBeside rfl

theorem cursorDel_beside (balanced : Balanced env) (balanced' : Balanced env')
    (beside : env.Beside txn dbi env') (stands : env.Stands cursor txn dbi) :
    Reply.Beside txn dbi ((env.cursorDel cursor flags).eval answer)
      ((env'.cursorDel cursor flags).eval answer) := by
  obtain ⟨c, here, rfl, rfl⟩ := stands
  have here' := (beside.cursors cursor c rfl rfl).mpr here
  have checked : Checked (fun x x' => ∃ db, x.2.2.Beside db ∧ x' = (x.1, x.2.1, db))
      (env.admitCursorDel cursor) (env'.admitCursorDel cursor) := by
    unfold admitCursorDel
    rw [cursor_eq_ok.mpr here, cursor_eq_ok.mpr here']
    refine beside.writable.bind fun db db' opened => ?_
    obtain ⟨snapshot, rfl⟩ := opened
    dsimp only
    cases c.current db.entries with
    | none => exact .refused _
    | some p => exact .passed ⟨_, ⟨snapshot, rfl⟩, rfl⟩
  unfold cursorDel
  generalize admitted : env.admitCursorDel cursor = x at checked
  generalize admitted' : env'.admitCursorDel cursor = x' at checked
  cases checked with
  | refused s => exact .same beside
  | @passed x x' h =>
    obtain ⟨c', p, db⟩ := x
    obtain ⟨db', opened, rfl⟩ := h
    obtain ⟨own, writable, _⟩ := admitCursorDel_eq_ok.mp admitted
    obtain ⟨_, writable', _⟩ := admitCursorDel_eq_ok.mp admitted'
    cases here.symm.trans own
    have works : ∀ all, Work.UnlessFull Holding.SamePlaced
        ((db.holding.removeAt p all).eval answer) ((db'.holding.removeAt p all).eval answer) := by
      obtain ⟨snapshot, rfl⟩ := opened
      exact fun all => Holding.removeAt_unlessFull (counted balanced writable)
        (counted balanced' writable')
    have layout : db'.layout = db.layout := by
      obtain ⟨snapshot, rfl⟩ := opened
      rfl
    dsimp only
    rw [layout]
    refine beside_after (works _) rfl rfl (fun stop => .same beside) fun placed placed' same => ?_
    obtain ⟨q, holding⟩ := placed
    obtain ⟨q', holding'⟩ := placed'
    obtain ⟨rfl, same⟩ := same
    exact .same ((beside.keep writable opened same).setCursor _ _)

end

/-! ## Every call -/

/-- **A call on one database** tells the same and does the same there, whatever the other databases
hold, unless it is refused for want of room. -/
theorem respond_beside (answer : Question → Ordering) {call : Call} (balanced : Balanced env)
    (balanced' : Balanced env') (beside : env.Beside txn dbi env')
    (addresses : env.Addresses txn dbi call) :
    Reply.Beside txn dbi ((env.respond call).eval answer) ((env'.respond call).eval answer) := by
  cases call with
  | get t d key data =>
    obtain ⟨rfl, rfl⟩ := addresses
    exact handing_beside (get_beside beside) _
  | put t d key data flags =>
    obtain ⟨rfl, rfl⟩ := addresses
    exact handing_beside (put_beside balanced balanced' beside) _
  | del t d key data =>
    obtain ⟨rfl, rfl⟩ := addresses
    exact handing_beside (del_beside balanced balanced' beside) fun _ => .nothing
  | cursorGet => exact handing_beside (cursorGet_beside beside addresses) _
  | cursorPut => exact handing_beside (cursorPut_beside balanced balanced' beside addresses) _
  | cursorPutMany =>
    exact handing_beside (cursorPutMany_beside balanced balanced' beside addresses) _
  | cursorDel =>
    exact handing_beside (cursorDel_beside balanced balanced' beside addresses) fun _ => .nothing
  | txnBegin | txnCommit | txnAbort | dbiOpen | setOrder | cursorOpen | cursorClose =>
    exact addresses.elim

end Environment

end CollatedStore
