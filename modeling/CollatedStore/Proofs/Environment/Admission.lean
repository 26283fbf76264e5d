import CollatedStore.Proofs.Environment.Calls
import CollatedStore.Proofs.Refusals

/-!
Admission. A call on data checks its arguments one after another before it asks anything; what an
admitted call may rely on, and what one that is not admitted is told.
-/
namespace CollatedStore.Environment

theorem writable_eq_ok {env : Environment} {txn : Handle} {dbi : Dbi} {db : Opened} :
    env.writable txn dbi = .ok db ↔ ∃ snapshot record entries,
      env.txns.get? txn = some (.writer snapshot) ∧ env.catalog.get? dbi = some record ∧
        snapshot.dbs.get? dbi = some entries ∧
        db = ⟨txn, dbi, snapshot, entries, record.layout⟩ := by
  unfold writable
  constructor
  · intro h
    split at h
    · rename_i snapshot record ht hr
      split at h
      · rename_i entries he
        cases h
        exact ⟨snapshot, record, entries, ht, hr, he, rfl⟩
      · cases h
    · cases h
    · cases h
  · rintro ⟨snapshot, record, entries, ht, hr, he, rfl⟩
    simp [ht, hr, he]

theorem readable_eq_ok {env : Environment} {txn : Handle} {dbi : Dbi} {entries : Contents}
    {layout : Layout} :
    env.readable txn dbi = .ok (entries, layout) ↔ ∃ t record,
      env.txns.get? txn = some t ∧ env.catalog.get? dbi = some record ∧
        t.snapshot.dbs.get? dbi = some entries ∧ layout = record.layout := by
  unfold readable
  constructor
  · intro h
    split at h
    · rename_i t record ht hr
      split at h
      · rename_i he
        cases h
        exact ⟨t, record, ht, hr, he, rfl⟩
      · cases h
    · cases h
  · rintro ⟨t, record, ht, hr, he, rfl⟩
    simp [ht, hr, he]

theorem writable_was {env : Environment} {txn : Handle} {dbi : Dbi} {db : Opened}
    (h : env.writable txn dbi = .ok db) :
    env.txns.get? db.txn = some (.writer db.snapshot) ∧
      db.snapshot.dbs.get? db.dbi = some db.entries := by
  obtain ⟨_, _, _, was, _, he, rfl⟩ := writable_eq_ok.mp h
  exact ⟨was, he⟩

theorem writable_self {env : Environment} {txn : Handle} {dbi : Dbi} {db : Opened}
    (h : env.writable txn dbi = .ok db) : env.writable db.txn db.dbi = .ok db := by
  obtain ⟨_, _, _, _, _, _, rfl⟩ := writable_eq_ok.mp h
  exact h

theorem writable_dbi {env : Environment} {txn : Handle} {dbi : Dbi} {db : Opened}
    (h : env.writable txn dbi = .ok db) : db.dbi = dbi := by
  obtain ⟨_, _, _, _, _, _, rfl⟩ := writable_eq_ok.mp h
  rfl

theorem cursor_eq_ok {env : Environment} {h : Handle} {c : Cursor} :
    env.cursor h = .ok c ↔ env.cursors.get? h = some c := by
  unfold cursor
  split <;> simp_all

theorem checkKey_eq_ok {key : Bytes} {u : Unit} : checkKey key = .ok u ↔ validKey key = true := by
  unfold checkKey
  split <;> simp_all

theorem checkFlags_eq_ok {flags mask : UInt32} {u : Unit} :
    checkFlags flags mask = .ok u ↔ Flags.within flags mask = true := by
  unfold checkFlags
  split <;> simp_all

section
variable {env : Environment} {txn cursor : Handle} {dbi : Dbi} {key data : Option Descriptor}
  {flags op : UInt32} {k v : Bytes} {db : Opened}

theorem admitGet_eq_ok {entries : Contents} {layout : Layout} :
    env.admitGet txn dbi key data = .ok (k, entries, layout) ↔
      present key = .ok k ∧ (∃ v, present data = .ok v) ∧ validKey k = true ∧
        env.readable txn dbi = .ok (entries, layout) := by
  unfold admitGet
  simp only [bind_eq_ok, checkKey_eq_ok, pure, Except.pure]
  grind

theorem admitPut_eq_ok :
    env.admitPut txn dbi key data flags = .ok (k, v, db) ↔
      present key = .ok k ∧ present data = .ok v ∧ Flags.within flags Flags.put = true ∧
        validKey k = true ∧ env.writable txn dbi = .ok db := by
  unfold admitPut
  simp only [bind_eq_ok, checkFlags_eq_ok, checkKey_eq_ok, pure, Except.pure]
  grind

theorem admitDel_eq_ok :
    env.admitDel txn dbi key = .ok (k, db) ↔
      present key = .ok k ∧ validKey k = true ∧ env.writable txn dbi = .ok db := by
  unfold admitDel
  simp only [bind_eq_ok, checkKey_eq_ok, pure, Except.pure]
  grind

theorem admitMove_eq_ok {c : Cursor} {entries : Contents} {layout : Layout} :
    env.admitMove cursor = .ok (c, entries, layout) ↔
      env.cursors.get? cursor = some c ∧ env.readable c.txn c.dbi = .ok (entries, layout) := by
  unfold admitMove
  simp only [bind_eq_ok, cursor_eq_ok, pure, Except.pure]
  grind

theorem admitCursorPut_eq_ok {c : Cursor} :
    env.admitCursorPut cursor key data flags = .ok (k, v, c, db) ↔
      present key = .ok k ∧ present data = .ok v ∧ Flags.within flags Flags.cursorPut = true ∧
        validKey k = true ∧ env.cursors.get? cursor = some c ∧
          env.writable c.txn c.dbi = .ok db := by
  unfold admitCursorPut
  simp only [bind_eq_ok, checkFlags_eq_ok, checkKey_eq_ok, cursor_eq_ok, pure, Except.pure]
  grind

theorem admitCursorDel_eq_ok {c : Cursor} {p : Place} :
    env.admitCursorDel cursor = .ok (c, p, db) ↔
      env.cursors.get? cursor = some c ∧ env.writable c.txn c.dbi = .ok db ∧
        c.current db.entries = some p := by
  unfold admitCursorDel
  simp only [bind_eq_ok, cursor_eq_ok]
  constructor
  · rintro ⟨c', hc, db', hdb, h⟩
    split at h
    · cases h; exact ⟨hc, hdb, ‹_›⟩
    · cases h
  · rintro ⟨hc, hdb, hp⟩
    exact ⟨c, hc, db, hdb, by rw [hp]; rfl⟩

end

/-! ## Refused arguments -/

theorem denies_present (d : Option Descriptor) : Denies (present d) := by
  cases d with
  | none => exact .error (by decide)
  | some d => exact .ok d.bytes

theorem denies_cursor (env : Environment) (h : Handle) : Denies (env.cursor h) := by
  unfold cursor
  split
  · exact .ok _
  · exact .error (by decide)

theorem denies_writable (env : Environment) (txn : Handle) (dbi : Dbi) :
    Denies (env.writable txn dbi) := by
  unfold writable
  split
  · split
    · exact .ok _
    · exact .error (by decide)
  · exact .error (by decide)
  · exact .error (by decide)

theorem denies_readable (env : Environment) (txn : Handle) (dbi : Dbi) :
    Denies (env.readable txn dbi) := by
  unfold readable
  split
  · split
    · exact .ok _
    · exact .error (by decide)
  · exact .error (by decide)

theorem denies_admitMove (env : Environment) (cursor : Handle) :
    Denies (env.admitMove cursor) := by
  unfold admitMove
  refine (denies_cursor env cursor).bind fun c => ?_
  exact (denies_readable env c.txn c.dbi).bind fun found => .ok _

theorem denies_admitCursorPut (env : Environment) (cursor : Handle)
    (key data : Option Descriptor) (flags : UInt32) :
    Denies (env.admitCursorPut cursor key data flags) := by
  unfold admitCursorPut
  refine (denies_present key).bind fun key => (denies_present data).bind fun value => ?_
  refine Denies.bind (.check (by decide)) fun _ => Denies.bind (.check (by decide)) fun _ => ?_
  refine (denies_cursor env cursor).bind fun c => ?_
  exact (denies_writable env c.txn c.dbi).bind fun db => .ok _

theorem denies_admitCursorDel (env : Environment) (cursor : Handle) :
    Denies (env.admitCursorDel cursor) := by
  unfold admitCursorDel
  refine (denies_cursor env cursor).bind fun c => ?_
  refine (denies_writable env c.txn c.dbi).bind fun db => ?_
  split
  · exact .ok _
  · exact .error (by decide)

end CollatedStore.Environment
