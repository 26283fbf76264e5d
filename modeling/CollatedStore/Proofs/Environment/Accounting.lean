import CollatedStore.Proofs.Environment.Catalog
import CollatedStore.Proofs.Environment.Isolation
import CollatedStore.Proofs.Table

/-!
The bytes in use. Every snapshot, whoever holds it, counts exactly the bytes of its keys and values,
within the limit of the map, and no entry of it is without a value.
-/
namespace CollatedStore

namespace Snapshot

/-- Every byte held is counted once, no more are held than allowed, and every entry holds at least a
value, under a key that may be stored. -/
structure Accounted (limit : Nat) (s : Snapshot) : Prop where
  inhabited : ∀ {dbi entries}, s.dbs.get? dbi = some entries → ∀ e ∈ entries, e.values ≠ []
  keys : ∀ {dbi entries}, s.dbs.get? dbi = some entries → ∀ e ∈ entries,
    1 ≤ e.key.length ∧ e.key.length ≤ 511
  used : s.used = s.dbs.sum Contents.size
  room : s.used ≤ limit

/-- Every database is listed, and keeps its entries as its layout asks. -/
structure Fits (catalog : Catalog) (s : Snapshot) : Prop where
  listed : ∀ {dbi entries}, s.dbs.get? dbi = some entries →
    ∃ record, catalog.get? dbi = some record ∧ ∀ e ∈ entries, e.Proper record.layout

variable {s : Snapshot} {catalog catalog' : Catalog} {limit : Nat} {dbi : Dbi}

theorem Fits.accounted (fits : s.Fits catalog) (used : s.used = s.dbs.sum Contents.size)
    (room : s.used ≤ limit) : s.Accounted limit where
  inhabited here e he := by
    obtain ⟨record, _, proper⟩ := fits.listed here
    exact (proper e he).inhabited
  keys here e he := by
    obtain ⟨record, _, proper⟩ := fits.listed here
    have valid := (proper e he).key
    simp only [validKey, Bool.and_eq_true, Bool.not_eq_true', List.isEmpty_eq_false_iff,
      decide_eq_true_eq] at valid
    exact ⟨List.length_pos_iff.mpr valid.1, valid.2⟩
  used := used
  room := room

/-- Only the kind of a database matters to its entries, not its orders. -/
theorem Fits.relist (fits : s.Fits catalog)
    (same : ∀ {dbi entries record}, s.dbs.get? dbi = some entries →
      catalog.get? dbi = some record → ∃ record', catalog'.get? dbi = some record' ∧
        record'.layout.flags = record.layout.flags) : s.Fits catalog' := by
  refine ⟨fun here => ?_⟩
  obtain ⟨record, listed, proper⟩ := fits.listed here
  obtain ⟨record', listed', flags⟩ := same here listed
  refine ⟨record', listed', fun e he => ?_⟩
  have was := proper e he
  exact ⟨was.key, was.inhabited, flags ▸ was.single⟩

/-- One record is changed, but not its kind. -/
theorem Fits.retune (fits : s.Fits catalog) (pos : 0 < dbi) {change : DbRecord → DbRecord}
    (kind : ∀ r, (change r).layout.flags = r.layout.flags) :
    s.Fits (catalog.modify dbi change) := by
  refine fits.relist fun {d entries record} here listed => ?_
  rw [Catalog.get?_modify _ pos, listed]
  refine ⟨_, rfl, ?_⟩
  split
  · exact kind record
  · rfl

/-- One listed database gets other entries. -/
theorem Fits.insert (fits : s.Fits catalog) {record : DbRecord}
    (listed : catalog.get? dbi = some record) {entries : Contents}
    (proper : ∀ e ∈ entries, e.Proper record.layout) (used : Nat) :
    Snapshot.Fits catalog { s with dbs := s.dbs.insert dbi entries, used } := by
  refine ⟨fun {d c} here => ?_⟩
  rw [Table.get?_insert] at here
  split at here
  · rename_i own
    cases here
    exact ⟨record, own ▸ listed, proper⟩
  · exact fits.listed here

/-- A database that is not listed has no entries. -/
theorem Fits.absent (fits : s.Fits catalog) (unlisted : catalog.get? dbi = none) :
    s.dbs.get? dbi = none := by
  cases here : s.dbs.get? dbi with
  | none => rfl
  | some entries =>
    obtain ⟨record, listed, _⟩ := fits.listed here
    rw [unlisted] at listed
    cases listed

/-- What is listed differently is of no matter where it is absent. -/
theorem Fits.relist_others (fits : s.Fits catalog) (absent : s.dbs.get? dbi = none)
    (others : ∀ d record, d ≠ dbi → catalog.get? d = some record → catalog'.get? d = some record) :
    s.Fits catalog' := by
  refine fits.relist fun {d entries record} here listed => ⟨record, others d record ?_ listed, rfl⟩
  rintro rfl
  rw [absent] at here
  cases here

end Snapshot

namespace Environment

/-- What every call relies on and keeps. -/
structure Balanced (env : Environment) : Prop where
  committed : env.committed.Accounted env.config.mapSize
  live : ∀ {h t}, env.txns.get? h = some t → t.snapshot.Accounted env.config.mapSize
  /-- What a reader holds was committed once, and is not asked for here. -/
  fits : env.committed.Fits env.catalog
  writes : ∀ {h s}, env.txns.get? h = some (.writer s) → s.Fits env.catalog
  /-- A writer has every database that is committed. -/
  covers : ∀ {h s dbi}, env.txns.get? h = some (.writer s) → s.dbs.get? dbi = none →
    env.committed.dbs.get? dbi = none

theorem new_balanced (id : UInt64) (owner : String) (config : EnvConfig) :
    Balanced (.new id owner config) := by
  have fits : (Environment.new id owner config).committed.Fits [⟨none, ⟨none, none, .plain⟩⟩] := by
    refine ⟨fun {dbi entries} here => ?_⟩
    simp only [new, Table.get?_insert] at here
    split at here
    · rename_i root
      cases here
      rw [root]
      exact ⟨_, rfl, fun _ none_held => absurd none_held List.not_mem_nil⟩
    · cases here
  constructor
  case committed => exact fits.accounted rfl (Nat.zero_le _)
  case live => intro h t live; cases live
  case fits => exact fits
  case writes => intro h s live; cases live
  case covers => intro h s dbi live; cases live

section
variable {env env' : Environment}

/-- A transaction enters, or the writer changes its copy. -/
theorem Balanced.insert (h : Balanced env) {k : Handle} {t : Txn}
    (txns : env'.txns = env.txns.insert k t) (committed : env'.committed = env.committed)
    (config : env'.config = env.config) (catalog : env'.catalog = env.catalog)
    (accounted : t.snapshot.Accounted env.config.mapSize)
    (writer : ∀ s, t = .writer s → s.Fits env.catalog ∧
      ∀ dbi, s.dbs.get? dbi = none → env.committed.dbs.get? dbi = none) : Balanced env' := by
  have lookup : ∀ {l u}, env'.txns.get? l = some u → u = t ∨ env.txns.get? l = some u := by
    intro l u hl
    rw [txns, Table.get?_insert] at hl
    split at hl
    · exact .inl (Option.some.inj hl).symm
    · exact .inr hl
  constructor
  case committed => rw [committed, config]; exact h.committed
  case live =>
    intro l u hl
    rw [config]
    obtain rfl | hl := lookup hl
    · exact accounted
    · exact h.live hl
  case fits => rw [committed, catalog]; exact h.fits
  case writes =>
    intro l s hl
    rw [catalog]
    obtain own | hl := lookup hl
    · exact (writer s own.symm).1
    · exact h.writes hl
  case covers =>
    intro l s dbi hl absent
    rw [committed]
    obtain own | hl := lookup hl
    · exact (writer s own.symm).2 dbi absent
    · exact h.covers hl absent

/-- A transaction ends. If it was the writer, its copy may be the committed one now. -/
theorem Balanced.erase (h : Balanced env) {k : Handle} (txns : env'.txns = env.txns.erase k)
    (config : env'.config = env.config) (catalog : env'.catalog = env.catalog)
    (committed : env'.committed = env.committed ∨
      env.txns.get? k = some (.writer env'.committed) ∧
        ∀ l s, l ≠ k → env.txns.get? l ≠ some (.writer s)) : Balanced env' := by
  have stays : ∀ {l u}, env'.txns.get? l = some u → l ≠ k ∧ env.txns.get? l = some u := by
    intro l u hl
    rw [txns, Table.get?_erase] at hl
    split at hl
    · cases hl
    · rename_i other
      exact ⟨other, hl⟩
  constructor
  case committed =>
    rw [config]
    obtain same | ⟨was, _⟩ := committed
    · rw [same]; exact h.committed
    · exact h.live was
  case live => intro l u hl; rw [config]; exact h.live (stays hl).2
  case fits =>
    rw [catalog]
    obtain same | ⟨was, _⟩ := committed
    · rw [same]; exact h.fits
    · exact h.writes was
  case writes => intro l s hl; rw [catalog]; exact h.writes (stays hl).2
  case covers =>
    intro l s dbi hl absent
    obtain same | ⟨_, alone⟩ := committed
    · rw [same]; exact h.covers (stays hl).2 absent
    · exact absurd (stays hl).2 (alone l s (stays hl).1)

/-- The catalog changes, though not for what is committed or being written. -/
theorem Balanced.relist (h : Balanced env) {catalog : Catalog}
    (fits : env.committed.Fits catalog)
    (writes : ∀ {k s}, env.txns.get? k = some (.writer s) → s.Fits catalog) :
    Balanced { env with catalog } :=
  ⟨h.committed, h.live, fits, writes, h.covers⟩

/-- What a writer finds in one database is accounted for; the rest is what the others hold. -/
theorem writable_accounted (h : Balanced env) {db : Opened}
    (writable : env.writable db.txn db.dbi = .ok db) :
    Holding.Accounted db.layout env.config.mapSize
      ((db.snapshot.dbs.insert db.dbi []).sum Contents.size) db.holding := by
  obtain ⟨snapshot, record, entries, was, listed, stored, same⟩ := writable_eq_ok.mp writable
  obtain ⟨txn, dbi, _, _, _⟩ := db
  cases same
  dsimp only at was listed stored
  have accounted : snapshot.Accounted env.config.mapSize := h.live was
  have others := Table.sum_insert_of_get? Contents.size stored []
  obtain ⟨record', listed', proper⟩ := (h.writes was).listed stored
  rw [listed] at listed'
  cases listed'
  have used := accounted.used
  exact ⟨proper, by dsimp only [Opened.holding, Contents.size_nil] at *; omega, accounted.room⟩

/-- The writer's snapshot with other entries in one database that it has. -/
theorem keep_balanced (h : Balanced env) {db : Opened} {holding : Holding}
    (writable : env.writable db.txn db.dbi = .ok db)
    (edits : Holding.Edits db.layout env.config.mapSize db.holding holding) :
    Balanced (env.keep db holding) := by
  have kept := edits.accounted (writable_accounted h writable)
  obtain ⟨snapshot, record, entries, was, listed, stored, same⟩ := writable_eq_ok.mp writable
  obtain ⟨txn, dbi, _, _, _⟩ := db
  cases same
  dsimp only at was listed stored kept
  have others := Table.sum_insert_of_get? Contents.size stored []
  have becomes := Table.sum_insert_of_get? Contents.size stored holding.entries
  have fits' := (h.writes was).insert listed kept.entries holding.used
  have used := kept.used
  refine h.insert rfl rfl rfl rfl (fits'.accounted ?_ kept.room) ?_
  · dsimp only [Contents.size_nil] at *
    omega
  · rintro s ⟨⟩
    exact ⟨fits', fun d absent => h.covers was (Table.absent_of_insert absent)⟩

theorem touched_balanced (h : Balanced env) (touched : Touched env env') : Balanced env' := by
  induction touched with
  | same => exact h
  | wrote writable edits => exact keep_balanced h writable edits
  | moved _ _ _ _ ih => exact ⟨ih.committed, ih.live, ih.fits, ih.writes, ih.covers⟩

/-- A database is created where none is, and no other is listed differently for it. -/
theorem createDb_cases {snapshot : Snapshot} {name : Option String}
    (unknown : env.known? snapshot name = none) (txn : Handle) (flags : DbFlags) :
    (env.createDb txn snapshot name flags).store = env ∨
      ∃ dbi catalog, (env.createDb txn snapshot name flags).store =
          { env with
            catalog
            txns := env.txns.insert txn
              (.writer { snapshot with dbs := snapshot.dbs.insert dbi [] }) } ∧
        (∃ record, catalog.get? dbi = some record) ∧
        (∀ d record, d ≠ dbi → env.catalog.get? d = some record →
          catalog.get? d = some record) ∧
        (snapshot.dbs.get? dbi = none ∨ env.catalog.get? dbi = none) := by
  unfold createDb
  cases named : env.catalog.find? name with
  | some dbi =>
    obtain ⟨n, record, rfl, listed⟩ := Catalog.find?_listed named
    have absent : snapshot.dbs.get? (n + 1) = none := by
      simpa [known?, named, listed, Table.contains] using unknown
    refine .inr ⟨n + 1, _, rfl, ⟨{ record with layout := { record.layout with flags } }, ?_⟩,
      fun d record' other listed' => ?_, .inl absent⟩
    · simp [Catalog.get?_modify _ (Nat.succ_pos n), listed]
    · simp [Catalog.get?_modify _ (Nat.succ_pos n), listed', other]
  | none =>
    dsimp only
    split
    · exact .inl rfl
    · obtain ⟨unused, added⟩ := Catalog.get?_new env.catalog ⟨name, ⟨none, none, flags⟩⟩
      refine .inr ⟨env.catalog.length + 1, _, rfl, ⟨⟨name, ⟨none, none, flags⟩⟩, ?_⟩,
        fun d record other listed => ?_, .inr unused⟩
      · simp [Catalog.get?_modify _ (Nat.succ_pos _), added]
      · simp [Catalog.get?_modify _ (Nat.succ_pos _), Catalog.get?_append listed, other]

theorem createDb_balanced (h : Balanced env) (serial : Serial env) {txn : Handle}
    {snapshot : Snapshot} (was : env.txns.get? txn = some (.writer snapshot))
    {name : Option String} (unknown : env.known? snapshot name = none) (flags : DbFlags) :
    Balanced (env.createDb txn snapshot name flags).store := by
  obtain same | ⟨dbi, catalog, created, ⟨record, listed⟩, others, absent⟩ :=
    createDb_cases unknown txn flags
  · rw [same]; exact h
  · rw [created]
    have fits := h.writes was
    have missing : snapshot.dbs.get? dbi = none := by
      obtain missing | unlisted := absent
      · exact missing
      · exact fits.absent unlisted
    have balanced : Balanced { env with catalog } := by
      refine h.relist (h.fits.relist_others (h.covers was missing) others) fun {k s} hk => ?_
      rw [serial.same_writer was hk, was] at hk
      cases hk
      exact fits.relist_others missing others
    have accounted : snapshot.Accounted env.config.mapSize := h.live was
    have empty : ∀ e ∈ ([] : Contents), e.Proper record.layout := nofun
    have fits' := (fits.relist_others missing others).insert listed empty snapshot.used
    refine balanced.insert rfl rfl rfl rfl (fits'.accounted ?_ accounted.room) ?_
    · exact accounted.used.trans (Table.sum_insert_of_absent Contents.size missing []).symm
    · rintro s ⟨⟩
      exact ⟨fits', fun d absent => h.covers was (Table.absent_of_insert absent)⟩

/-- An order is no matter of what a database holds. -/
theorem setOrder_balanced (h : Balanced env) (role : Role) (txn : Handle) (dbi : Dbi)
    (fn : Option CompareFn) : Balanced (env.setOrder role txn dbi fn).store := by
  unfold setOrder
  split
  · rename_i known
    simp only [Bool.and_eq_true] at known
    obtain ⟨record, listed⟩ := Option.isSome_iff_exists.mp known.2
    have pos : 0 < dbi := by
      cases dbi with
      | zero => cases listed
      | succ n => exact Nat.succ_pos n
    refine h.relist (h.fits.retune pos ?_) fun hk => (h.writes hk).retune pos ?_
    all_goals
      intro r
      cases role <;> rfl
  · exact h

theorem effect_balanced (h : Balanced env) (serial : Serial env) {call : Call}
    (effect : Effect env call env') : Balanced env' := by
  cases effect with
  | txnBegin parent flags thread =>
    obtain ⟨_, _, same⟩ | ⟨_, slot, _, _, begun⟩ | ⟨_, idle, begun⟩ :=
      txnBegin_cases env parent flags thread
    · rw [same]; exact h
    · rw [begun]
      exact h.insert rfl rfl rfl rfl h.committed nofun
    · rw [begun]
      refine h.insert rfl rfl rfl rfl
        ⟨h.committed.inhabited, h.committed.keys, h.committed.used, h.committed.room⟩ ?_
      rintro s ⟨⟩
      exact ⟨⟨h.fits.listed⟩, fun _ absent => absent⟩
  | txnCommit k =>
    cases was : env.txns.get? k with
    | none =>
      simp only [txnCommit, finish, was]
      exact h
    | some t =>
      cases t with
      | reader s slot =>
        simp only [txnCommit, finish, was]
        exact h.erase rfl rfl rfl (.inl rfl)
      | writer s =>
        simp only [txnCommit, finish, was]
        exact h.erase rfl rfl rfl
          (.inr ⟨was, fun l s' other hl => other (serial.same_writer was hl)⟩)
  | txnAbort k =>
    cases was : env.txns.get? k with
    | none =>
      simp only [txnAbort, finish, was]
      exact h
    | some t =>
      simp only [txnAbort, finish, was]
      exact h.erase rfl rfl rfl (.inl rfl)
  | dbiOpen txn name flags =>
    obtain same | ⟨snapshot, wanted, was, unknown, created⟩ := dbiOpen_cases env txn name flags
    · rw [same]; exact h
    · rw [created]; exact createDb_balanced h serial was unknown wanted
  | setOrder role txn dbi fn => exact setOrder_balanced h role txn dbi fn
  | cursorOpen txn dbi =>
    unfold cursorOpen
    split
    · exact h
    · exact ⟨h.committed, h.live, h.fits, h.writes, h.covers⟩
  | cursorClose cursor => exact ⟨h.committed, h.live, h.fits, h.writes, h.covers⟩
  | touched _ touched => exact touched_balanced h touched

theorem run_balanced {n : Nat} (h : Balanced env) (serial : Serial env) (run : Run env n env') :
    Balanced env' := by
  induction run with
  | start => exact h
  | next call run step ih =>
    exact effect_balanced ih (run_serial serial run) (step_effect step)

end

theorem reachable_balanced {env : Environment} (h : Reachable env) : Balanced env := by
  obtain ⟨id, owner, config, n, run⟩ := h
  exact run_balanced (new_balanced id owner config) (new_serial id owner config) run

/-- **Every snapshot is accounted for**, the committed one and that of every transaction, whatever
calls led here and whatever the comparison functions answered. -/
theorem snapshots_accounted {env : Environment} (h : Reachable env) :
    env.committed.Accounted env.config.mapSize ∧
      ∀ txn t, env.txns.get? txn = some t → t.snapshot.Accounted env.config.mapSize := by
  have balanced := reachable_balanced h
  exact ⟨balanced.committed, fun _ _ live => balanced.live live⟩

/-- A value replaced by an equal one that is there already leaves nothing behind, also where the
order finds values equal that it told apart before. -/
theorem snapshots_accounted_over_a_merge :
    ∃ env s, Reachable env ∧ env.txns.get? 1 = some (.writer s) ∧
      s.dbs.get? 2 = some [⟨[1], [[6]]⟩] ∧ s.used = 2 ∧ s.Accounted env.config.mapSize := by
  have start : Reachable (Environment.new 1 "" {}) := ⟨1, "", {}, 0, .start⟩
  have begun := start.next (.txnBegin none 0) ⟨_, .done _⟩
  have opened := begun.next (.dbiOpen 1 (some "values") (Flags.dupSort ||| Flags.create))
    ⟨_, .done _⟩
  have ordered := opened.next (.setOrder .values 1 2 (some .single)) ⟨_, .done _⟩
  have first := ordered.next (.put 1 2 (some (.filled [1])) (some (.filled [5])) 0) ⟨_, .done _⟩
  have second := first.next (.put 1 2 (some (.filled [1])) (some (.filled [6])) 0)
    ⟨_, .ask .lt (.done _)⟩
  have cursor := second.next (.cursorOpen 1 2) ⟨_, .done _⟩
  have moved := cursor.next (.cursorGet 2 none none CursorOp.first.code) ⟨_, .done _⟩
  have merged := moved.next
    (.cursorPut 2 (some (.filled [1])) (some (.filled [7, 7, 7])) Flags.current)
    ⟨_, .ask .eq (.done _)⟩
  exact ⟨_, _, merged, rfl, rfl, rfl, (snapshots_accounted merged).2 1 _ rfl⟩

end Environment

end CollatedStore
