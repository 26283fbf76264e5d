import CollatedStore.Proofs.Environment.Effects

/-!
Snapshot isolation. A reader sees the committed snapshot it began with until it ends; the one writer
works on a copy of the snapshot that is committed still, so that no commit can overwrite another.
-/
namespace CollatedStore.Environment

/-- What a call does to the transactions. The mark tells whether it commits a writer. -/
inductive Shift (env : Environment) : Bool → Environment → Prop
  | rest {env' : Environment} (txns : env'.txns = env.txns)
      (committed : env'.committed = env.committed) (writer : env'.writer = env.writer)
      (last : env.lastHandle ≤ env'.lastHandle) : Shift env false env'
  | write {env' : Environment} {h : Handle} {s s' : Snapshot}
      (was : env.txns.get? h = some (.writer s)) (number : s'.txnId = s.txnId)
      (txns : env'.txns = env.txns.insert h (.writer s'))
      (committed : env'.committed = env.committed) (writer : env'.writer = env.writer)
      (last : env'.lastHandle = env.lastHandle) : Shift env false env'
  | beginRead {env' : Environment} (slot : Nat)
      (txns : env'.txns = env.txns.insert (env.lastHandle + 1) (.reader env.committed slot))
      (committed : env'.committed = env.committed) (writer : env'.writer = env.writer)
      (last : env'.lastHandle = env.lastHandle + 1) : Shift env false env'
  | beginWrite {env' : Environment} (idle : env.writer = none)
      (txns : env'.txns = env.txns.insert (env.lastHandle + 1)
        (.writer { env.committed with txnId := env.committed.txnId + 1 }))
      (committed : env'.committed = env.committed)
      (writer : env'.writer = some (env.lastHandle + 1))
      (last : env'.lastHandle = env.lastHandle + 1) : Shift env false env'
  | finish {env' : Environment} {h : Handle} {t : Txn} (was : env.txns.get? h = some t)
      (txns : env'.txns = env.txns.erase h) (committed : env'.committed = env.committed)
      (writer : env'.writer = if env.writer = some h then none else env.writer)
      (last : env'.lastHandle = env.lastHandle) : Shift env false env'
  | commit {env' : Environment} {h : Handle} {s : Snapshot}
      (was : env.txns.get? h = some (.writer s)) (txns : env'.txns = env.txns.erase h)
      (committed : env'.committed = s)
      (writer : env'.writer = if env.writer = some h then none else env.writer)
      (last : env'.lastHandle = env.lastHandle) : Shift env true env'

theorem touched_shift {env env' : Environment} (h : Touched env env') : Shift env false env' := by
  induction h with
  | same => exact .rest rfl rfl rfl (Nat.le_refl _)
  | wrote h _ =>
    refine .write (writable_was h).1 ?_ rfl rfl rfl rfl
    rfl
  | moved _ _ _ _ ih =>
    cases ih with
    | rest txns committed writer last => exact .rest txns committed writer last
    | write was number txns committed writer last =>
      exact .write was number txns committed writer last
    | beginRead slot txns committed writer last =>
      exact .beginRead slot txns committed writer last
    | beginWrite idle txns committed writer last =>
      exact .beginWrite idle txns committed writer last
    | finish was txns committed writer last => exact .finish was txns committed writer last

theorem createDb_shift {env : Environment} {txn : Handle} {snapshot : Snapshot}
    (was : env.txns.get? txn = some (.writer snapshot)) (name : Option String) (flags : DbFlags) :
    Shift env false (env.createDb txn snapshot name flags).store := by
  unfold createDb
  split
  · refine .write was ?_ rfl rfl rfl rfl
    rfl
  · split
    · exact .rest rfl rfl rfl (Nat.le_refl _)
    · refine .write was ?_ rfl rfl rfl rfl
      rfl

theorem effect_shift {env env' : Environment} {call : Call} (h : Effect env call env') :
    Shift env (env.publishes call) env' := by
  cases h with
  | txnBegin parent flags thread =>
    obtain ⟨_, _, same⟩ | ⟨_, slot, _, _, begun⟩ | ⟨_, idle, begun⟩ :=
      txnBegin_cases env parent flags thread
    · rw [same]; exact .rest rfl rfl rfl (Nat.le_refl _)
    · rw [begun]; exact .beginRead slot rfl rfl rfl rfl
    · rw [begun]; exact .beginWrite idle rfl rfl rfl rfl
  | txnCommit h =>
    cases was : env.txns.get? h with
    | none =>
      simp only [publishes, txnCommit, finish, was]
      exact .rest rfl rfl rfl (Nat.le_refl _)
    | some t =>
      cases t with
      | reader s slot =>
        simp only [publishes, txnCommit, finish, was]
        exact .finish was rfl rfl rfl rfl
      | writer s =>
        simp only [publishes, txnCommit, finish, was]
        exact .commit was rfl rfl rfl rfl
  | txnAbort h =>
    change Shift env false _
    cases was : env.txns.get? h with
    | none =>
      simp only [txnAbort, finish, was]
      exact .rest rfl rfl rfl (Nat.le_refl _)
    | some t =>
      simp only [txnAbort, finish, was]
      exact .finish was rfl rfl rfl rfl
  | dbiOpen txn name flags =>
    change Shift env false _
    obtain same | ⟨snapshot, wanted, was, _, created⟩ := dbiOpen_cases env txn name flags
    · rw [same]; exact .rest rfl rfl rfl (Nat.le_refl _)
    · rw [created]; exact createDb_shift was name wanted
  | setOrder role txn dbi fn =>
    change Shift env false _
    unfold setOrder
    split <;> exact .rest rfl rfl rfl (Nat.le_refl _)
  | cursorOpen txn dbi =>
    change Shift env false _
    unfold cursorOpen
    split
    · exact .rest rfl rfl rfl (Nat.le_refl _)
    · exact .rest rfl rfl rfl (Nat.le_succ _)
  | cursorClose cursor => exact .rest rfl rfl rfl (Nat.le_refl _)
  | touched unpublished h => rw [unpublished]; exact touched_shift h

/-- At most one writer, marked as such, whose copy is one ahead of the committed snapshot. -/
structure Serial (env : Environment) : Prop where
  handles : ∀ {h t}, env.txns.get? h = some t → h ≤ env.lastHandle
  writer : ∀ {h s}, env.txns.get? h = some (.writer s) → env.writer = some h
  number : ∀ {h s}, env.txns.get? h = some (.writer s) → s.txnId = env.committed.txnId + 1

theorem new_serial (id : UInt64) (owner : String) (config : EnvConfig) :
    Serial (.new id owner config) := by
  constructor <;> simp [new]

/-- Two writers are the same one. -/
theorem Serial.same_writer {env : Environment} (h : Serial env) {k l : Handle} {s t : Snapshot}
    (hk : env.txns.get? k = some (.writer s)) (hl : env.txns.get? l = some (.writer t)) : l = k := by
  have mark := h.writer hl
  rw [h.writer hk] at mark
  exact (Option.some.inj mark).symm

/-- A transaction enters, or the writer changes its copy. -/
theorem Serial.insert {env env' : Environment} (h : Serial env) {k : Handle} {t : Txn}
    (txns : env'.txns = env.txns.insert k t) (entered : k ≤ env'.lastHandle)
    (last : env.lastHandle ≤ env'.lastHandle)
    (own : ∀ s, t = .writer s → env'.writer = some k ∧ s.txnId = env'.committed.txnId + 1)
    (others : ∀ l s, l ≠ k → env.txns.get? l = some (.writer s) →
      env'.writer = some l ∧ s.txnId = env'.committed.txnId + 1) : Serial env' := by
  have lookup : ∀ l, env'.txns.get? l = if l = k then some t else env.txns.get? l := by
    intro l
    rw [txns, Table.get?_insert]
  have writers : ∀ {l s}, env'.txns.get? l = some (.writer s) →
      env'.writer = some l ∧ s.txnId = env'.committed.txnId + 1 := by
    intro l s hl
    rw [lookup] at hl
    split at hl
    · rename_i e
      cases hl
      rw [e]
      exact own s rfl
    · rename_i other
      exact others l s other hl
  constructor
  case handles =>
    intro l u hl
    rw [lookup] at hl
    split at hl
    · rename_i e; rw [e]; exact entered
    · exact Nat.le_trans (h.handles hl) last
  case writer => exact fun hl => (writers hl).1
  case number => exact fun hl => (writers hl).2

/-- A transaction ends. -/
theorem Serial.erase {env env' : Environment} (h : Serial env) {k : Handle}
    (txns : env'.txns = env.txns.erase k) (last : env'.lastHandle = env.lastHandle)
    (others : ∀ l s, l ≠ k → env.txns.get? l = some (.writer s) →
      env'.writer = some l ∧ s.txnId = env'.committed.txnId + 1) : Serial env' := by
  have stays : ∀ {l t}, env'.txns.get? l = some t → l ≠ k ∧ env.txns.get? l = some t := by
    intro l t hl
    rw [txns, Table.get?_erase] at hl
    split at hl
    · cases hl
    · rename_i other
      exact ⟨other, hl⟩
  constructor
  case handles => exact fun hl => last ▸ h.handles (stays hl).2
  case writer => exact fun hl => (others _ _ (stays hl).1 (stays hl).2).1
  case number => exact fun hl => (others _ _ (stays hl).1 (stays hl).2).2

theorem shift_serial {env env' : Environment} {published : Bool} (h : Serial env)
    (shift : Shift env published env') : Serial env' := by
  cases shift with
  | rest txns committed writer last =>
    constructor
    · intro k t hk; rw [txns] at hk; exact Nat.le_trans (h.handles hk) last
    · intro k s hk; rw [txns] at hk; rw [writer]; exact h.writer hk
    · intro k s hk; rw [txns] at hk; rw [committed]; exact h.number hk
  | write was number txns committed writer last =>
    refine h.insert txns (last ▸ h.handles was) (Nat.le_of_eq last.symm) ?_ ?_
    · rintro s ⟨⟩
      rw [writer, committed]
      exact ⟨h.writer was, number.trans (h.number was)⟩
    · intro l s _ hl
      rw [writer, committed]
      exact ⟨h.writer hl, h.number hl⟩
  | beginRead slot txns committed writer last =>
    refine h.insert txns (Nat.le_of_eq last.symm) (last ▸ Nat.le_succ _) nofun ?_
    intro l s _ hl
    rw [writer, committed]
    exact ⟨h.writer hl, h.number hl⟩
  | beginWrite idle txns committed writer last =>
    refine h.insert txns (Nat.le_of_eq last.symm) (last ▸ Nat.le_succ _) ?_ ?_
    · rintro s ⟨⟩
      exact ⟨writer, by rw [committed]⟩
    · intro l s _ hl
      have mark := h.writer hl
      rw [idle] at mark
      cases mark
  | finish was txns committed writer last =>
    refine h.erase txns last fun l s other hl => ?_
    have mark := h.writer hl
    rw [writer, committed, mark, if_neg (by simpa using other)]
    exact ⟨rfl, h.number hl⟩
  | commit was txns committed writer last =>
    -- The committed writer was the only one.
    exact h.erase txns last fun l s other hl => absurd (h.same_writer was hl) other

theorem step_shift {env env' : Environment} {call : Call} (h : Step call env env') :
    Shift env (env.publishes call) env' :=
  effect_shift (step_effect h)

theorem run_serial {env env' : Environment} {n : Nat} (h : Serial env) (run : Run env n env') :
    Serial env' := by
  induction run with
  | start => exact h
  | next call _ step ih => exact shift_serial ih (step_shift step)

theorem reachable_serial {env : Environment} (h : Reachable env) : Serial env := by
  obtain ⟨id, owner, config, n, run⟩ := h
  exact run_serial (new_serial id owner config) run

/-! ## What a live transaction keeps -/

/-- The reader `h`, while it lives, reads `base`. -/
def Pinned (h : Handle) (base : Snapshot) (env : Environment) : Prop :=
  h ≤ env.lastHandle ∧ ∀ t, env.txns.get? h = some t → ∃ slot, t = .reader base slot

/-- The writer `h`, while it lives, works on a copy of the committed snapshot, which is `base`. -/
def Ahead (h : Handle) (base : Snapshot) (env : Environment) : Prop :=
  h ≤ env.lastHandle ∧ ∀ t, env.txns.get? h = some t →
    (∃ s, t = .writer s) ∧ env.committed = base

theorem shift_pinned {env env' : Environment} {published : Bool} {h : Handle} {base : Snapshot}
    (pinned : Pinned h base env) (shift : Shift env published env') : Pinned h base env' := by
  obtain ⟨old, keeps⟩ := pinned
  cases shift with
  | rest txns _ _ last => exact ⟨Nat.le_trans old last, fun t ht => keeps t (txns ▸ ht)⟩
  | write was _ txns _ _ last =>
    refine ⟨last ▸ old, fun t ht => ?_⟩
    rw [txns, Table.get?_insert] at ht
    split at ht
    · rename_i e
      obtain ⟨slot, reads⟩ := keeps _ (e ▸ was)
      cases reads
    · exact keeps t ht
  | beginRead _ txns _ _ last | beginWrite _ txns _ _ last =>
    refine ⟨last ▸ Nat.le_succ_of_le old, fun t ht => ?_⟩
    rw [txns, Table.get?_insert, if_neg (Nat.ne_of_lt (Nat.lt_succ_of_le old))] at ht
    exact keeps t ht
  | finish _ txns _ _ last | commit _ txns _ _ last =>
    refine ⟨last ▸ old, fun t ht => ?_⟩
    rw [txns, Table.get?_erase] at ht
    split at ht
    · cases ht
    · exact keeps t ht

theorem shift_ahead {env env' : Environment} {published : Bool} {h : Handle} {base : Snapshot}
    (serial : Serial env) (ahead : Ahead h base env) (shift : Shift env published env') :
    Ahead h base env' := by
  obtain ⟨old, keeps⟩ := ahead
  cases shift with
  | rest txns committed _ last =>
    exact ⟨Nat.le_trans old last, fun t ht => committed ▸ keeps t (txns ▸ ht)⟩
  | write was _ txns committed _ last =>
    refine ⟨last ▸ old, fun t ht => ?_⟩
    rw [txns, Table.get?_insert] at ht
    split at ht
    · rename_i e
      cases ht
      exact ⟨⟨_, rfl⟩, committed.trans (keeps _ (e ▸ was)).2⟩
    · exact committed ▸ keeps t ht
  | beginRead _ txns committed _ last | beginWrite _ txns committed _ last =>
    refine ⟨last ▸ Nat.le_succ_of_le old, fun t ht => ?_⟩
    rw [txns, Table.get?_insert, if_neg (Nat.ne_of_lt (Nat.lt_succ_of_le old))] at ht
    exact committed ▸ keeps t ht
  | finish _ txns committed _ last =>
    refine ⟨last ▸ old, fun t ht => ?_⟩
    rw [txns, Table.get?_erase] at ht
    split at ht
    · cases ht
    · exact committed ▸ keeps t ht
  | @commit _ k _ was txns _ _ last =>
    refine ⟨last ▸ old, fun t ht => ?_⟩
    rw [txns, Table.get?_erase] at ht
    split at ht
    · cases ht
    · -- Another writer cannot commit while `h` lives.
      rename_i other
      obtain ⟨⟨s, rfl⟩, _⟩ := keeps t ht
      exact absurd (serial.same_writer was ht) other

theorem run_pinned {env env' : Environment} {n : Nat} {h : Handle} {base : Snapshot}
    (pinned : Pinned h base env) (run : Run env n env') : Pinned h base env' := by
  induction run with
  | start => exact pinned
  | next call _ step ih => exact shift_pinned ih (step_shift step)

theorem run_ahead {env env' : Environment} {n : Nat} {h : Handle} {base : Snapshot}
    (serial : Serial env) (ahead : Ahead h base env) (run : Run env n env') :
    Ahead h base env' := by
  induction run with
  | start => exact ahead
  | next call run step ih => exact shift_ahead (run_serial serial run) ih (step_shift step)

/-- Only write commits publish, and each counts one further. -/
theorem shift_committed {env env' : Environment} {published : Bool} (serial : Serial env)
    (shift : Shift env published env') :
    (published = false → env'.committed = env.committed) ∧
      env'.committed.txnId = env.committed.txnId + if published then 1 else 0 := by
  cases shift with
  | commit was _ committed _ _ =>
    refine ⟨nofun, ?_⟩
    rw [committed, serial.number was]
    rfl
  | rest _ committed | write _ _ _ committed | beginRead _ _ committed
  | beginWrite _ _ committed | finish _ _ committed =>
    exact ⟨fun _ => committed, by rw [committed]; rfl⟩

theorem run_committed {env env' : Environment} {n : Nat} (serial : Serial env)
    (run : Run env n env') :
    env'.committed.txnId = env.committed.txnId + n ∧ (n = 0 → env'.committed = env.committed) := by
  induction run with
  | start => exact ⟨rfl, fun _ => rfl⟩
  | @next n e e' call run step ih =>
    obtain ⟨same, grows⟩ := shift_committed (run_serial serial run) (step_shift step)
    refine ⟨by omega, fun none => ?_⟩
    have unpublished : e.publishes call = false := by
      cases hp : e.publishes call with
      | false => rfl
      | true => simp [hp] at none
    exact (same unpublished).trans (ih.2 (by omega))

/-! ## Snapshot isolation -/

/-- The entries that a transaction sees in a database. -/
def view (env : Environment) (txn : Handle) (dbi : Dbi) : Option Contents :=
  (env.txns.get? txn).bind fun t => t.snapshot.dbs.get? dbi

def isLive (env : Environment) (txn : Handle) : Prop := (env.txns.get? txn).isSome = true

/-- What every state of an environment promises of the calls and runs that begin in it. -/
structure SnapshotIsolation (env : Environment) : Prop where
  /-- A reader sees, as long as it lives, what was committed when it began. -/
  reads : ∀ {parent flags thread n env'}, Flags.has flags Flags.readOnly = true →
    (env.txnBegin parent flags thread).ended = .success →
    Run (env.txnBegin parent flags thread).store n env' →
    env'.isLive (env.txnBegin parent flags thread).out →
    ∀ dbi, env'.view (env.txnBegin parent flags thread).out dbi = env.committed.dbs.get? dbi
  /-- Committing a writer makes its own view the committed one. -/
  commits : ∀ {h s}, env.txns.get? h = some (.writer s) →
    (env.txnCommit h).ended = .success ∧
      (∀ dbi, (env.txnCommit h).store.committed.dbs.get? dbi = env.view h dbi) ∧
      (env.txnCommit h).store.committed.txnId = env.committed.txnId + 1
  /-- Ending a reader, or aborting anything, changes nothing that is committed. -/
  ends : ∀ {h s slot}, env.txns.get? h = some (.reader s slot) →
    (env.txnCommit h).store.committed = env.committed
  aborts : ∀ h, (env.txnAbort h).committed = env.committed
  /-- There is one writer at most, one ahead of what is committed. -/
  alone : ∀ {h k s t}, env.txns.get? h = some (.writer s) → env.txns.get? k = some (.writer t) →
    h = k
  ahead : ∀ {h s}, env.txns.get? h = some (.writer s) → s.txnId = env.committed.txnId + 1
  /-- A writer begins with what is committed, and as long as it lives that stays committed. -/
  writes : ∀ {parent flags thread}, Flags.has flags Flags.readOnly = false →
    (env.txnBegin parent flags thread).ended = .success →
    (∀ dbi, (env.txnBegin parent flags thread).store.view
        (env.txnBegin parent flags thread).out dbi =
      env.committed.dbs.get? dbi) ∧
    ∀ {n env'}, Run (env.txnBegin parent flags thread).store n env' →
      env'.isLive (env.txnBegin parent flags thread).out → env'.committed = env.committed
  /-- The number of the committed snapshot counts the write commits, and nothing else publishes. -/
  counts : ∀ {n env'}, Run env n env' → env'.committed.txnId = env.committed.txnId + n ∧
    (n = 0 → env'.committed = env.committed)

theorem txnBegin_reader {env : Environment} {parent : Option Handle} {flags : UInt32}
    {thread : Nat} (readOnly : Flags.has flags Flags.readOnly = true)
    (begun : (env.txnBegin parent flags thread).ended = .success) :
    Pinned (env.txnBegin parent flags thread).out env.committed
      (env.txnBegin parent flags thread).store := by
  obtain ⟨s, refused, reply⟩ | ⟨_, slot, _, _, reply⟩ | ⟨readWrite, _⟩ :=
    txnBegin_cases env parent flags thread
  · rw [reply] at begun
    exact absurd begun refused
  · rw [reply]
    refine ⟨Nat.le_refl _, fun t ht => ⟨slot, ?_⟩⟩
    simp only [enter, Table.get?_insert_self, Option.some.injEq] at ht
    exact ht.symm
  · simp [readOnly] at readWrite

theorem txnBegin_writer {env : Environment} {parent : Option Handle} {flags : UInt32}
    {thread : Nat} (readWrite : Flags.has flags Flags.readOnly = false)
    (begun : (env.txnBegin parent flags thread).ended = .success) :
    Ahead (env.txnBegin parent flags thread).out env.committed
        (env.txnBegin parent flags thread).store ∧
      ∀ dbi, (env.txnBegin parent flags thread).store.view
          (env.txnBegin parent flags thread).out dbi =
        env.committed.dbs.get? dbi := by
  obtain ⟨s, refused, reply⟩ | ⟨readOnly, _⟩ | ⟨_, _, reply⟩ :=
    txnBegin_cases env parent flags thread
  · rw [reply] at begun
    exact absurd begun refused
  · simp [readWrite] at readOnly
  · rw [reply]
    refine ⟨⟨Nat.le_refl _, fun t ht => ⟨?_, rfl⟩⟩, fun dbi => ?_⟩
    · simp only [enter, Table.get?_insert_self, Option.some.injEq] at ht
      exact ⟨_, ht.symm⟩
    · simp [view, enter, Txn.snapshot]

/-- **Snapshot isolation and no lost update.** Whatever calls led here, made by whatever
transactions in whatever order, the promises of `SnapshotIsolation` hold. -/
theorem snapshot_isolation {env : Environment} (h : Reachable env) : SnapshotIsolation env := by
  have serial := reachable_serial h
  constructor
  case reads =>
    intro parent flags thread n env' readOnly begun run live dbi
    obtain ⟨t, ht⟩ := Option.isSome_iff_exists.mp live
    obtain ⟨slot, rfl⟩ := (run_pinned (txnBegin_reader readOnly begun) run).2 t ht
    simp [view, ht, Txn.snapshot]
  case commits =>
    intro k s was
    simp only [txnCommit, finish, was, Option.map_some, view, Option.bind_some, Txn.snapshot]
    exact ⟨trivial, fun _ => trivial, serial.number was⟩
  case ends =>
    intro k s slot was
    simp [txnCommit, finish, was]
  case aborts =>
    intro k
    unfold txnAbort finish
    cases env.txns.get? k <;> rfl
  case alone =>
    intro k l s t hk hl
    have mark := serial.writer hk
    rw [serial.writer hl] at mark
    cases mark
    rfl
  case ahead => exact serial.number
  case writes =>
    intro parent flags thread readWrite begun
    obtain ⟨ahead, starts⟩ := txnBegin_writer readWrite begun
    refine ⟨starts, fun run live => ?_⟩
    obtain ⟨t, ht⟩ := Option.isSome_iff_exists.mp live
    have serial' : Serial (env.txnBegin parent flags thread).store :=
      shift_serial serial (effect_shift (.txnBegin parent flags thread))
    exact ((run_ahead serial' ahead run).2 t ht).2
  case counts => exact fun run => run_committed serial run

/-- A reader keeps its empty database while a writer stores a pair and commits. -/
theorem snapshot_isolation_over_a_commit :
    ∃ env, Run ((Environment.new 1 "" {}).txnBegin none Flags.readOnly).store 1 env ∧
      env.isLive 1 ∧ env.committed.dbs.get? rootDbi = some [⟨[1], [[2]]⟩] ∧
      env.view 1 rootDbi = some [] ∧ env.committed.txnId = 1 := by
  have start : Reachable (Environment.new 1 "" {}) := ⟨1, "", {}, 0, .start⟩
  let reading := ((Environment.new 1 "" {}).txnBegin none Flags.readOnly).store
  have begun : Reachable reading := start.next (.txnBegin none Flags.readOnly) ⟨_, .done _⟩
  have opened := (Run.start : Run reading 0 reading).next (.txnBegin none 0) ⟨_, .done _⟩
  have stored := opened.next
    (.put 2 rootDbi (some (.filled [1])) (some (.filled [2])) 0) ⟨_, .done _⟩
  have run := stored.next (.txnCommit 2) ⟨_, .done _⟩
  refine ⟨_, run, rfl, rfl, ?_, ?_⟩
  · exact (snapshot_isolation start).reads rfl rfl run rfl rootDbi
  · exact ((snapshot_isolation begun).counts run).1

end CollatedStore.Environment
