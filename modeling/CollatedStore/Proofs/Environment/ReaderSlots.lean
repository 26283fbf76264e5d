import CollatedStore.Proofs.Environment.Isolation
import CollatedStore.Proofs.Listing
import CollatedStore.Proofs.Table

/-!
The readers and their table. Every live reader sits in a slot of its own, which holds the number of
the snapshot that it reads and the thread that began it, and no slot is taken otherwise; so the
table tells how many readers live and a listing names each of them once.
-/
namespace CollatedStore

def Txn.isReader : Txn → Bool
  | .reader _ _ => true
  | .writer _ => false

/-- The slot of a reader. A writer has none. -/
def Txn.slot? : Txn → Option Nat
  | .reader _ slot => some slot
  | .writer _ => none

namespace Environment

/-- `h` is a live reader of the snapshot `s`, in the slot `i`. -/
def Reads (env : Environment) (h : Handle) (s : Snapshot) (i : Nat) : Prop :=
  env.txns.get? h = some (.reader s i)

def liveReaders (env : Environment) : Nat := env.txns.values.countP Txn.isReader

/-! ## What a call does to them -/

/-- What a call does to the readers and their table. -/
inductive Turn (env : Environment) : Environment → Prop
  | stay {env' : Environment} (readers : env'.readers = env.readers)
      (reads : ∀ h s i, env'.Reads h s i ↔ env.Reads h s i) (config : env'.config = env.config) :
      Turn env env'
  | enter {env' : Environment} {thread i : Nat}
      (taken : env.readers.acquire ⟨thread, env.committed.txnId⟩ = some (i, env'.readers))
      (txns : env'.txns = env.txns.insert (env.lastHandle + 1) (.reader env.committed i))
      (config : env'.config = env.config) : Turn env env'
  | leave {env' : Environment} {h : Handle} {s : Snapshot} {i : Nat} (was : env.Reads h s i)
      (readers : env'.readers = env.readers.release i) (txns : env'.txns = env.txns.erase h)
      (config : env'.config = env.config) : Turn env env'

section
variable {env env' : Environment} {h : Handle} {s : Snapshot} {i : Nat} {reader : Reader}

/-- A writer enters, or changes its copy. -/
theorem reads_insert_writer {k : Handle} {w : Snapshot} (other : ∀ s i, ¬ env.Reads k s i)
    (txns : env'.txns = env.txns.insert k (.writer w)) (h : Handle) (s : Snapshot) (i : Nat) :
    env'.Reads h s i ↔ env.Reads h s i := by
  rw [Reads, txns, Table.get?_insert]
  split
  · rename_i own
    constructor
    · intro reads
      cases reads
    · intro reads
      exact absurd (own ▸ reads) (other s i)
  · exact Iff.rfl

/-- A writer ends. -/
theorem reads_erase_writer {k : Handle} (other : ∀ s i, ¬ env.Reads k s i)
    (txns : env'.txns = env.txns.erase k) (h : Handle) (s : Snapshot) (i : Nat) :
    env'.Reads h s i ↔ env.Reads h s i := by
  rw [Reads, txns, Table.get?_erase]
  split
  · rename_i own
    constructor
    · intro reads
      cases reads
    · intro reads
      exact absurd (own ▸ reads) (other s i)
  · exact Iff.rfl

theorem writer_not_reads {w : Snapshot} (was : env.txns.get? h = some (.writer w)) (s : Snapshot)
    (i : Nat) : ¬ env.Reads h s i := by
  rw [Reads, was]
  nofun

theorem fresh_not_reads (serial : Serial env) (s : Snapshot) (i : Nat) :
    ¬ env.Reads (env.lastHandle + 1) s i := by
  intro reads
  exact absurd (serial.handles reads) (Nat.not_succ_le_self _)

theorem Turn.same (env : Environment) : Turn env env := .stay rfl (fun _ _ _ => Iff.rfl) rfl

theorem touched_turn (touched : Touched env env') : Turn env env' := by
  have kept : env'.readers = env.readers ∧ (∀ h s i, env'.Reads h s i ↔ env.Reads h s i) ∧
      env'.config = env.config := by
    induction touched with
    | same => exact ⟨rfl, fun _ _ _ => Iff.rfl, rfl⟩
    | wrote writable _ =>
      exact ⟨rfl, reads_insert_writer (writer_not_reads (writable_was writable).1) rfl, rfl⟩
    | moved _ _ _ _ ih => exact ih
  exact .stay kept.1 kept.2.1 kept.2.2

theorem createDb_turn {txn : Handle} {snapshot : Snapshot}
    (was : env.txns.get? txn = some (.writer snapshot)) (name : Option String) (flags : DbFlags) :
    Turn env (env.createDb txn snapshot name flags).store := by
  have other := writer_not_reads was
  unfold createDb
  split
  · exact .stay rfl (reads_insert_writer other rfl) rfl
  · split
    · exact .same env
    · exact .stay rfl (reads_insert_writer other rfl) rfl

/-- The end of a transaction, whatever is committed with it. -/
theorem finish_turn {t : Txn} (finished : env.finish h = some (t, env')) (committed : Snapshot) :
    Turn env { env' with committed } := by
  obtain ⟨u, was, ends⟩ := Option.map_eq_some_iff.mp finished
  cases ends
  cases t with
  | reader s i => exact .leave was rfl rfl rfl
  | writer w => exact .stay rfl (reads_erase_writer (writer_not_reads was) rfl) rfl

theorem effect_turn (serial : Serial env) {call : Call} (effect : Effect env call env') :
    Turn env env' := by
  cases effect with
  | txnBegin parent flags thread =>
    obtain ⟨_, _, same⟩ | ⟨_, i, readers, taken, begun⟩ | ⟨_, _, begun⟩ :=
      txnBegin_cases env parent flags thread
    · rw [same]; exact .same env
    · rw [begun]; exact .enter taken rfl rfl
    · rw [begun]; exact .stay rfl (reads_insert_writer (fresh_not_reads serial) rfl) rfl
  | txnCommit k =>
    cases finished : env.finish k with
    | none => simp only [txnCommit, finished]; exact .same env
    | some result =>
      obtain ⟨t, env'⟩ := result
      cases t with
      | reader s i =>
        simp only [txnCommit, finished]
        exact finish_turn finished env'.committed
      | writer w =>
        simp only [txnCommit, finished]
        exact finish_turn finished w
  | txnAbort k =>
    cases finished : env.finish k with
    | none => simp only [txnAbort, finished]; exact .same env
    | some result =>
      obtain ⟨t, env'⟩ := result
      simp only [txnAbort, finished]
      exact finish_turn finished env'.committed
  | dbiOpen txn name flags =>
    obtain same | ⟨snapshot, wanted, was, _, created⟩ := dbiOpen_cases env txn name flags
    · rw [same]; exact .same env
    · rw [created]; exact createDb_turn was name wanted
  | setOrder role txn dbi fn =>
    unfold setOrder
    split <;> exact .stay rfl (fun _ _ _ => Iff.rfl) rfl
  | cursorOpen txn dbi =>
    unfold cursorOpen
    split <;> exact .stay rfl (fun _ _ _ => Iff.rfl) rfl
  | cursorClose cursor => exact .stay rfl (fun _ _ _ => Iff.rfl) rfl
  | touched _ touched => exact touched_turn touched

/-! ## The invariant -/

/-- The table mirrors the live readers. -/
structure Mirrored (env : Environment) : Prop where
  capacity : env.readers.capacity = env.config.maxReaders
  within : env.readers.Within
  seated : ∀ {h s i}, env.Reads h s i → ∃ thread, env.readers.at? i = some ⟨thread, s.txnId⟩
  alone : ∀ {h k s t i}, env.Reads h s i → env.Reads k t i → h = k
  held : ∀ {i reader}, env.readers.at? i = some reader → ∃ h s, env.Reads h s i

theorem new_mirrored (id : UInt64) (owner : String) (config : EnvConfig) :
    Mirrored (.new id owner config) where
  capacity := rfl
  within := Readers.new_within config.maxReaders
  seated := nofun
  alone := nofun
  held := nofun

/-- A reader enters. -/
theorem Mirrored.enter (mirrored : Mirrored env) {k : Handle} {s : Snapshot} {thread i : Nat}
    (fresh : ∀ s i, ¬ env.Reads k s i)
    (taken : env.readers.acquire ⟨thread, s.txnId⟩ = some (i, env'.readers))
    (txns : env'.txns = env.txns.insert k (.reader s i)) (config : env'.config = env.config) :
    Mirrored env' := by
  have got := Readers.acquired taken
  -- The slot was free, so that no live reader sits in it.
  have empty : ∀ h t, ¬ env.Reads h t i := by
    intro h t reads
    obtain ⟨_, holds⟩ := mirrored.seated reads
    rw [got.free] at holds
    cases holds
  have readers : ∀ {h t j}, env'.Reads h t j → h = k ∧ t = s ∧ j = i ∨ h ≠ k ∧ env.Reads h t j := by
    intro h t j reads
    rw [Reads, txns, Table.get?_insert] at reads
    split at reads
    · rename_i own
      cases reads
      exact .inl ⟨own, rfl, rfl⟩
    · rename_i other
      exact .inr ⟨other, reads⟩
  constructor
  case capacity => rw [got.capacity, config]; exact mirrored.capacity
  case within => exact Readers.acquired_within mirrored.within taken
  case seated =>
    intro h t j reads
    rw [got.after]
    obtain ⟨rfl, rfl, rfl⟩ | ⟨_, before⟩ := readers reads
    · exact ⟨thread, if_pos rfl⟩
    · have apart : j ≠ i := by
        rintro rfl
        exact empty h t before
      rw [if_neg apart]
      exact mirrored.seated before
  case alone =>
    intro h l t u j first second
    obtain ⟨rfl, rfl, rfl⟩ | ⟨_, before⟩ := readers first
    · obtain ⟨rfl, _⟩ | ⟨_, before⟩ := readers second
      · rfl
      · exact absurd before (empty l u)
    · obtain ⟨rfl, rfl, rfl⟩ | ⟨_, before'⟩ := readers second
      · exact absurd before (empty h t)
      · exact mirrored.alone before before'
  case held =>
    intro j reader holds
    rw [got.after] at holds
    split at holds
    · rename_i own
      refine ⟨k, s, ?_⟩
      rw [Reads, txns, own, Table.get?_insert_self]
    · obtain ⟨h, t, reads⟩ := mirrored.held holds
      have other : h ≠ k := by
        rintro rfl
        exact fresh t j reads
      refine ⟨h, t, ?_⟩
      rw [Reads, txns, Table.get?_insert_of_ne _ _ other]
      exact reads

/-- A reader leaves. -/
theorem Mirrored.leave (mirrored : Mirrored env) (was : env.Reads h s i)
    (readers : env'.readers = env.readers.release i) (txns : env'.txns = env.txns.erase h)
    (config : env'.config = env.config) : Mirrored env' := by
  have rest : ∀ {k t j}, env'.Reads k t j → k ≠ h ∧ env.Reads k t j := by
    intro k t j reads
    rw [Reads, txns, Table.get?_erase] at reads
    split at reads
    · cases reads
    · rename_i other
      exact ⟨other, reads⟩
  constructor
  case capacity => rw [readers, config]; exact mirrored.capacity
  case within => rw [readers]; exact Readers.release_within mirrored.within i
  case seated =>
    intro k t j reads
    obtain ⟨other, before⟩ := rest reads
    have apart : j ≠ i := by
      rintro rfl
      exact other (mirrored.alone before was)
    rw [readers, Readers.at?_release, if_neg apart]
    exact mirrored.seated before
  case alone => exact fun first second => mirrored.alone (rest first).2 (rest second).2
  case held =>
    intro j reader holds
    rw [readers, Readers.at?_release] at holds
    split at holds
    · cases holds
    · rename_i apart
      obtain ⟨k, t, reads⟩ := mirrored.held holds
      have other : k ≠ h := by
        rintro rfl
        rw [Reads, was] at reads
        cases reads
        exact apart rfl
      refine ⟨k, t, ?_⟩
      rw [Reads, txns, Table.get?_erase_of_ne _ other]
      exact reads

theorem turn_mirrored (mirrored : Mirrored env) (serial : Serial env) (turn : Turn env env') :
    Mirrored env' := by
  cases turn with
  | stay readers reads config =>
    constructor
    case capacity => rw [readers, config]; exact mirrored.capacity
    case within => rw [readers]; exact mirrored.within
    case seated =>
      intro h s i here
      rw [readers]
      exact mirrored.seated ((reads h s i).mp here)
    case alone =>
      intro h k s t i first second
      exact mirrored.alone ((reads h s i).mp first) ((reads k t i).mp second)
    case held =>
      intro i reader holds
      rw [readers] at holds
      obtain ⟨h, s, here⟩ := mirrored.held holds
      exact ⟨h, s, (reads h s i).mpr here⟩
  | enter taken txns config => exact mirrored.enter (fresh_not_reads serial) taken txns config
  | leave was readers txns config => exact mirrored.leave was readers txns config

theorem run_mirrored {n : Nat} (mirrored : Mirrored env) (serial : Serial env)
    (run : Run env n env') : Mirrored env' := by
  induction run with
  | start => exact mirrored
  | next call run step ih =>
    have before := run_serial serial run
    exact turn_mirrored ih before (effect_turn before (step_effect step))

theorem reachable_mirrored (reachable : Reachable env) : Mirrored env := by
  obtain ⟨id, owner, config, n, run⟩ := reachable
  exact run_mirrored (new_mirrored id owner config) (new_serial id owner config) run

/-! ## Counting and listing the readers -/

/-- The slots of the live readers are the slots taken. -/
theorem Mirrored.slots_perm (mirrored : Mirrored env) :
    (env.txns.pairs.filterMap fun x => x.2.slot?).Perm (env.readers.taken.map Prod.fst) := by
  have reads : ∀ {h t i}, (h, t) ∈ env.txns.pairs → t.slot? = some i → ∃ s, env.Reads h s i := by
    intro h t i there slot
    cases t with
    | reader s j =>
      cases slot
      exact ⟨s, (Table.get?_eq_some_iff _ _ _).mpr there⟩
    | writer s => cases slot
  have distinct : (env.txns.pairs.filterMap fun x => x.2.slot?).Nodup := by
    refine List.pairwise_filterMap.mpr ?_
    refine (List.pairwise_map.mp env.txns.distinct).imp_of_mem ?_
    rintro ⟨h, t⟩ ⟨k, u⟩ ht hu apart i hi j hj rfl
    obtain ⟨_, first⟩ := reads ht hi
    obtain ⟨_, second⟩ := reads hu hj
    exact apart (mirrored.alone first second)
  refine (List.perm_ext_iff_of_nodup distinct env.readers.taken_distinct).mpr fun i => ?_
  rw [Readers.mem_taken_slots, Option.ne_none_iff_exists', List.mem_filterMap]
  constructor
  · rintro ⟨⟨h, t⟩, there, slot⟩
    obtain ⟨s, here⟩ := reads there slot
    obtain ⟨thread, holds⟩ := mirrored.seated here
    exact ⟨⟨thread, s.txnId⟩, holds⟩
  · rintro ⟨reader, holds⟩
    obtain ⟨h, s, here⟩ := mirrored.held holds
    exact ⟨(h, .reader s i), (Table.get?_eq_some_iff _ _ _).mp here, rfl⟩

theorem Mirrored.liveReaders_eq (mirrored : Mirrored env) :
    env.liveReaders = env.readers.taken.length := by
  have same := mirrored.slots_perm.length_eq
  rw [List.length_map, List.length_filterMap_eq_countP] at same
  rw [← same, liveReaders, Table.values, List.countP_map]
  refine List.countP_congr fun x _ => ?_
  obtain ⟨_, t⟩ := x
  cases t <;> exact Iff.rfl

/-- Every slot is taken exactly when as many readers live as there may. -/
theorem Mirrored.full_iff (mirrored : Mirrored env) (reader : Reader) :
    env.readers.acquire reader = none ↔ env.liveReaders = env.config.maxReaders := by
  rw [mirrored.liveReaders_eq, ← mirrored.capacity, Readers.full_iff mirrored.within]
  exact Readers.acquire_eq_none_iff mirrored.within

/-- The slot of a live reader holds the number of its snapshot, beside a thread. -/
theorem Mirrored.at?_eq (mirrored : Mirrored env) (reads : env.Reads h s i) :
    env.readers.at? i = some ⟨env.readers.thread i, s.txnId⟩ := by
  obtain ⟨thread, holds⟩ := mirrored.seated reads
  rw [Readers.thread, holds]
  rfl

/-- The live readers, in the order of their slots. -/
theorem Mirrored.listed (mirrored : Mirrored env) :
    ∃ live : List (Nat × Handle × Snapshot), live.Pairwise (fun x y => x.1 < y.1) ∧
      (∀ i h s, (i, h, s) ∈ live ↔ env.Reads h s i) ∧
      env.readers.lines env.owner = live.map fun x =>
        Readers.line env.owner ⟨env.readers.thread x.1, x.2.2.txnId⟩ := by
  have reader : ∀ x : Nat × Reader, ∃ r : Handle × Snapshot, x ∈ env.readers.taken →
      env.Reads r.1 r.2 x.1 ∧ ⟨env.readers.thread x.1, r.2.txnId⟩ = x.2 := by
    rintro ⟨i, seat⟩
    by_cases there : (i, seat) ∈ env.readers.taken
    · have holds := Readers.mem_taken.mp there
      obtain ⟨h, s, reads⟩ := mirrored.held holds
      rw [mirrored.at?_eq reads] at holds
      exact ⟨(h, s), fun _ => ⟨reads, Option.some.inj holds⟩⟩
    · exact ⟨(0, env.committed), fun taken => absurd taken there⟩
  choose reader sits using reader
  refine ⟨env.readers.taken.map fun x => (x.1, reader x), ?_, ?_, ?_⟩
  · exact List.pairwise_map.mpr env.readers.taken_increasing
  · intro i h s
    rw [List.mem_map]
    constructor
    · rintro ⟨x, there, same⟩
      obtain ⟨rfl, own⟩ := Prod.mk.inj same
      have reads := (sits x there).1
      rw [own] at reads
      exact reads
    · intro reads
      have there := Readers.mem_taken.mpr (mirrored.at?_eq reads)
      refine ⟨_, there, ?_⟩
      have found := (sits _ there).1
      have own := mirrored.alone found reads
      rw [Reads, own, reads] at found
      have same := (Txn.reader.inj (Option.some.inj found)).1
      exact Prod.ext_iff.mpr ⟨rfl, Prod.ext_iff.mpr ⟨own, same.symm⟩⟩
  · rw [Readers.lines_eq, List.map_map]
    refine List.map_congr_left fun x there => ?_
    exact congrArg (Readers.line env.owner) (sits x there).2.symm

/-! ## The table mirrors the live readers -/

/-- The reader `h`, while it lives, reads `s` in the slot `i`, which holds `reader`. -/
def Seated (h : Handle) (s : Snapshot) (i : Nat) (reader : Reader) (env : Environment) : Prop :=
  h ≤ env.lastHandle ∧
    ∀ t j, env.Reads h t j → t = s ∧ j = i ∧ env.readers.at? i = some reader

theorem turn_seated (mirrored : Mirrored env) (seated : Seated h s i reader env)
    (turn : Turn env env') (last : env.lastHandle ≤ env'.lastHandle) :
    Seated h s i reader env' := by
  obtain ⟨old, keeps⟩ := seated
  refine ⟨Nat.le_trans old last, fun t j reads => ?_⟩
  cases turn with
  | stay readers same _ =>
    rw [readers]
    exact keeps t j ((same h t j).mp reads)
  | enter taken txns _ =>
    have got := Readers.acquired taken
    rw [Reads, txns, Table.get?_insert, if_neg (Nat.ne_of_lt (Nat.lt_succ_of_le old))] at reads
    obtain ⟨sees, sits, holds⟩ := keeps t j reads
    refine ⟨sees, sits, ?_⟩
    -- The slot taken was free, so it is not this one.
    rw [got.after, if_neg, holds]
    rintro rfl
    rw [got.free] at holds
    cases holds
  | leave was readers txns _ =>
    rw [Reads, txns, Table.get?_erase] at reads
    split at reads
    · cases reads
    · rename_i other
      obtain ⟨sees, sits, holds⟩ := keeps t j reads
      refine ⟨sees, sits, ?_⟩
      rw [readers, Readers.at?_release, if_neg, holds]
      rintro rfl
      exact other (mirrored.alone (sits ▸ reads) was)

theorem shift_last {published : Bool} (shift : Shift env published env') :
    env.lastHandle ≤ env'.lastHandle := by
  cases shift with
  | rest _ _ _ last => exact last
  | beginRead _ _ _ _ last | beginWrite _ _ _ _ last => exact last ▸ Nat.le_succ _
  | write _ _ _ _ _ last | finish _ _ _ _ last | commit _ _ _ _ last =>
    exact Nat.le_of_eq last.symm

theorem run_seated {n : Nat} (mirrored : Mirrored env) (seated : Seated h s i reader env)
    (serial : Serial env) (run : Run env n env') : Seated h s i reader env' := by
  induction run with
  | start => exact seated
  | next call run step ih =>
    exact turn_seated (run_mirrored mirrored serial run) ih
      (effect_turn (run_serial serial run) (step_effect step)) (shift_last (step_shift step))

/-- A reader keeps its snapshot, its slot and what the slot holds until it ends. -/
theorem run_reads {n : Nat} (mirrored : Mirrored env) (serial : Serial env)
    (reads : env.Reads h s i) (run : Run env n env') (live : env'.isLive h) :
    env'.Reads h s i ∧ env'.readers.at? i = env.readers.at? i := by
  have old := serial.handles reads
  obtain ⟨thread, holds⟩ := mirrored.seated reads
  have seated : Seated h s i ⟨thread, s.txnId⟩ env := by
    refine ⟨old, fun t j same => ?_⟩
    rw [Reads, reads] at same
    cases same
    exact ⟨rfl, rfl, holds⟩
  have pinned : Pinned h s env := by
    refine ⟨old, fun t same => ⟨i, ?_⟩⟩
    rw [reads] at same
    exact (Option.some.inj same).symm
  obtain ⟨t, found⟩ := Option.isSome_iff_exists.mp live
  obtain ⟨j, rfl⟩ := (run_pinned pinned run).2 t found
  obtain ⟨_, rfl, kept⟩ := (run_seated mirrored seated serial run).2 s j found
  exact ⟨found, kept.trans holds.symm⟩

/-- What every state of an environment promises of its reader table. -/
structure MirrorsReaders (env : Environment) : Prop where
  /-- A live reader has a slot, which holds the number of the snapshot that it reads. -/
  seated : ∀ {h s i}, env.Reads h s i →
    i < env.config.maxReaders ∧ env.readers.at? i = some ⟨env.readers.thread i, s.txnId⟩
  /-- Two live readers have two slots. -/
  alone : ∀ {h k s t i}, env.Reads h s i → env.Reads k t i → h = k
  /-- A slot that is taken has a live reader. -/
  held : ∀ {i reader}, env.readers.at? i = some reader →
    ∃ h s, env.Reads h s i ∧ s.txnId = reader.txnId
  /-- A reader keeps its snapshot, its slot and what the slot holds until it ends. -/
  keeps : ∀ {h s i n env'}, env.Reads h s i → Run env n env' → env'.isLive h →
    env'.Reads h s i ∧ env'.readers.at? i = env.readers.at? i
  /-- A new reader takes the lowest free slot for what is committed, in the name of the thread that
  begins it; the others stay. -/
  begins : ∀ {parent flags thread}, Flags.has flags Flags.readOnly = true →
    (env.txnBegin parent flags thread).ended = .success →
    ∃ i, (∀ j, j < i → env.readers.at? j ≠ none) ∧ env.readers.at? i = none ∧
      (env.txnBegin parent flags thread).store.Reads (env.txnBegin parent flags thread).out
        env.committed i ∧
      ∀ j, (env.txnBegin parent flags thread).store.readers.at? j =
        if j = i then some ⟨thread, env.committed.txnId⟩ else env.readers.at? j
  /-- A reader is refused exactly when as many live as there may, -/
  full : ∀ {flags thread}, Flags.has flags Flags.readOnly = true →
    ((env.txnBegin none flags thread).ended ≠ .success ↔ env.liveReaders = env.config.maxReaders)
  /-- with the status that says so, and nothing changes. -/
  refused : ∀ {flags thread}, Flags.has flags Flags.readOnly = true →
    (env.txnBegin none flags thread).ended ≠ .success →
    env.txnBegin none flags thread = ⟨.readersFull, 0, env⟩
  /-- The number of slots taken is the number of live readers. -/
  active : env.readers.active = env.liveReaders
  /-- A message function that never stops is called once for each live reader, in the order of their
  slots, on a line that ends with the number of its snapshot. -/
  listed : ∃ live : List (Nat × Handle × Snapshot), live.Pairwise (fun x y => x.1 < y.1) ∧
    (∀ i h s, (i, h, s) ∈ live ↔ env.Reads h s i) ∧
    (∀ x ∈ live, ∃ start, Readers.line env.owner ⟨env.readers.thread x.1, x.2.2.txnId⟩ =
      start ++ (" " ++ toString x.2.2.txnId ++ "\n")) ∧
    ∀ {σ : Type} (call : Messenger σ) (state : σ), (∀ m s, (call m s).1 = 0) →
      env.listReaders (some call) state = (.success,
        (live.map fun x => Message.mk
          (some (Utf8.encode
            (Readers.line env.owner ⟨env.readers.thread x.1, x.2.2.txnId⟩))) true).foldl
              (fun s m => (call m s).2) state)

/-- A begin without a parent is refused exactly when no slot is free. -/
theorem txnBegin_readOnly (env : Environment) {flags : UInt32} (thread : Nat)
    (readOnly : Flags.has flags Flags.readOnly = true) :
    env.readers.acquire ⟨thread, env.committed.txnId⟩ = none ∧
        env.txnBegin none flags thread = ⟨.readersFull, 0, env⟩ ∨
      env.readers.acquire ⟨thread, env.committed.txnId⟩ ≠ none ∧
        (env.txnBegin none flags thread).ended = .success := by
  cases taken : env.readers.acquire ⟨thread, env.committed.txnId⟩ with
  | none => exact .inl ⟨rfl, by simp [txnBegin, readOnly, taken]⟩
  | some result => exact .inr ⟨nofun, by simp [txnBegin, readOnly, taken]⟩

/-- **The reader table mirrors the live read transactions**, whatever calls led here: who begins
and ends in what order, under which handles, and what else is called. -/
theorem mirrors_readers (reachable : Reachable env) : MirrorsReaders env := by
  have mirrored := reachable_mirrored reachable
  constructor
  case seated =>
    intro h s i reads
    have holds := mirrored.at?_eq reads
    exact ⟨mirrored.capacity ▸ Readers.lt_capacity mirrored.within holds, holds⟩
  case alone => exact mirrored.alone
  case held =>
    intro i reader holds
    obtain ⟨h, s, reads⟩ := mirrored.held holds
    rw [mirrored.at?_eq reads] at holds
    exact ⟨h, s, reads, congrArg Reader.txnId (Option.some.inj holds)⟩
  case keeps => exact run_reads mirrored (reachable_serial reachable)
  case begins =>
    intro parent flags thread readOnly begun
    obtain ⟨_, failed, reply⟩ | ⟨_, i, readers, taken, reply⟩ | ⟨readWrite, _⟩ :=
      txnBegin_cases env parent flags thread
    · rw [reply] at begun
      exact absurd begun failed
    · have got := Readers.acquired taken
      rw [reply]
      exact ⟨i, got.lower, got.free, Table.get?_insert_self _ _ _, got.after⟩
    · rw [readOnly] at readWrite
      cases readWrite
  case full =>
    intro flags thread readOnly
    rw [← mirrored.full_iff ⟨thread, env.committed.txnId⟩]
    obtain ⟨none_free, refused⟩ | ⟨free, begun⟩ := txnBegin_readOnly env thread readOnly
    · have apart : Status.readersFull ≠ .success := by decide
      rw [refused]
      exact iff_of_true apart none_free
    · exact iff_of_false (not_not_intro begun) free
  case refused =>
    intro flags thread readOnly failed
    obtain ⟨_, refused⟩ | ⟨_, begun⟩ := txnBegin_readOnly env thread readOnly
    · exact refused
    · exact absurd begun failed
  case active => rw [mirrored.liveReaders_eq, Readers.active_eq]
  case listed =>
    obtain ⟨live, increasing, exactly_live, lines⟩ := mirrored.listed
    refine ⟨live, increasing, exactly_live, fun x _ => Readers.line_ends _ _, ?_⟩
    intro σ call state never
    rw [listReaders, lines, List.map_map]
    exact Messenger.until_of_never_stops never _ state

/-- With two slots, two readers of two threads and a writer that commits between them: a third
reader is refused until the first has ended, then it takes that slot, and is listed before the
second. -/
theorem mirrors_readers_with_two_slots :
    ∃ env reader, Reachable env ∧ (env.txnBegin none Flags.readOnly 2).ended = .readersFull ∧
      env.liveReaders = 2 ∧ Reachable (env.txnAbort reader) ∧
      ((env.txnAbort reader).txnBegin none Flags.readOnly 2).ended = .success ∧
      (((env.txnAbort reader).txnBegin none Flags.readOnly 2).store).readers.lines "7" =
        ["         7 2 1\n", "         7 1f 1\n"] := by
  have start : Reachable (Environment.new 1 "7" { maxReaders := 2 }) :=
    ⟨1, "7", { maxReaders := 2 }, 0, .start⟩
  have first := start.next (.txnBegin none Flags.readOnly) ⟨_, .done _⟩
  have writer := first.next (.txnBegin none 0) ⟨_, .done _⟩
  have committed := writer.next (.txnCommit 2) ⟨_, .done _⟩
  have second := committed.next (.txnBegin none Flags.readOnly 31) ⟨_, .done _⟩
  have ended := second.next (.txnAbort 1) ⟨_, .done _⟩
  have readOnly : Flags.has Flags.readOnly Flags.readOnly = true := rfl
  have full := @MirrorsReaders.full _ (mirrors_readers second) _ 2 readOnly
  refine ⟨_, 1, second, ?_, ?_, ended, rfl, rfl⟩
  · rfl
  · exact full.mp (by decide)

end

end Environment

end CollatedStore
