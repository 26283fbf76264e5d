import CollatedStore.Proofs.Environment.Handles

/-!
Slots for named databases. A name takes a slot from its first creation on, and keeps it for good,
also where that creation was aborted. A writer may so be told that there are no slots left while it
has fewer databases than there may be; all that it misses are names whose creation was aborted.
-/
namespace CollatedStore

namespace Environment

/-- Every name that was ever given to a database. The root has none. -/
def givenNames (env : Environment) : List String := env.catalog.names.filterMap fun name => name

/-- The names of the databases that the snapshot has. -/
def namesIn (env : Environment) (s : Snapshot) : List String :=
  env.givenNames.filter fun name => (env.known? s (some name)).isSome

/-- The names that were given to databases which the snapshot does not have. -/
def namesMissing (env : Environment) (s : Snapshot) : List String :=
  env.givenNames.filter fun name => !(env.known? s (some name)).isSome

/-- On the way from `start`, a writer was aborted that had a database of this name, which was not
committed. -/
inductive CreationAborted (start : Environment) (name : Option String) (env : Environment) : Prop
  | intro {n m : Nat} {e : Environment} {txn : Handle} {s : Snapshot} (before : Run start n e)
      (was : e.txns.get? txn = some (.writer s)) (created : (e.known? s name).isSome = true)
      (uncommitted : e.known? e.committed name = none) (after : Run (e.txnAbort txn) m env) :
      CreationAborted start name env

/-- What has become of the database that was given a name. -/
inductive Whereabouts (start : Environment) (name : Option String) (env : Environment) : Prop
  | committed (known : (env.known? env.committed name).isSome = true)
  | written {txn : Handle} {s : Snapshot} (was : env.txns.get? txn = some (.writer s))
      (known : (env.known? s name).isSome = true)
  | aborted (aborted : CreationAborted start name env)

/-- The writer is still there, with all databases of the snapshot `s`. -/
def WritesOn (env : Environment) (txn : Handle) (s : Snapshot) : Prop :=
  ∃ s', env.txns.get? txn = some (.writer s') ∧
    ∀ {dbi}, s'.dbs.get? dbi = none → s.dbs.get? dbi = none

section
variable {start env env' : Environment} {txn : Handle} {s s' : Snapshot} {name : Option String}
  {call : Call} {n : Nat}

theorem known?_isSome_iff : (env.known? s name).isSome = true ↔
    ∃ dbi entries, env.catalog.find? name = some dbi ∧ s.dbs.get? dbi = some entries := by
  cases named : env.catalog.find? name with
  | none => simp [known?, named]
  | some dbi =>
    obtain ⟨_, record, _, listed⟩ := Catalog.find?_listed named
    cases there : s.dbs.get? dbi with
    | none => simp [known?, named, Table.contains, there]
    | some entries => simp [known?, named, Table.contains, there, listed]

theorem mem_givenNames {name : String} :
    name ∈ env.givenNames ↔ some name ∈ env.catalog.names := by
  simp [givenNames]

/-- A name that keeps its number is known where its database is. -/
theorem known?_mono (named : ∀ {dbi}, env.catalog.find? name = some dbi →
      env'.catalog.find? name = some dbi)
    (has : ∀ {dbi}, s'.dbs.get? dbi = none → s.dbs.get? dbi = none)
    (known : (env.known? s name).isSome = true) : (env'.known? s' name).isSome = true := by
  obtain ⟨dbi, entries, found, there⟩ := known?_isSome_iff.mp known
  cases now : s'.dbs.get? dbi with
  | none =>
    rw [has now] at there
    cases there
  | some entries' => exact known?_isSome_iff.mpr ⟨dbi, entries', named found, now⟩

/-! ## Where the databases are -/

theorem WritesOn.of_same (was : env.txns.get? txn = some (.writer s)) : env.WritesOn txn s :=
  ⟨s, was, fun missing => missing⟩

theorem Abides.writer (abides : Abides env env') (was : env.txns.get? txn = some (.writer s)) :
    env'.WritesOn txn s := by
  have stays := abides.txns txn
  rw [was] at stays
  cases now : env'.txns.get? txn with
  | none =>
    rw [now] at stays
    cases stays
  | some t =>
    rw [now] at stays
    cases stays with
    | some continues =>
      cases continues with
      | same => exact .of_same now
      | writes keeps => exact ⟨_, now, keeps⟩

/-- A writer goes on with all it has, or is committed, or aborted. -/
theorem effect_writer (serial : Serial env) (effect : Effect env call env')
    (was : env.txns.get? txn = some (.writer s)) :
    env'.WritesOn txn s ∨ env'.committed = s ∨ env' = env.txnAbort txn := by
  have goesOn (live : env'.txns.get? txn = some (.writer s)) :
      env'.WritesOn txn s ∨ env'.committed = s ∨ env' = env.txnAbort txn := .inl (.of_same live)
  have old : txn ≠ env.lastHandle + 1 := Nat.ne_of_lt (Nat.lt_succ_of_le (serial.handles was))
  cases effect with
  | txnBegin parent flags thread =>
    apply goesOn
    obtain ⟨_, _, same⟩ | ⟨_, _, _, _, begun⟩ | ⟨_, _, begun⟩ :=
      txnBegin_cases env parent flags thread
    · rw [same]
      exact was
    · rw [begun]
      exact (Table.get?_insert_of_ne env.txns _ old).trans was
    · rw [begun]
      exact (Table.get?_insert_of_ne env.txns _ old).trans was
  | txnCommit h =>
    by_cases own : h = txn
    · subst own
      simp [txnCommit, finish, was]
    · apply goesOn
      cases other : env.txns.get? h with
      | none => simp [txnCommit, finish, other, was]
      | some t => cases t <;> simp [txnCommit, finish, other, Ne.symm own, was]
  | txnAbort h =>
    by_cases own : h = txn
    · subst own
      exact .inr (.inr rfl)
    · apply goesOn
      cases other : env.txns.get? h with
      | none => simp [txnAbort, finish, other, was]
      | some t => simp [txnAbort, finish, other, Ne.symm own, was]
  | dbiOpen h name flags =>
    obtain same | ⟨snapshot, wanted, writes, unknown, opened⟩ := dbiOpen_cases env h name flags
    · apply goesOn
      rw [same]
      exact was
    · rw [opened]
      exact .inl ((createDb_abides writes unknown wanted).writer was)
  | setOrder role h dbi fn =>
    apply goesOn
    unfold setOrder
    split <;> exact was
  | cursorOpen h dbi =>
    apply goesOn
    unfold cursorOpen
    split <;> exact was
  | cursorClose cursor => exact goesOn was
  | touched _ touched => exact .inl ((touched_abides touched).writer was)

/-- What is committed stays so. -/
theorem step_committed (balanced : Balanced env) (step : Step call env env') {dbi : Dbi}
    (missing : env'.committed.dbs.get? dbi = none) : env.committed.dbs.get? dbi = none := by
  obtain same | ⟨h, was⟩ := (step_shift step).committed
  · rwa [same] at missing
  · exact balanced.covers was missing

theorem CreationAborted.next (aborted : CreationAborted start name env)
    (step : Step call env env') : CreationAborted start name env' := by
  cases aborted with
  | intro before was created uncommitted after =>
    exact .intro before was created uncommitted (after.next call step)

/-- The database is where it was, or its writer ends: it is committed then, or its creation was
aborted. -/
theorem Whereabouts.step (reached : Reachable env) (run : Run start n env)
    (step : Step call env env') (whereabouts : Whereabouts start name env) :
    Whereabouts start name env' := by
  have balanced := reachable_balanced reached
  have named : ∀ {dbi}, env.catalog.find? name = some dbi → env'.catalog.find? name = some dbi :=
    fun found => run_find? reached (Run.start.next call step) found
  cases whereabouts with
  | committed known => exact .committed (known?_mono named (step_committed balanced step) known)
  | aborted aborted => exact .aborted (aborted.next step)
  | @written txn s was known =>
    obtain ⟨s', live, keeps⟩ | rfl | rfl :=
      effect_writer (reachable_serial reached) (step_effect step) was
    · exact .written live (known?_mono named keeps known)
    · exact .committed (known?_mono named (fun missing => missing) known)
    · cases before : env.known? env.committed name with
      | none =>
        exact .aborted (.intro run was known before .start)
      | some found =>
        have kept : (env.known? env.committed name).isSome = true := by rw [before]; rfl
        exact .committed (known?_mono named (step_committed balanced step) kept)

/-- Only the call that opens a database can list a new name. -/
theorem effect_names (effect : Effect env call env')
    (other : ∀ txn name flags, call ≠ .dbiOpen txn name flags) :
    env'.catalog.names = env.catalog.names := by
  cases effect with
  | txnBegin parent flags thread =>
    obtain ⟨_, _, same⟩ | ⟨_, _, _, _, begun⟩ | ⟨_, _, begun⟩ :=
      txnBegin_cases env parent flags thread
    · rw [same]
    · rw [begun]; rfl
    · rw [begun]; rfl
  | txnCommit txn =>
    unfold txnCommit finish
    cases env.txns.get? txn with
    | none => rfl
    | some t => cases t <;> rfl
  | txnAbort txn =>
    unfold txnAbort finish
    cases env.txns.get? txn <;> rfl
  | dbiOpen txn name flags => exact absurd rfl (other txn name flags)
  | setOrder role txn dbi fn =>
    unfold setOrder
    split
    · exact Catalog.names_modify _ _ fun _ => rfl
    · rfl
  | cursorOpen txn dbi =>
    unfold cursorOpen
    split <;> rfl
  | cursorClose cursor => rfl
  | touched _ touched => rw [touched_catalog touched]

/-- A name that is new is given to a database that is in the writer's snapshot then. -/
theorem createDb_gives {snapshot : Snapshot} {flags : DbFlags}
    (new : name ∉ env.catalog.names)
    (given : name ∈ (env.createDb txn snapshot name flags).store.catalog.names) :
    ∃ s, (env.createDb txn snapshot name flags).store.txns.get? txn = some (.writer s) ∧
      ((env.createDb txn snapshot name flags).store.known? s name).isSome = true := by
  have unlisted := Catalog.find?_eq_none_iff.mpr new
  obtain ⟨names, -⟩ := createDb_names env txn snapshot name flags
  generalize made : env.createDb txn snapshot name flags = reply at names given ⊢
  obtain same | ⟨_, grown⟩ := names
  · rw [same] at given
    exact absurd given new
  · have found := Catalog.find?_new new grown
    unfold createDb at made
    rw [unlisted] at made
    dsimp only at made
    split at made
    · subst made
      exact absurd given new
    · subst made
      exact ⟨_, Table.get?_insert_self _ _ _,
        known?_isSome_iff.mpr ⟨_, [], found, Table.get?_insert_self _ _ _⟩⟩

theorem step_gives (step : Step call env env') (new : name ∉ env.catalog.names)
    (given : name ∈ env'.catalog.names) :
    ∃ txn s, env'.txns.get? txn = some (.writer s) ∧ (env'.known? s name).isSome = true := by
  have effect := step_effect step
  by_cases opens : ∃ txn other flags, call = .dbiOpen txn other flags
  · obtain ⟨txn, other, flags, rfl⟩ := opens
    cases effect with
    | dbiOpen =>
      obtain same | ⟨snapshot, wanted, _, _, opened⟩ := dbiOpen_cases env txn other flags
      · rw [same] at given
        exact absurd given new
      · rw [opened] at given ⊢
        obtain same | ⟨_, grown⟩ := (createDb_names env txn snapshot other wanted).1
        · rw [same] at given
          exact absurd given new
        · have own : name = other := by
            rw [grown, List.mem_append, List.mem_singleton] at given
            exact given.resolve_left new
          subst own
          exact ⟨txn, createDb_gives new given⟩
    | touched _ touched =>
      rw [touched_catalog touched] at given
      exact absurd given new
  · rw [effect_names effect fun txn other flags same => opens ⟨txn, other, flags, same⟩] at given
    exact absurd given new

/-- Whatever was called, no name is given to nothing. -/
theorem run_whereabouts (reached : Reachable start)
    (first : ∀ name ∈ start.catalog.names, Whereabouts start name start) (run : Run start n env) :
    ∀ name ∈ env.catalog.names, Whereabouts start name env := by
  induction run with
  | start => exact first
  | @next n env env' call run step ih =>
    intro name given
    by_cases old : name ∈ env.catalog.names
    · exact (ih name old).step (reached.run run) run step
    · obtain ⟨txn, s, was, known⟩ := step_gives step old given
      exact .written was known

/-- What a writer misses are names whose creation was aborted. -/
theorem missing_aborted {id : UInt64} {owner : String} {config : EnvConfig}
    (run : Run (.new id owner config) n env) (was : env.txns.get? txn = some (.writer s)) :
    ∀ lost ∈ env.namesMissing s, CreationAborted (.new id owner config) (some lost) env := by
  intro lost there
  have start : Reachable (.new id owner config) := ⟨id, owner, config, 0, .start⟩
  have reached := start.run run
  obtain ⟨given, absent⟩ := List.mem_filter.mp there
  have unknown : ¬(env.known? s (some lost)).isSome = true := by simpa using absent
  have first : ∀ name ∈ (Environment.new id owner config).catalog.names,
      Whereabouts (.new id owner config) name (.new id owner config) := by
    intro name listed
    rw [List.mem_singleton.mp listed]
    exact .committed rfl
  cases run_whereabouts start first run _ (mem_givenNames.mp given) with
  | aborted aborted => exact aborted
  | committed known =>
    have balanced := reachable_balanced reached
    have still := known?_mono (fun found => found) (fun gone => balanced.covers was gone) known
    exact absurd still unknown
  | written other known =>
    -- There is one writer at a time.
    cases (reachable_serial reached).same_writer was other
    cases was.symm.trans other
    exact absurd known unknown

/-! ## The slots -/

/-- One name is listed for each database but the root. -/
theorem length_givenNames (catalogued : Catalogued env) :
    env.givenNames.length + 1 = env.catalog.length := by
  have distinct := catalogued.distinct
  have length : env.catalog.names.length = env.catalog.length := List.length_map _
  cases listed : env.catalog.names with
  | nil =>
    have root := catalogued.root
    rw [listed] at root
    cases root
  | cons first rest =>
    have root := catalogued.root
    rw [listed] at root distinct length
    cases root
    have named : none ∉ rest := (List.nodup_cons.mp distinct).1
    have all : (rest.filterMap fun name => name).length = rest.length := by
      rw [List.filterMap_length_eq_length]
      intro name there
      cases name with
      | none => exact absurd there named
      | some name => rfl
    simp only [givenNames, listed, List.filterMap_cons, all]
    exact length

/-- Each name that was given is in the snapshot or missing. -/
theorem length_names (catalogued : Catalogued env) (s : Snapshot) :
    (env.namesIn s).length + (env.namesMissing s).length = env.catalog.length - 1 := by
  have parts := List.length_eq_length_filter_add
    (l := env.givenNames) fun name => (env.known? s (some name)).isSome
  have given := length_givenNames catalogued
  unfold namesIn namesMissing
  omega

theorem createDb_ended (txn : Handle) (s : Snapshot) (name : Option String) (flags : DbFlags) :
    (env.createDb txn s name flags).ended =
      if name ∉ env.catalog.names ∧ env.config.maxDbs ≤ env.catalog.length - 1 then .dbsFull
      else .success := by
  unfold createDb
  cases named : env.catalog.find? name with
  | some dbi =>
    have listed : name ∈ env.catalog.names := by
      by_contra new
      rw [Catalog.find?_eq_none_iff.mpr new] at named
      cases named
    simp [listed]
  | none =>
    have new := Catalog.find?_eq_none_iff.mp named
    dsimp only
    by_cases full : env.config.maxDbs ≤ env.catalog.length - 1
    · rw [if_pos full, if_pos ⟨new, full⟩]
    · rw [if_neg full, if_neg fun both => full both.2]

theorem dbiOpen_creates {flags : UInt32} {wanted : DbFlags}
    (was : env.txns.get? txn = some (.writer s)) (unknown : env.known? s name = none)
    (supported : DbFlags.ofFlags? flags = some wanted)
    (create : Flags.has flags Flags.create = true) :
    env.dbiOpen txn name flags = env.createDb txn s name wanted := by
  simp [dbiOpen, supported, was, Txn.snapshot, unknown, create]

/-- A name of a database whose creation was aborted stays listed. -/
theorem CreationAborted.listed (reached : Reachable start)
    (aborted : CreationAborted start name env) : name ∈ env.catalog.names := by
  cases aborted with
  | @intro n m e txn s before was created uncommitted after =>
    obtain ⟨dbi, _, found, _⟩ := known?_isSome_iff.mp created
    have there := reached.run before
    have abort : Step (.txnAbort txn) e (e.txnAbort txn) := ⟨_, .done _⟩
    have found := run_find? there (Run.start.next _ abort) found
    have found := run_find? (there.next _ abort) after found
    by_contra new
    rw [Catalog.find?_eq_none_iff.mpr new] at found
    cases found

end

/-- What the creation of a database comes to for a writer that has none of this name. -/
structure SlotsByName (start env : Environment) (txn : Handle) (s : Snapshot)
    (name : Option String) (flags : UInt32) : Prop where
  /-- It is refused for want of a slot exactly if the name is new and the names given before take up
  all slots, those that the writer misses among them. -/
  full : (env.dbiOpen txn name flags).ended = .dbsFull ↔ name ∉ env.catalog.names ∧
    env.config.maxDbs ≤ (env.namesIn s).length + (env.namesMissing s).length
  /-- Nothing else can be wrong. -/
  opened : (env.dbiOpen txn name flags).ended ≠ .dbsFull →
    (env.dbiOpen txn name flags).ended = .success
  /-- What the writer misses are names whose creation was aborted. -/
  missing : ∀ lost ∈ env.namesMissing s, CreationAborted start (some lost) env
  /-- Such a name keeps its slot. -/
  kept : ∀ lost, CreationAborted start (some lost) env →
    lost ∈ env.namesIn s ∨ lost ∈ env.namesMissing s
  /-- Where none was aborted, all slots are those of databases that the writer has. -/
  spared : (∀ lost, ¬CreationAborted start (some lost) env) →
    (env.dbiOpen txn name flags).ended = .dbsFull → env.config.maxDbs ≤ (env.namesIn s).length

section
variable {env : Environment} {txn : Handle} {s : Snapshot} {name : Option String} {flags : UInt32}
  {wanted : DbFlags} {id : UInt64} {owner : String} {config : EnvConfig} {n : Nat}

/-- **An aborted creation keeps its slot.** Slots are counted by the names that were ever given, and
not by the databases that a writer has. -/
theorem aborted_creations_keep_their_slots (run : Run (.new id owner config) n env)
    (was : env.txns.get? txn = some (.writer s)) (unknown : env.known? s name = none)
    (supported : DbFlags.ofFlags? flags = some wanted)
    (create : Flags.has flags Flags.create = true) :
    SlotsByName (.new id owner config) env txn s name flags := by
  have start : Reachable (.new id owner config) := ⟨id, owner, config, 0, .start⟩
  have reached := start.run run
  have counted := length_names (reachable_catalogued reached) s
  have ended : (env.createDb txn s name wanted).ended = _ := createDb_ended txn s name wanted
  rw [← dbiOpen_creates was unknown supported create, ← counted] at ended
  have full : (env.dbiOpen txn name flags).ended = .dbsFull ↔ name ∉ env.catalog.names ∧
      env.config.maxDbs ≤ (env.namesIn s).length + (env.namesMissing s).length := by
    rw [ended]
    split
    · rename_i all
      exact ⟨fun _ => all, fun _ => rfl⟩
    · rename_i left
      exact ⟨fun same => absurd same (by decide), fun all => absurd all left⟩
  have missing := missing_aborted run was
  constructor
  case full => exact full
  case missing => exact missing
  case opened =>
    intro left
    rw [ended] at left ⊢
    split at left
    · exact absurd rfl left
    · rename_i room
      rw [if_neg room]
  case kept =>
    intro lost aborted
    have given := mem_givenNames.mpr (aborted.listed start)
    by_cases known : (env.known? s (some lost)).isSome = true
    · exact .inl (List.mem_filter.mpr ⟨given, known⟩)
    · exact .inr (List.mem_filter.mpr ⟨given, by simpa using known⟩)
  case spared =>
    intro none_aborted refused
    have all := (full.mp refused).2
    have none_missing : env.namesMissing s = [] :=
      List.eq_nil_iff_forall_not_mem.mpr fun lost there => none_aborted lost (missing lost there)
    simpa [none_missing] using all

/-- In an environment for one named database, one was created and its creation aborted: another
writer has none, and there is no slot left but for the same name. -/
theorem aborted_creations_keep_the_only_slot :
    ∃ start env s, Reachable env ∧ env.config.maxDbs = 1 ∧
      env.txns.get? 2 = some (.writer s) ∧ env.namesIn s = [] ∧ env.namesMissing s = ["a"] ∧
      SlotsByName start env 2 s (some "b") Flags.create ∧
      (env.dbiOpen 2 (some "b") Flags.create).ended = .dbsFull ∧
      SlotsByName start env 2 s (some "a") Flags.create ∧
      (env.dbiOpen 2 (some "a") Flags.create).ended = .success := by
  let config : EnvConfig := { maxDbs := 1 }
  have opened : Run (.new 1 "" config) 0 (.new 1 "" config) := .start
  have begun := opened.next (.txnBegin none 0) ⟨_, .done _⟩
  have created := begun.next (.dbiOpen 1 (some "a") Flags.create) ⟨_, .done _⟩
  have aborted := created.next (.txnAbort 1) ⟨_, .done _⟩
  have run := aborted.next (.txnBegin none 0) ⟨_, .done _⟩
  have other : SlotsByName (.new 1 "" config) _ 2 _ (some "b") Flags.create :=
    aborted_creations_keep_their_slots run rfl rfl rfl (by decide)
  have same : SlotsByName (.new 1 "" config) _ 2 _ (some "a") Flags.create :=
    aborted_creations_keep_their_slots run rfl rfl rfl (by decide)
  exact ⟨_, _, _, ⟨_, _, _, _, run⟩, rfl, rfl, rfl, rfl, other, rfl, same, rfl⟩

/-- A writer that has no database but the root is refused one, in an environment for one. -/
theorem aborted_creation_leaves_no_slot :
    ∃ env s, Reachable env ∧ env.config.maxDbs = 1 ∧ env.txns.get? 2 = some (.writer s) ∧
      env.known? s (some "b") = none ∧ DbFlags.ofFlags? Flags.create = some .plain ∧
      Flags.has Flags.create Flags.create = true ∧ env.namesIn s = [] ∧
      (env.dbiOpen 2 (some "b") Flags.create).ended = .dbsFull := by
  let config : EnvConfig := { maxDbs := 1 }
  have reached : Reachable (.new 1 "" config) := ⟨_, _, _, _, .start⟩
  have reached := reached.next (.txnBegin none 0) ⟨_, .done _⟩
  have reached := reached.next (.dbiOpen 1 (some "a") Flags.create) ⟨_, .done _⟩
  have reached := reached.next (.txnAbort 1) ⟨_, .done _⟩
  have reached := reached.next (.txnBegin none 0) ⟨_, .done _⟩
  exact ⟨_, _, reached, rfl, rfl, rfl, rfl, by decide, rfl, rfl⟩

end

end Environment

end CollatedStore
