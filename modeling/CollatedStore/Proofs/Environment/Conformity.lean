import CollatedStore.Proofs.Environment.Ordering

/-!
What the catalog says of the databases that are held. A name keeps its number for good, and a
database its kind as long as anyone holds it, so that whoever does finds it as its kind asks.
-/
namespace CollatedStore

/-- Unsorted values are one for each key, and values of a fixed length are all of one length. -/
structure Entry.Conforms (flags : DbFlags) (e : Entry) : Prop where
  single : flags.dupSort = false → e.values.length = 1
  uniform : flags.dupSort = true → flags.dupFixed = true →
    ∀ v ∈ e.values, ∀ w ∈ e.values, v.length = w.length

def Contents.Conforms (flags : DbFlags) (entries : Contents) : Prop :=
  ∀ e ∈ entries, e.Conforms flags

theorem Contents.conforms_nil (flags : DbFlags) : Contents.Conforms flags [] := by
  intro e there
  cases there

namespace Entry

variable {flags : DbFlags} {e : Entry} {values : List Bytes}

theorem conforms_singleton (key value : Bytes) : Entry.Conforms flags ⟨key, [value]⟩ := by
  refine ⟨fun _ => rfl, fun _ _ v hv w hw => ?_⟩
  rw [List.mem_singleton.mp hv, List.mem_singleton.mp hw]

/-- Sorted values may change, as long as the new ones have lengths that were there. -/
theorem Conforms.resorted (conforms : e.Conforms flags) (sorted : flags.dupSort = true)
    (like : flags.fixed = true → ∀ v ∈ values, ∃ w ∈ e.values, w.length = v.length) :
    Entry.Conforms flags { e with values } := by
  refine ⟨fun plain => ?_, fun _ fixed v hv w hw => ?_⟩
  · rw [sorted] at plain
    cases plain
  · have lengths := like (by simp [DbFlags.fixed, sorted, fixed])
    obtain ⟨v', wasV, sameV⟩ := lengths v hv
    obtain ⟨w', wasW, sameW⟩ := lengths w hw
    rw [← sameV, ← sameW]
    exact conforms.uniform sorted fixed v' wasV w' wasW

end Entry

namespace Holding

variable {may : Question → Ordering → Prop} {layout : Layout} {limit : Nat} {h h' : Holding}

theorem Change.conforms (change : Change may layout limit h h')
    (conforms : h.entries.Conforms layout.flags) : h'.entries.Conforms layout.flags := by
  -- What is not the entry that changes was there before.
  have set : ∀ {i : Nat} {e' : Entry}, e'.Conforms layout.flags →
      Contents.Conforms layout.flags (h.entries.set i e') := by
    intro i e' own d hd
    obtain hd | rfl := List.mem_or_eq_of_mem_set hd
    · exact conforms d hd
    · exact own
  cases change with
  | kept => exact conforms
  | added _ _ inside _ =>
    intro d hd
    obtain rfl | hd := (List.mem_insertIdx inside).mp hd
    · exact Entry.conforms_singleton _ _
    · exact conforms d hd
  | @overwritten i j e old value plain stood _ _ _ =>
    have was := conforms e (List.mem_of_getElem? stood)
    refine set ⟨fun _ => ?_, fun sorted => ?_⟩
    · rw [List.length_set]
      exact was.single plain
    · rw [plain] at sorted
      cases sorted
  | @joined i j e value sorted stood _ inside _ fits =>
    refine set ((conforms e (List.mem_of_getElem? stood)).resorted sorted fun fixed v hv => ?_)
    obtain rfl | hv := (List.mem_insertIdx inside).mp hv
    · exact fits fixed
    · exact ⟨v, hv, rfl⟩
  | @replaced i j k e old value sorted stood _ _ inside _ _ fits =>
    refine set ((conforms e (List.mem_of_getElem? stood)).resorted sorted fun fixed v hv => ?_)
    obtain rfl | hv := (List.mem_insertIdx inside).mp hv
    · exact fits fixed
    · exact ⟨v, List.mem_of_mem_eraseIdx hv, rfl⟩
  | @parted i j e old sorted stood _ _ _ =>
    refine set ((conforms e (List.mem_of_getElem? stood)).resorted sorted fun _ v hv => ?_)
    exact ⟨v, List.mem_of_mem_eraseIdx hv, rfl⟩
  | dropped _ _ =>
    intro d hd
    exact conforms d (List.mem_of_mem_eraseIdx hd)

theorem Changes.conforms (changes : Changes may layout limit h h')
    (conforms : h.entries.Conforms layout.flags) : h'.entries.Conforms layout.flags := by
  induction changes with
  | refl => exact conforms
  | tail _ change ih => exact change.conforms ih

end Holding

namespace Environment

/-- Someone holds a snapshot that has the database. -/
def Has (env : Environment) (dbi : Dbi) : Prop :=
  ∃ s entries, env.Holds s ∧ s.dbs.get? dbi = some entries

/-! ## Who has a database -/

section
variable {env env' : Environment} {dbi : Dbi}

/-- Databases are never dropped: what a reader has is committed. -/
structure Dated (env : Environment) : Prop where
  reads : ∀ {h s slot dbi}, env.txns.get? h = some (.reader s slot) →
    env.committed.dbs.get? dbi = none → s.dbs.get? dbi = none

theorem new_dated (id : UInt64) (owner : String) (config : EnvConfig) :
    Dated (.new id owner config) := by
  constructor
  intro h s slot dbi live
  cases live

/-- Who reads after a call did so before, or reads what was committed then. -/
theorem Shift.reader {published : Bool} (shift : Shift env published env') {h : Handle}
    {s : Snapshot} {slot : Nat} (live : env'.txns.get? h = some (.reader s slot)) :
    env.txns.get? h = some (.reader s slot) ∨ s = env.committed := by
  cases shift with
  | rest txns =>
    rw [txns] at live
    exact .inl live
  | write _ _ txns | beginWrite _ txns =>
    rw [txns, Table.get?_insert] at live
    split at live
    · cases live
    · exact .inl live
  | beginRead _ txns =>
    rw [txns, Table.get?_insert] at live
    split at live
    · cases live
      exact .inr rfl
    · exact .inl live
  | finish _ txns | commit _ txns =>
    rw [txns, Table.get?_erase] at live
    split at live
    · cases live
    · exact .inl live

/-- What is committed after a call was so before, or is what the writer has made of it. -/
theorem Shift.committed {published : Bool} (shift : Shift env published env') :
    env'.committed = env.committed ∨ ∃ h, env.txns.get? h = some (.writer env'.committed) := by
  cases shift with
  | rest _ committed | write _ _ _ committed | beginRead _ _ committed
  | beginWrite _ _ committed | finish _ _ committed => exact .inl committed
  | commit was _ committed =>
    rw [committed]
    exact .inr ⟨_, was⟩

theorem Dated.shift {published : Bool} (dated : Dated env) (balanced : Balanced env)
    (shift : Shift env published env') : Dated env' := by
  constructor
  intro h s slot dbi live absent
  have before : env.committed.dbs.get? dbi = none := by
    obtain same | ⟨k, was⟩ := shift.committed
    · rwa [same] at absent
    · exact balanced.covers was absent
  obtain was | rfl := shift.reader live
  · exact dated.reads was before
  · exact before

/-- What the writer does not have, no one has. -/
theorem Dated.not_has (dated : Dated env) (balanced : Balanced env) (serial : Serial env)
    {h : Handle} {s : Snapshot} (was : env.txns.get? h = some (.writer s))
    (missing : s.dbs.get? dbi = none) : ¬ env.Has dbi := by
  have uncommitted := balanced.covers was missing
  rintro ⟨s', entries, rfl | ⟨k, t, live, rfl⟩, has⟩
  · rw [uncommitted] at has
    cases has
  · cases t with
    | reader s' slot =>
      rw [Txn.snapshot, dated.reads live uncommitted] at has
      cases has
    | writer s' =>
      rw [serial.same_writer was live, was] at live
      cases live
      rw [Txn.snapshot, missing] at has
      cases has

/-- Whatever is held is listed. -/
theorem Dated.listed (dated : Dated env) (balanced : Balanced env) (has : env.Has dbi) :
    ∃ record, env.catalog.get? dbi = some record := by
  obtain ⟨s, entries, rfl | ⟨h, t, live, rfl⟩, has⟩ := has
  · obtain ⟨record, listed, _⟩ := balanced.fits.listed has
    exact ⟨record, listed⟩
  · cases t with
    | reader s slot =>
      cases committed : env.committed.dbs.get? dbi with
      | none =>
        rw [Txn.snapshot, dated.reads live committed] at has
        cases has
      | some entries =>
        obtain ⟨record, listed, _⟩ := balanced.fits.listed committed
        exact ⟨record, listed⟩
    | writer s =>
      obtain ⟨record, listed, _⟩ := (balanced.writes live).listed has
      exact ⟨record, listed⟩

end

/-! ## What a call makes of the catalog -/

/-- The names stay, perhaps with a new one behind them, and so does the kind of what is held. -/
structure Relisted (env : Environment) (catalog : Catalog) : Prop where
  names : catalog.names = env.catalog.names ∨
    ∃ name, name ∉ env.catalog.names ∧ catalog.names = env.catalog.names ++ [name]
  kinds : ∀ {dbi record}, env.Has dbi → env.catalog.get? dbi = some record →
    ∃ record', catalog.get? dbi = some record' ∧ record'.layout.flags = record.layout.flags

section
variable {env env' : Environment} {dbi : Dbi}

theorem Relisted.same (catalog : env'.catalog = env.catalog) : Relisted env env'.catalog := by
  rw [catalog]
  exact ⟨.inl rfl, fun _ listed => ⟨_, listed, rfl⟩⟩

theorem touched_catalog (touched : Touched env env') : env'.catalog = env.catalog := by
  induction touched with
  | same => rfl
  | wrote _ _ => rfl
  | moved _ _ _ _ ih => exact ih

/-- The number handed out is the one under which the name is listed then. -/
theorem createDb_names (env : Environment) (txn : Handle) (snapshot : Snapshot)
    (name : Option String) (flags : DbFlags) :
    let reply := env.createDb txn snapshot name flags
    (reply.store.catalog.names = env.catalog.names ∨ name ∉ env.catalog.names ∧
      reply.store.catalog.names = env.catalog.names ++ [name]) ∧
    (reply.ended = .success → reply.store.catalog.find? name = some reply.out) := by
  dsimp only
  unfold createDb
  cases named : env.catalog.find? name with
  | some dbi =>
    have names := env.catalog.names_modify dbi
      (f := fun r => { r with layout := { r.layout with flags } }) fun _ => rfl
    refine ⟨.inl names, fun _ => ?_⟩
    exact (Catalog.find?_of_names names name).trans named
  | none =>
    dsimp only
    split
    · exact ⟨.inl rfl, nofun⟩
    · have new := Catalog.find?_eq_none_iff.mp named
      have names := (Catalog.names_modify (env.catalog ++ [⟨name, ⟨none, none, flags⟩⟩])
        (env.catalog.length + 1) (f := fun r => { r with layout := { r.layout with flags } })
        fun _ => rfl).trans (Catalog.names_append _ _)
      exact ⟨.inr ⟨new, names⟩, fun _ => Catalog.find?_new new names⟩

theorem createDb_relisted (dated : Dated env) (balanced : Balanced env) (serial : Serial env)
    {txn : Handle} {snapshot : Snapshot} (was : env.txns.get? txn = some (.writer snapshot))
    {name : Option String} (unknown : env.known? snapshot name = none) (flags : DbFlags) :
    Relisted env (env.createDb txn snapshot name flags).store.catalog := by
  refine ⟨(createDb_names env txn snapshot name flags).1.imp_right fun new => ⟨name, new⟩, ?_⟩
  intro d record has listed
  obtain same | ⟨dbi, catalog, created, _, others, absent⟩ := createDb_cases unknown txn flags
  · rw [same]
    exact ⟨record, listed, rfl⟩
  · rw [created]
    -- The database created is one that no one has.
    refine ⟨record, others d record ?_ listed, rfl⟩
    rintro rfl
    obtain missing | unlisted := absent
    · exact dated.not_has balanced serial was missing has
    · rw [unlisted] at listed
      cases listed

theorem setOrder_relisted (role : Role) (txn : Handle) (dbi : Dbi) (fn : Option CompareFn) :
    Relisted env (env.setOrder role txn dbi fn).store.catalog := by
  unfold setOrder
  split
  · constructor
    case names =>
      refine .inl (Catalog.names_modify _ _ ?_)
      intro r
      rfl
    case kinds =>
      intro d record _ listed
      have pos : 0 < dbi := by
        cases dbi with
        | zero => simp_all [Catalog.get?]
        | succ n => exact Nat.succ_pos n
      rw [Catalog.get?_modify _ pos, listed]
      refine ⟨_, rfl, ?_⟩
      split
      · cases role <;> rfl
      · rfl
  · exact .same rfl

theorem effect_relisted (dated : Dated env) (balanced : Balanced env) (serial : Serial env)
    {call : Call} (effect : Effect env call env') : Relisted env env'.catalog := by
  cases effect with
  | txnBegin parent flags thread =>
    obtain ⟨_, _, same⟩ | ⟨_, _, _, _, begun⟩ | ⟨_, _, begun⟩ :=
      txnBegin_cases env parent flags thread
    · rw [same]; exact .same rfl
    · rw [begun]; exact .same rfl
    · rw [begun]; exact .same rfl
  | txnCommit txn =>
    apply Relisted.same
    unfold txnCommit finish
    cases env.txns.get? txn with
    | none => rfl
    | some t => cases t <;> rfl
  | txnAbort txn =>
    apply Relisted.same
    unfold txnAbort finish
    cases env.txns.get? txn <;> rfl
  | dbiOpen txn name flags =>
    obtain same | ⟨snapshot, wanted, was, unknown, created⟩ := dbiOpen_cases env txn name flags
    · rw [same]; exact .same rfl
    · rw [created]; exact createDb_relisted dated balanced serial was unknown wanted
  | setOrder role txn dbi fn => exact setOrder_relisted role txn dbi fn
  | cursorOpen txn dbi =>
    apply Relisted.same
    unfold cursorOpen
    split <;> rfl
  | cursorClose cursor => exact .same rfl
  | touched _ touched => exact .same (touched_catalog touched)

end

/-! ## Runs -/

/-- What every call keeps of the catalog and of those who hold databases. -/
structure Catalogued (env : Environment) : Prop where
  distinct : env.catalog.names.Nodup
  root : env.catalog.names[0]? = some none
  dated : Dated env
  conforms : ∀ {s dbi entries record}, env.Holds s → s.dbs.get? dbi = some entries →
    env.catalog.get? dbi = some record → entries.Conforms record.layout.flags

section
variable {env env' : Environment} {dbi : Dbi}

theorem new_catalogued (id : UInt64) (owner : String) (config : EnvConfig) :
    Catalogued (.new id owner config) := by
  constructor
  case distinct => exact List.pairwise_singleton _ _
  case root => rfl
  case dated => exact new_dated id owner config
  case conforms =>
    rintro s dbi entries record (rfl | ⟨h, t, live, rfl⟩) has _
    · simp only [new, Table.get?_insert] at has
      split at has
      · cases has
        exact Contents.conforms_nil _
      · cases has
    · cases live

theorem Catalogued.step (h : Catalogued env) (reached : Reachable env) {call : Call}
    (step : Step call env env') : Catalogued env' ∧ Relisted env env'.catalog := by
  have balanced := reachable_balanced reached
  have serial := reachable_serial reached
  have relisted := effect_relisted h.dated balanced serial (step_effect step)
  refine ⟨?_, relisted⟩
  constructor
  case distinct =>
    obtain same | ⟨name, new, names⟩ := relisted.names
    · rw [same]; exact h.distinct
    · rw [names]
      exact List.nodup_append.mpr ⟨h.distinct, List.pairwise_singleton _ _, by
        rintro a there b hb rfl
        exact new (List.mem_singleton.mp hb ▸ there)⟩
  case root =>
    obtain same | ⟨name, _, names⟩ := relisted.names
    · rw [same]; exact h.root
    · rw [names]
      exact List.getElem?_append_left (List.getElem?_eq_some_iff.mp h.root).1 |>.trans h.root
  case dated => exact h.dated.shift balanced (step_shift step)
  case conforms =>
    intro s dbi entries record' holds has listed'
    obtain ⟨outcome, made⟩ := step
    -- The kind is the one that the database had when it was last held.
    have kept : ∀ {s₀ entries₀}, env.Holds s₀ → s₀.dbs.get? dbi = some entries₀ →
        ∃ record, env.catalog.get? dbi = some record ∧
          record.layout.flags = record'.layout.flags := by
      intro s₀ entries₀ held had
      obtain ⟨record, listed⟩ := h.dated.listed balanced ⟨s₀, entries₀, held, had⟩
      obtain ⟨record'', listed'', same⟩ := relisted.kinds ⟨s₀, entries₀, held, had⟩ listed
      rw [listed'] at listed''
      cases listed''
      exact ⟨record, listed, same.symm⟩
    cases perform_origin (Inquiry.yields_iff.mp made) holds has with
    | held held had =>
      obtain ⟨record, listed, same⟩ := kept held had
      rw [← same]
      exact h.conforms held had listed
    | created => exact Contents.conforms_nil _
    | @written db holding writable own _ changes =>
      obtain ⟨was, had⟩ := writable_was writable
      rw [own] at had
      obtain ⟨record, listed, same⟩ := kept (writer_holds was) had
      have layout : db.layout = record.layout := by
        obtain ⟨_, found, _, _, there, _, opened⟩ := writable_eq_ok.mp writable
        rw [own, listed] at there
        cases there
        rw [opened]
      rw [← same, ← layout]
      refine changes.conforms ?_
      rw [layout]
      exact h.conforms (writer_holds was) had listed

theorem reachable_catalogued (h : Reachable env) : Catalogued env := by
  obtain ⟨id, owner, config, n, run⟩ := h
  induction run with
  | start => exact new_catalogued id owner config
  | next call run step ih => exact (ih.step ⟨id, owner, config, _, run⟩ step).1

/-- Whoever reads a database finds it as its kind asks. -/
theorem readable_conforms (reached : Reachable env) {txn : Handle} {entries : Contents}
    {layout : Layout} (readable : env.readable txn dbi = .ok (entries, layout)) :
    entries.Conforms layout.flags := by
  obtain ⟨t, record, live, listed, has, rfl⟩ := readable_eq_ok.mp readable
  exact (reachable_catalogued reached).conforms (.inr ⟨txn, t, live, rfl⟩) has listed

/-- The names only grow at the end. -/
theorem run_names {n : Nat} (reached : Reachable env) (run : Run env n env') :
    env.catalog.names <+: env'.catalog.names := by
  induction run with
  | start => exact List.prefix_rfl
  | next call run step ih =>
    have reached := reached.run run
    obtain same | ⟨name, _, names⟩ := ((reachable_catalogued reached).step reached step).2.names
    · rw [same]; exact ih
    · rw [names]; exact ih.trans (List.prefix_append _ _)

/-- Calls in all of which someone has the database. -/
abbrev HeldRun (dbi : Dbi) : Environment → Environment → Prop :=
  Relation.ReflTransGen fun e e' => e.Has dbi ∧ ∃ call, Step call e e'

theorem HeldRun.kinds (reached : Reachable env) (run : HeldRun dbi env env') {record : DbRecord}
    (listed : env.catalog.get? dbi = some record) :
    Reachable env' ∧ ∃ record', env'.catalog.get? dbi = some record' ∧
      record'.layout.flags = record.layout.flags := by
  induction run with
  | refl => exact ⟨reached, record, listed, rfl⟩
  | tail _ step ih =>
    obtain ⟨reached, record', listed', same⟩ := ih
    obtain ⟨has, call, step⟩ := step
    obtain ⟨record'', listed'', same'⟩ :=
      ((reachable_catalogued reached).step reached step).2.kinds has listed'
    exact ⟨reached.next call step, record'', listed'', same'.trans same⟩

/-- A successful opening hands out the number under which the name is listed then. -/
theorem dbiOpen_found {txn : Handle} {name : Option String} {flags : UInt32}
    (opened : (env.dbiOpen txn name flags).ended = .success) :
    (env.dbiOpen txn name flags).store.catalog.find? name =
      some (env.dbiOpen txn name flags).out := by
  generalize made : env.dbiOpen txn name flags = reply at opened ⊢
  unfold dbiOpen at made
  split at made
  · subst made; cases opened
  · split at made
    · subst made; cases opened
    · split at made
      · rename_i dbi record known
        split at made
        · subst made; cases opened
        · subst made
          obtain ⟨d, named, there⟩ := Option.bind_eq_some_iff.mp known
          split at there
          · obtain ⟨_, _, same⟩ := Option.bind_eq_some_iff.mp there
            cases same
            exact named
          · cases there
      · split at made
        · split at made
          · subst made; cases opened
          · subst made
            exact (createDb_names env txn _ name _).2 opened
        · subst made; cases opened

end

/-! ## Catalog identity -/

/-- What every state of an environment promises of its catalog. -/
structure CatalogIdentity (env : Environment) : Prop where
  /-- No name is listed twice, and the root is the first. -/
  distinct : env.catalog.names.Nodup
  root : env.catalog.find? none = some rootDbi
  /-- Whoever opens a database is given the number under which its name is listed. -/
  opens : ∀ {txn name flags}, (env.dbiOpen txn name flags).ended = .success →
    (env.dbiOpen txn name flags).store.catalog.find? name =
      some (env.dbiOpen txn name flags).out
  /-- A name keeps its number whatever is called, and no other name is ever given that number. -/
  kept : ∀ {n env' name dbi}, Run env n env' → env.catalog.find? name = some dbi →
    env'.catalog.find? name = some dbi ∧
      ∀ other, env'.catalog.find? other = some dbi → other = name
  /-- A database that anyone holds is listed, and all its entries are as its kind asks. -/
  conforms : ∀ {s dbi entries}, env.Holds s → s.dbs.get? dbi = some entries →
    ∃ record, env.catalog.get? dbi = some record ∧ entries.Conforms record.layout.flags
  /-- Its kind stays the same as long as someone has it. -/
  kinds : ∀ {env' dbi record}, HeldRun dbi env env' → env.catalog.get? dbi = some record →
    ∃ record', env'.catalog.get? dbi = some record' ∧ record'.layout.flags = record.layout.flags

section
variable {env env' : Environment}

theorem run_find? {n : Nat} (reached : Reachable env) (run : Run env n env')
    {name : Option String} {dbi : Dbi} (found : env.catalog.find? name = some dbi) :
    env'.catalog.find? name = some dbi := by
  have distinct := (reachable_catalogued reached).distinct
  have distinct' := (reachable_catalogued (reached.run run)).distinct
  obtain ⟨record, listed, named⟩ := (Catalog.find?_eq_some_iff distinct).mp found
  obtain ⟨m, _, rfl, _⟩ := Catalog.find?_listed found
  have there : env.catalog.names[m]? = some name := by
    rw [Catalog.names_get?, listed, ← named]
    rfl
  obtain ⟨more, grown⟩ := run_names reached run
  have inside := (List.getElem?_eq_some_iff.mp there).1
  have kept : env'.catalog.names[m]? = some name := by
    rw [← grown, List.getElem?_append_left inside, there]
  rw [Catalog.names_get?] at kept
  obtain ⟨record', listed', named'⟩ := Option.map_eq_some_iff.mp kept
  exact (Catalog.find?_eq_some_iff distinct').mpr ⟨record', listed', named'⟩

/-- **Names are for good, and kinds for as long as they matter**, whatever calls led here: created
databases, aborted creations and new kinds for them included. -/
theorem catalog_identity (h : Reachable env) : CatalogIdentity env := by
  have catalogued := reachable_catalogued h
  constructor
  case distinct => exact catalogued.distinct
  case root =>
    have listed := catalogued.root
    rw [Catalog.names_get?] at listed
    obtain ⟨record, listed, named⟩ := Option.map_eq_some_iff.mp listed
    exact (Catalog.find?_eq_some_iff catalogued.distinct).mpr ⟨record, listed, named⟩
  case opens =>
    intro txn name flags opened
    exact dbiOpen_found opened
  case kept =>
    intro n env' name dbi run found
    have found' := run_find? h run found
    have distinct' := (reachable_catalogued (h.run run)).distinct
    refine ⟨found', fun other given => ?_⟩
    obtain ⟨record, listed, named⟩ := (Catalog.find?_eq_some_iff distinct').mp found'
    obtain ⟨record', listed', named'⟩ := (Catalog.find?_eq_some_iff distinct').mp given
    rw [listed] at listed'
    cases listed'
    exact named'.symm.trans named
  case conforms =>
    intro s dbi entries holds has
    obtain ⟨record, listed⟩ :=
      catalogued.dated.listed (reachable_balanced h) ⟨s, entries, holds, has⟩
    exact ⟨record, listed, catalogued.conforms holds has listed⟩
  case kinds =>
    intro env' dbi record run listed
    exact (run.kinds h listed).2

end

/-- A name whose first creation was aborted gets its number again, now for sorted values of a fixed
length. A reader finds the database as its new kind asks. -/
theorem catalog_identity_after_an_abort :
    ∃ env s, Reachable env ∧ CatalogIdentity env ∧ env.catalog.find? (some "values") = some 2 ∧
      env.txns.get? 3 = some (.reader s 0) ∧
      s.dbs.get? 2 = some [⟨[1], [[5, 5], [6, 6]]⟩] ∧
      Contents.Conforms ⟨true, true⟩ [⟨[1], [[5, 5], [6, 6]]⟩] := by
  have start : Reachable (Environment.new 1 "" {}) := ⟨1, "", {}, 0, .start⟩
  have begun := start.next (.txnBegin none 0) ⟨_, .done _⟩
  have plain := begun.next (.dbiOpen 1 (some "values") Flags.create) ⟨_, .done _⟩
  have aborted := plain.next (.txnAbort 1) ⟨_, .done _⟩
  have again := aborted.next (.txnBegin none 0) ⟨_, .done _⟩
  have fixed := again.next (.dbiOpen 2 (some "values")
    (Flags.dupSort ||| Flags.dupFixed ||| Flags.create)) ⟨_, .done _⟩
  have first := fixed.next (.put 2 2 (some (.filled [1])) (some (.filled [5, 5])) 0) ⟨_, .done _⟩
  have second := first.next (.put 2 2 (some (.filled [1])) (some (.filled [6, 6])) 0)
    ⟨_, .done _⟩
  have committed := second.next (.txnCommit 2) ⟨_, .done _⟩
  have reading := committed.next (.txnBegin none Flags.readOnly) ⟨_, .done _⟩
  have identity := catalog_identity reading
  refine ⟨_, _, reading, identity, rfl, rfl, rfl, ?_⟩
  obtain ⟨record, listed, conforms⟩ := @identity.conforms _ 2 _ (.inl rfl) rfl
  cases listed
  exact conforms

end Environment

end CollatedStore
