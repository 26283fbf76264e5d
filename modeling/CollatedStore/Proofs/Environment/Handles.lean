import CollatedStore.Proofs.Environment.Bounds
import CollatedStore.Proofs.Environment.Conformity

/-!
Handles. Transactions and cursors are numbered by one counter, so that no number ever stands for two
of them; a cursor goes with its transaction, and what is called on either afterwards is refused.
-/
namespace CollatedStore

/-- The transaction is the same one, though a writer may have other entries and further databases
by now. -/
inductive Txn.Continues : Txn → Txn → Prop
  | same (t : Txn) : Continues t t
  | writes {s s' : Snapshot} (keeps : ∀ {dbi}, s'.dbs.get? dbi = none → s.dbs.get? dbi = none) :
      Continues (.writer s) (.writer s')

theorem Txn.Continues.has {t t' : Txn} (h : t.Continues t') {dbi : Dbi} {entries : Contents}
    (has : t.snapshot.dbs.get? dbi = some entries) :
    ∃ entries', t'.snapshot.dbs.get? dbi = some entries' := by
  cases h with
  | same => exact ⟨entries, has⟩
  | @writes s s' keeps =>
    cases there : s'.dbs.get? dbi with
    | none =>
      rw [Txn.snapshot, keeps there] at has
      cases has
    | some entries' => exact ⟨entries', there⟩

/-- What a handle stands for. -/
inductive Object where
  | reader (s : Snapshot) (slot : Nat)
  | writer
  | cursor (txn : Handle) (dbi : Dbi)

namespace Environment

/-- The handle stands for this object. -/
inductive Denotes (env : Environment) (h : Handle) : Object → Prop
  | reader {s : Snapshot} {slot : Nat} (live : env.txns.get? h = some (.reader s slot)) :
      Denotes env h (.reader s slot)
  | writer {s : Snapshot} (live : env.txns.get? h = some (.writer s)) : Denotes env h .writer
  | cursor {c : Cursor} (here : env.cursors.get? h = some c) : Denotes env h (.cursor c.txn c.dbi)

/-- The handle was handed out, and stands for nothing any more. -/
structure Spent (env : Environment) (h : Handle) : Prop where
  issued : h ≤ env.lastHandle
  empty : ∀ o, ¬ env.Denotes h o

/-! ## What opens and what ends -/

/-- Every transaction stays, no cursor is opened, and the others stay where they belong. -/
structure Abides (env env' : Environment) : Prop where
  last : env'.lastHandle = env.lastHandle
  txns : ∀ h, Option.Rel Txn.Continues (env.txns.get? h) (env'.txns.get? h)
  cursors : ∀ {k c'}, env'.cursors.get? k = some c' →
    ∃ c, env.cursors.get? k = some c ∧ c'.home = c.home

/-- What a call does to transactions and cursors: at most one begins or is opened, under the next
handle, or one ends with all its cursors. -/
inductive Traffic (env env' : Environment) : Prop
  | rest (abides : Abides env env')
  | began {t : Txn} (last : env'.lastHandle = env.lastHandle + 1)
      (txns : env'.txns = env.txns.insert (env.lastHandle + 1) t)
      (cursors : env'.cursors = env.cursors)
  | opened {txn : Handle} {dbi : Dbi} {found : Contents × Layout}
      (readable : env.readable txn dbi = .ok found) (last : env'.lastHandle = env.lastHandle + 1)
      (txns : env'.txns = env.txns)
      (cursors : env'.cursors = env.cursors.insert (env.lastHandle + 1) (.new txn dbi))
  | ended {h : Handle} (last : env'.lastHandle = env.lastHandle)
      (txns : env'.txns = env.txns.erase h)
      (cursors : env'.cursors = env.cursors.filter fun _ c => c.txn != h)

section
variable {env env' : Environment}

theorem continues_refl (x : Option Txn) : Option.Rel Txn.Continues x x := by
  cases x with
  | none => exact .none
  | some t => exact .some (.same t)

theorem Abides.same (last : env'.lastHandle = env.lastHandle) (txns : env'.txns = env.txns)
    (cursors : env'.cursors = env.cursors) : Abides env env' := by
  constructor
  case last => exact last
  case txns =>
    intro h
    rw [txns]
    exact continues_refl _
  case cursors =>
    intro k c here
    rw [cursors] at here
    exact ⟨c, here, rfl⟩

/-- The writer gets other entries in a database, or one more database. -/
theorem Abides.write {h : Handle} {s s' : Snapshot} (was : env.txns.get? h = some (.writer s))
    {dbi : Dbi} {entries : Contents} (dbs : s'.dbs = s.dbs.insert dbi entries)
    (last : env'.lastHandle = env.lastHandle) (txns : env'.txns = env.txns.insert h (.writer s'))
    (cursors : env'.cursors = env.cursors) : Abides env env' := by
  constructor
  case last => exact last
  case txns =>
    intro k
    rw [txns, Table.get?_insert]
    split
    · rename_i own
      rw [own, was]
      apply Option.Rel.some
      apply Txn.Continues.writes
      intro d absent
      rw [dbs] at absent
      exact Table.absent_of_insert absent
    · exact continues_refl _
  case cursors =>
    intro k c here
    rw [cursors] at here
    exact ⟨c, here, rfl⟩

theorem Abides.setCursor (abides : Abides env env') {h : Handle} {c c' : Cursor}
    (here : env.cursors.get? h = some c) (home : c'.home = c.home) :
    Abides env (env'.setCursor h c') := by
  refine ⟨abides.last, abides.txns, fun {k d} there => ?_⟩
  simp only [Environment.setCursor, Table.get?_insert] at there
  split at there
  · rename_i own
    cases there
    exact ⟨c, own ▸ here, home⟩
  · exact abides.cursors there

theorem touched_abides (touched : Touched env env') : Abides env env' := by
  induction touched with
  | same => exact .same rfl rfl rfl
  | wrote writable _ => exact .write (writable_was writable).1 rfl rfl rfl rfl
  | moved _ here txn dbi ih => exact ih.setCursor here (Prod.ext txn dbi)

theorem createDb_abides {txn : Handle} {snapshot : Snapshot}
    (was : env.txns.get? txn = some (.writer snapshot)) {name : Option String}
    (unknown : env.known? snapshot name = none) (flags : DbFlags) :
    Abides env (env.createDb txn snapshot name flags).store := by
  obtain same | ⟨dbi, catalog, created, _⟩ := createDb_cases unknown txn flags
  · rw [same]; exact .same rfl rfl rfl
  · rw [created]; exact .write was rfl rfl rfl rfl

theorem finish_traffic {h : Handle} {t : Txn} (ended : env.finish h = some (t, env')) :
    Traffic env env' := by
  obtain ⟨u, _, same⟩ := Option.map_eq_some_iff.mp ended
  cases same
  exact .ended rfl rfl rfl

theorem effect_traffic {call : Call} (effect : Effect env call env') : Traffic env env' := by
  have same : Traffic env env := .rest (.same rfl rfl rfl)
  cases effect with
  | txnBegin parent flags thread =>
    obtain ⟨_, _, refused⟩ | ⟨_, _, _, _, begun⟩ | ⟨_, _, begun⟩ :=
      txnBegin_cases env parent flags thread
    · rw [refused]; exact same
    · rw [begun]; exact .began rfl rfl rfl
    · rw [begun]; exact .began rfl rfl rfl
  | txnCommit txn =>
    unfold txnCommit
    split
    · exact same
    · rename_i ended
      exact finish_traffic ended
    · rename_i ended
      obtain ⟨u, _, made⟩ := Option.map_eq_some_iff.mp ended
      cases made
      exact .ended rfl rfl rfl
  | txnAbort txn =>
    unfold txnAbort
    split
    · exact same
    · rename_i ended
      exact finish_traffic ended
  | dbiOpen txn name flags =>
    obtain unchanged | ⟨snapshot, wanted, was, unknown, created⟩ := dbiOpen_cases env txn name flags
    · rw [unchanged]; exact same
    · rw [created]; exact .rest (createDb_abides was unknown wanted)
  | setOrder role txn dbi fn =>
    unfold setOrder
    split
    · exact .rest (.same rfl rfl rfl)
    · exact same
  | cursorOpen txn dbi =>
    obtain ⟨_, _, refused⟩ | ⟨_, readable, opened⟩ := cursorOpen_cases env txn dbi
    · rw [refused]; exact same
    · rw [opened]; exact .opened readable rfl rfl rfl
  | cursorClose cursor =>
    apply Traffic.rest
    refine ⟨rfl, fun h => continues_refl _, fun {k c} here => ?_⟩
    simp only [Environment.cursorClose, Table.get?_erase] at here
    split at here
    · cases here
    · exact ⟨c, here, rfl⟩
  | touched _ touched => exact .rest (touched_abides touched)

/-! ## What a handle stands for -/

theorem Traffic.last_le (traffic : Traffic env env') : env.lastHandle ≤ env'.lastHandle := by
  cases traffic with
  | rest abides => exact Nat.le_of_eq abides.last.symm
  | began last | opened _ last =>
    rw [last]
    exact Nat.le_succ env.lastHandle
  | ended last => exact Nat.le_of_eq last.symm

theorem Abides.txn (abides : Abides env env') {h : Handle} {t' : Txn}
    (live : env'.txns.get? h = some t') : ∃ t, env.txns.get? h = some t ∧ t.Continues t' := by
  have stays := abides.txns h
  rw [live] at stays
  cases was : env.txns.get? h with
  | none =>
    rw [was] at stays
    cases stays
  | some t =>
    rw [was] at stays
    cases stays with
    | some continues => exact ⟨t, rfl, continues⟩

/-- A transaction that lives under a handle from before is the one that did so before. -/
theorem Traffic.txn (traffic : Traffic env env') {h : Handle} {t' : Txn}
    (old : h ≤ env.lastHandle) (live : env'.txns.get? h = some t') :
    ∃ t, env.txns.get? h = some t ∧ t.Continues t' := by
  cases traffic with
  | rest abides => exact abides.txn live
  | began _ txns =>
    rw [txns, Table.get?_insert, if_neg (Nat.ne_of_lt (Nat.lt_succ_of_le old))] at live
    exact ⟨t', live, .same t'⟩
  | opened _ _ txns =>
    rw [txns] at live
    exact ⟨t', live, .same t'⟩
  | ended _ txns =>
    rw [txns, Table.get?_erase] at live
    split at live
    · cases live
    · exact ⟨t', live, .same t'⟩

/-- The same for cursors. -/
theorem Traffic.cursor (traffic : Traffic env env') {k : Handle} {c' : Cursor}
    (old : k ≤ env.lastHandle) (here : env'.cursors.get? k = some c') :
    ∃ c, env.cursors.get? k = some c ∧ c'.home = c.home := by
  cases traffic with
  | rest abides => exact abides.cursors here
  | began _ _ cursors =>
    rw [cursors] at here
    exact ⟨c', here, rfl⟩
  | opened _ _ _ cursors =>
    rw [cursors, Table.get?_insert, if_neg (Nat.ne_of_lt (Nat.lt_succ_of_le old))] at here
    exact ⟨c', here, rfl⟩
  | ended _ _ cursors =>
    rw [cursors, Table.get?_filter_eq_some_iff] at here
    exact ⟨c', here.1, rfl⟩

theorem Traffic.denotes (traffic : Traffic env env') {h : Handle} {o : Object}
    (old : h ≤ env.lastHandle) (denotes : env'.Denotes h o) : env.Denotes h o := by
  cases denotes with
  | reader live =>
    obtain ⟨t, was, continues⟩ := traffic.txn old live
    cases continues
    exact .reader was
  | writer live =>
    obtain ⟨t, was, continues⟩ := traffic.txn old live
    cases continues with
    | same => exact .writer was
    | writes => exact .writer was
  | cursor here =>
    obtain ⟨c, was, home⟩ := traffic.cursor old here
    obtain ⟨txn, dbi⟩ := Prod.ext_iff.mp home
    dsimp only [Cursor.home] at txn dbi
    rw [txn, dbi]
    exact .cursor was

/-- What every call keeps of the handles: each is one that was handed out, for a transaction or for
a cursor of a live transaction's, in a database that it has. -/
structure Handled (env : Environment) : Prop where
  txns : ∀ {h t}, env.txns.get? h = some t → h ≤ env.lastHandle
  cursors : ∀ {k c}, env.cursors.get? k = some c → k ≤ env.lastHandle
  apart : ∀ {h t}, env.txns.get? h = some t → env.cursors.get? h = none
  rooted : ∀ {k c}, env.cursors.get? k = some c → ∃ t entries,
    env.txns.get? c.txn = some t ∧ t.snapshot.dbs.get? c.dbi = some entries

theorem new_handled (id : UInt64) (owner : String) (config : EnvConfig) :
    Handled (.new id owner config) := by
  constructor
  case txns => intro h t live; cases live
  case cursors => intro k c here; cases here
  case apart => intro h t live; cases live
  case rooted => intro k c here; cases here

theorem Handled.unused (handled : Handled env) :
    env.cursors.get? (env.lastHandle + 1) = none := by
  cases here : env.cursors.get? (env.lastHandle + 1) with
  | none => rfl
  | some c => exact absurd (handled.cursors here) (Nat.not_succ_le_self env.lastHandle)

theorem Handled.txn_ne (handled : Handled env) {h : Handle} {t : Txn}
    (live : env.txns.get? h = some t) : h ≠ env.lastHandle + 1 :=
  Nat.ne_of_lt (Nat.lt_succ_of_le (handled.txns live))

theorem Handled.rest (handled : Handled env) (abides : Abides env env') : Handled env' := by
  constructor
  case txns =>
    intro h t live
    obtain ⟨t, was, _⟩ := abides.txn live
    rw [abides.last]
    exact handled.txns was
  case cursors =>
    intro k c here
    obtain ⟨c, was, _⟩ := abides.cursors here
    rw [abides.last]
    exact handled.cursors was
  case apart =>
    intro h t live
    obtain ⟨t, was, _⟩ := abides.txn live
    cases here : env'.cursors.get? h with
    | none => rfl
    | some c =>
      obtain ⟨c, stood, _⟩ := abides.cursors here
      rw [handled.apart was] at stood
      cases stood
  case rooted =>
    intro k c' here
    obtain ⟨c, was, home⟩ := abides.cursors here
    obtain ⟨txn, dbi⟩ := Prod.ext_iff.mp home
    dsimp only [Cursor.home] at txn dbi
    obtain ⟨t, entries, live, has⟩ := handled.rooted was
    have stays := abides.txns c.txn
    rw [live] at stays
    cases now : env'.txns.get? c.txn with
    | none =>
      rw [now] at stays
      cases stays
    | some t' =>
      rw [now] at stays
      cases stays with
      | some continues =>
        obtain ⟨entries', has'⟩ := continues.has has
        rw [txn, dbi]
        exact ⟨t', entries', now, has'⟩

theorem Handled.began (handled : Handled env) {t : Txn}
    (last : env'.lastHandle = env.lastHandle + 1)
    (txns : env'.txns = env.txns.insert (env.lastHandle + 1) t)
    (cursors : env'.cursors = env.cursors) : Handled env' := by
  constructor
  case txns =>
    intro h t live
    rw [last]
    rw [txns, Table.get?_insert] at live
    split at live
    · rename_i own
      exact Nat.le_of_eq own
    · exact Nat.le_succ_of_le (handled.txns live)
  case cursors =>
    intro k c here
    rw [cursors] at here
    rw [last]
    exact Nat.le_succ_of_le (handled.cursors here)
  case apart =>
    intro h t live
    rw [cursors]
    rw [txns, Table.get?_insert] at live
    split at live
    · rename_i own
      rw [own]
      exact handled.unused
    · exact handled.apart live
  case rooted =>
    intro k c here
    rw [cursors] at here
    obtain ⟨t, entries, live, has⟩ := handled.rooted here
    rw [txns, Table.get?_insert, if_neg (handled.txn_ne live)]
    exact ⟨t, entries, live, has⟩

theorem Handled.opened (handled : Handled env) {txn : Handle} {dbi : Dbi}
    {found : Contents × Layout} (readable : env.readable txn dbi = .ok found)
    (last : env'.lastHandle = env.lastHandle + 1) (txns : env'.txns = env.txns)
    (cursors : env'.cursors = env.cursors.insert (env.lastHandle + 1) (.new txn dbi)) :
    Handled env' := by
  constructor
  case txns =>
    intro h t live
    rw [txns] at live
    rw [last]
    exact Nat.le_succ_of_le (handled.txns live)
  case cursors =>
    intro k c here
    rw [last]
    rw [cursors, Table.get?_insert] at here
    split at here
    · rename_i own
      exact Nat.le_of_eq own
    · exact Nat.le_succ_of_le (handled.cursors here)
  case apart =>
    intro h t live
    rw [txns] at live
    rw [cursors, Table.get?_insert, if_neg (handled.txn_ne live)]
    exact handled.apart live
  case rooted =>
    intro k c here
    rw [txns]
    rw [cursors, Table.get?_insert] at here
    split at here
    · cases here
      obtain ⟨t, record, live, _, has, _⟩ := readable_eq_ok.mp readable
      exact ⟨t, found.1, live, has⟩
    · exact handled.rooted here

/-- The cursors of a transaction go with it. -/
theorem Handled.ended (handled : Handled env) {h : Handle} (last : env'.lastHandle = env.lastHandle)
    (txns : env'.txns = env.txns.erase h)
    (cursors : env'.cursors = env.cursors.filter fun _ c => c.txn != h) : Handled env' := by
  constructor
  case txns =>
    intro h t live
    rw [last]
    rw [txns, Table.get?_erase] at live
    split at live
    · cases live
    · exact handled.txns live
  case cursors =>
    intro k c here
    rw [last]
    rw [cursors, Table.get?_filter_eq_some_iff] at here
    exact handled.cursors here.1
  case apart =>
    intro h t live
    rw [txns, Table.get?_erase] at live
    split at live
    · cases live
    · cases here : env'.cursors.get? h with
      | none => rfl
      | some c =>
        rw [cursors, Table.get?_filter_eq_some_iff, handled.apart live] at here
        cases here.1
  case rooted =>
    intro k c here
    rw [cursors, Table.get?_filter_eq_some_iff, bne_iff_ne] at here
    obtain ⟨t, entries, live, has⟩ := handled.rooted here.1
    rw [txns, Table.get?_erase, if_neg here.2]
    exact ⟨t, entries, live, has⟩

theorem Traffic.handled (handled : Handled env) (traffic : Traffic env env') : Handled env' := by
  cases traffic with
  | rest abides => exact handled.rest abides
  | began last txns cursors => exact handled.began last txns cursors
  | opened readable last txns cursors => exact handled.opened readable last txns cursors
  | ended last txns cursors => exact handled.ended last txns cursors

theorem reachable_handled (h : Reachable env) : Handled env := by
  obtain ⟨id, owner, config, n, run⟩ := h
  induction run with
  | start => exact new_handled id owner config
  | next call _ step ih => exact (effect_traffic (step_effect step)).handled ih

theorem run_denotes {n : Nat} (run : Run env n env') :
    env.lastHandle ≤ env'.lastHandle ∧
      ∀ {h o}, h ≤ env.lastHandle → env'.Denotes h o → env.Denotes h o := by
  induction run with
  | start => exact ⟨Nat.le_refl _, fun _ denotes => denotes⟩
  | next call _ step ih =>
    obtain ⟨later, stood⟩ := ih
    have traffic := effect_traffic (step_effect step)
    refine ⟨Nat.le_trans later traffic.last_le, fun old denotes => ?_⟩
    exact stood old (traffic.denotes (Nat.le_trans old later) denotes)

/-- What is over stays over. -/
theorem Spent.run {n : Nat} {g : Handle} (spent : env.Spent g) (run : Run env n env') :
    env'.Spent g := by
  obtain ⟨later, stood⟩ := run_denotes run
  constructor
  · exact Nat.le_trans spent.issued later
  · intro o denotes
    exact spent.empty o (stood spent.issued denotes)

theorem Handled.denotes_le (handled : Handled env) {h : Handle} {o : Object}
    (denotes : env.Denotes h o) : h ≤ env.lastHandle := by
  cases denotes with
  | reader live | writer live => exact handled.txns live
  | cursor here => exact handled.cursors here

/-- A handle never stands for two objects. -/
theorem Handled.denotes_one (handled : Handled env) {h : Handle} {o o' : Object}
    (one : env.Denotes h o) (other : env.Denotes h o') : o = o' := by
  cases one with
  | reader live =>
    cases other with
    | reader live' =>
      rw [live] at live'
      cases live'
      rfl
    | writer live' =>
      rw [live] at live'
      cases live'
    | cursor here =>
      rw [handled.apart live] at here
      cases here
  | writer live =>
    cases other with
    | reader live' =>
      rw [live] at live'
      cases live'
    | writer => rfl
    | cursor here =>
      rw [handled.apart live] at here
      cases here
  | cursor here =>
    cases other with
    | reader live | writer live =>
      rw [handled.apart live] at here
      cases here
    | cursor here' =>
      rw [here] at here'
      cases here'
      rfl

/-! ## The counter -/

/-- The handle that a call hands out, if it does. -/
def issued (env : Environment) : Call → Option Handle
  | .txnBegin parent flags thread =>
    let reply := env.txnBegin parent flags thread
    if reply.ended = .success then some reply.out else none
  | .cursorOpen txn dbi =>
    let reply := env.cursorOpen txn dbi
    if reply.ended = .success then some reply.out else none
  | _ => none

theorem step_issued {call : Call} (step : Step call env env') :
    (env.issued call = none ∧ env'.lastHandle = env.lastHandle) ∨
      (env.issued call = some (env.lastHandle + 1) ∧ env'.lastHandle = env.lastHandle + 1) := by
  cases call with
  | txnBegin parent flags thread =>
    obtain ⟨_, made⟩ := step
    cases made
    obtain ⟨s, failed, refused⟩ | ⟨_, _, _, _, begun⟩ | ⟨_, _, begun⟩ :=
      txnBegin_cases env parent flags thread
    · refine .inl ⟨?_, by rw [refused]⟩
      simp [issued, refused, failed]
    · refine .inr ⟨?_, by rw [begun]; rfl⟩
      simp [issued, begun]
    · refine .inr ⟨?_, by rw [begun]; rfl⟩
      simp [issued, begun]
  | cursorOpen txn dbi =>
    obtain ⟨_, made⟩ := step
    cases made
    obtain ⟨s, failed, refused⟩ | ⟨_, _, opened⟩ := cursorOpen_cases env txn dbi
    · refine .inl ⟨?_, by rw [refused]⟩
      simp [issued, refused, failed]
    · refine .inr ⟨?_, by rw [opened]⟩
      simp [issued, opened]
  | _ =>
    obtain same | ⟨hands, _⟩ := (effect_grows (step_effect step)).handle
    · exact .inl ⟨rfl, same⟩
    · cases hands

/-- Calls lead from one environment to another, and these are the handles that they hand out. -/
inductive Issues (env : Environment) : List Handle → Environment → Prop
  | start : Issues env [] env
  | next {handles : List Handle} {e e' : Environment} (call : Call) :
      Issues env handles e → Step call e e' →
      Issues env (handles ++ (e.issued call).toList) e'

theorem Issues.increase {handles : List Handle} (issues : Issues env handles env') :
    (∀ h ∈ handles, env.lastHandle < h ∧ h ≤ env'.lastHandle) ∧
      handles.Pairwise (· < ·) ∧ env.lastHandle ≤ env'.lastHandle := by
  induction issues with
  | start => exact ⟨nofun, .nil, Nat.le_refl _⟩
  | @next handles e e' call _ step ih =>
    obtain ⟨between, increasing, later⟩ := ih
    obtain ⟨none, same⟩ | ⟨one, last⟩ := step_issued step
    · rw [none, Option.toList_none, List.append_nil, same]
      exact ⟨between, increasing, later⟩
    · rw [one, Option.toList_some, last]
      refine ⟨fun h there => ?_, ?_, Nat.le_succ_of_le later⟩
      · obtain there | there := List.mem_append.mp there
        · exact ⟨(between h there).1, Nat.le_succ_of_le (between h there).2⟩
        · rw [List.mem_singleton.mp there]
          exact ⟨Nat.lt_succ_of_le later, Nat.le_refl _⟩
      · apply List.pairwise_append.mpr
        refine ⟨increasing, List.pairwise_singleton _ _, fun h there k new => ?_⟩
        rw [List.mem_singleton.mp new]
        exact Nat.lt_succ_of_le (between h there).2

end

end Environment

end CollatedStore
