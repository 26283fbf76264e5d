import CollatedStore.Proofs.Environment.Ordering
import CollatedStore.Proofs.Environment.Places

/-!
Numbers that fit in a machine word. While a store holds fewer bytes, databases and handles than its
words can tell, nothing that a call works out from them is too large, and no check of it fails.
-/
namespace CollatedStore

/-- The largest number that a machine word can tell. -/
def maxWord : Nat := 2 ^ 64 - 1

/-- Does the call hand out a handle when it succeeds? -/
def Call.handsOut : Call → Bool
  | .txnBegin .. => true
  | .cursorOpen .. => true
  | _ => false

/-- Does the call create the database that it does not find, when it is asked to? -/
def Call.creates : Call → Bool
  | .dbiOpen .. => true
  | _ => false

namespace Environment

/-! ## Counters -/

/-- What a call may add: one handle, or one database. -/
structure Grows (call : Call) (env env' : Environment) : Prop where
  config : env'.config = env.config
  handle : env'.lastHandle = env.lastHandle ∨
    call.handsOut = true ∧ env'.lastHandle = env.lastHandle + 1
  database : env'.catalog.length = env.catalog.length ∨
    call.creates = true ∧ env'.catalog.length = env.catalog.length + 1

section
variable {env env' : Environment} {call : Call}

theorem Grows.refl (call : Call) (env : Environment) : Grows call env env :=
  ⟨rfl, .inl rfl, .inl rfl⟩

theorem Grows.handle_le (h : Grows call env env') : env.lastHandle ≤ env'.lastHandle := by
  obtain same | ⟨_, next⟩ := h.handle
  · exact Nat.le_of_eq same.symm
  · rw [next]
    exact Nat.le_succ env.lastHandle

theorem Grows.database_le (h : Grows call env env') :
    env.catalog.length ≤ env'.catalog.length := by
  obtain same | ⟨_, next⟩ := h.database
  · exact Nat.le_of_eq same.symm
  · rw [next]
    exact Nat.le_succ env.catalog.length

theorem touched_grows (h : Touched env env') : Grows call env env' := by
  induction h with
  | same => exact .refl call env
  | wrote _ _ => exact ⟨rfl, .inl rfl, .inl rfl⟩
  | moved _ _ _ _ ih => exact ⟨ih.config, ih.handle, ih.database⟩

theorem createDb_grows (env : Environment) (txn : Handle) (snapshot : Snapshot)
    (name : Option String) (flags : DbFlags) (creates : call.creates = true) :
    Grows call env (env.createDb txn snapshot name flags).store := by
  unfold createDb
  cases env.catalog.find? name with
  | some dbi => exact ⟨rfl, .inl rfl, .inl (by simp [Catalog.modify])⟩
  | none =>
    dsimp only
    split
    · exact .refl call env
    · exact ⟨rfl, .inl rfl, .inr ⟨creates, by simp [Catalog.modify]⟩⟩

theorem finish_grows {h : Handle} {t : Txn} (ended : env.finish h = some (t, env')) :
    Grows call env env' := by
  obtain ⟨u, _, same⟩ := Option.map_eq_some_iff.mp ended
  cases same
  exact ⟨rfl, .inl rfl, .inl rfl⟩

theorem effect_grows (effect : Effect env call env') : Grows call env env' := by
  have same := Grows.refl call env
  cases effect with
  | txnBegin parent flags thread =>
    obtain ⟨_, _, refused⟩ | ⟨_, _, _, _, begun⟩ | ⟨_, _, begun⟩ :=
      txnBegin_cases env parent flags thread
    · rw [refused]; exact same
    · rw [begun]; exact ⟨rfl, .inr ⟨rfl, rfl⟩, .inl rfl⟩
    · rw [begun]; exact ⟨rfl, .inr ⟨rfl, rfl⟩, .inl rfl⟩
  | txnCommit txn =>
    unfold txnCommit
    split
    · exact same
    · rename_i ended
      exact finish_grows ended
    · rename_i ended
      have grown : Grows (.txnCommit txn) _ _ := finish_grows ended
      exact ⟨grown.config, grown.handle, grown.database⟩
  | txnAbort txn =>
    unfold txnAbort
    split
    · exact same
    · rename_i ended
      exact finish_grows ended
  | dbiOpen txn name flags =>
    obtain unchanged | ⟨snapshot, wanted, _, _, created⟩ := dbiOpen_cases env txn name flags
    · rw [unchanged]; exact same
    · rw [created]; exact createDb_grows env txn snapshot name wanted rfl
  | setOrder role txn dbi fn =>
    unfold setOrder
    split
    · exact ⟨rfl, .inl rfl, .inl (by simp [Catalog.modify])⟩
    · exact same
  | cursorOpen txn dbi =>
    unfold cursorOpen
    split
    · exact same
    · exact ⟨rfl, .inr ⟨rfl, rfl⟩, .inl rfl⟩
  | cursorClose cursor => exact ⟨rfl, .inl rfl, .inl rfl⟩
  | touched _ touched => exact touched_grows touched

/-- A snapshot's number is one that was held before, or the committed one's successor, under a new
handle. -/
theorem Shift.number {published : Bool} {s : Snapshot} (shift : Shift env published env')
    (holds : env'.Holds s) : (∃ s₀, env.Holds s₀ ∧ s.txnId = s₀.txnId) ∨
      s.txnId = env.committed.txnId + 1 ∧ env'.lastHandle = env.lastHandle + 1 := by
  cases shift with
  | rest txns committed => exact .inl ⟨s, holds.rest txns committed, rfl⟩
  | @write _ h s₀ s' was number txns committed =>
    obtain rfl | held := holds.insert txns committed
    · exact .inl ⟨s₀, writer_holds was, number⟩
    · exact .inl ⟨s, held, rfl⟩
  | beginRead slot txns committed =>
    obtain rfl | held := holds.insert txns committed
    · exact .inl ⟨env.committed, .inl rfl, rfl⟩
    · exact .inl ⟨s, held, rfl⟩
  | beginWrite _ txns committed _ last =>
    obtain rfl | held := holds.insert txns committed
    · exact .inr ⟨rfl, last⟩
    · exact .inl ⟨s, held, rfl⟩
  | finish _ txns committed =>
    exact .inl ⟨s, holds.erase txns (.inl committed), rfl⟩
  | commit was txns committed =>
    exact .inl ⟨s, holds.erase txns (committed ▸ writer_holds was), rfl⟩

/-- No snapshot's number is greater than the last handle: each new one came with a new handle. -/
def Numbered (env : Environment) : Prop := ∀ s, env.Holds s → s.txnId ≤ env.lastHandle

theorem step_numbered (numbered : Numbered env) (step : Step call env env') : Numbered env' := by
  intro s holds
  have effect := step_effect step
  have last := (effect_grows effect).handle_le
  obtain ⟨s₀, held, same⟩ | ⟨next, entered⟩ := (effect_shift effect).number holds
  · rw [same]
    exact Nat.le_trans (numbered s₀ held) last
  · rw [next, entered]
    exact Nat.succ_le_succ (numbered env.committed (.inl rfl))

end

/-! ## Bounded runs -/

/-- Fewer bytes than half a word can tell, and fewer databases and handles than there are numbers
for them. -/
structure Bounded (env : Environment) : Prop where
  bytes : ∀ s, env.Holds s → s.used < 2 ^ 63
  databases : env.catalog.length < 2 ^ 32
  handles : env.lastHandle < 2 ^ 64

/-- Calls lead to this environment from a new one, all along within bounds. -/
inductive BoundedRun : Environment → Prop
  | start (id : UInt64) (owner : String) (config : EnvConfig) :
      BoundedRun (.new id owner config)
  | next {env env' : Environment} (call : Call) (run : BoundedRun env) (step : Step call env env')
      (bounded : Bounded env') : BoundedRun env'

/-- What an environment keeps within bounds. -/
structure Exact (env : Environment) : Prop where
  bounded : Bounded env
  numbered : Numbered env
  root : 0 < env.catalog.length
  places : ∀ {k c p}, env.cursors.get? k = some c → c.place = some p → p.entry < 2 ^ 63

theorem BoundedRun.reachable {env : Environment} (run : BoundedRun env) : Reachable env := by
  induction run with
  | start id owner config => exact ⟨id, owner, config, 0, .start⟩
  | next call _ step _ ih => exact ih.next call step

theorem new_exact (id : UInt64) (owner : String) (config : EnvConfig) :
    Exact (.new id owner config) := by
  have only : ∀ s, (Environment.new id owner config).Holds s → s.used = 0 ∧ s.txnId = 0 := by
    rintro s (rfl | ⟨h, t, live, rfl⟩)
    · exact ⟨rfl, rfl⟩
    · cases live
  constructor
  case bounded =>
    refine ⟨fun s holds => ?_, (by decide : 1 < 2 ^ 32), (by decide : 0 < 2 ^ 64)⟩
    rw [(only s holds).1]
    decide
  case numbered => exact fun s holds => Nat.le_of_eq (only s holds).2
  case root => exact Nat.one_pos
  case places =>
    intro k c p here
    cases here

/-- A place among entries that are held is bounded by the bytes in use. -/
theorem Near.lt {env : Environment} {txn : Handle} {dbi : Dbi} {p : Place}
    (balanced : Balanced env) (bounded : Bounded env) (near : env.Near txn dbi p) :
    p.entry < 2 ^ 63 := by
  obtain ⟨entries, layout, readable, among⟩ := near
  unfold Environment.readable at readable
  split at readable
  · rename_i t record live _
    split at readable
    · rename_i stored
      cases readable
      have bytes := bounded.bytes t.snapshot (.inr ⟨txn, t, live, rfl⟩)
      have few := (balanced.live live).length_le stored
      omega
    · cases readable
  · cases readable

theorem Exact.step {env env' : Environment} {call : Call} (exact : Exact env)
    (reached : Reachable env) (step : Step call env env') (bounded : Bounded env') :
    Exact env' where
  bounded := bounded
  numbered := step_numbered exact.numbered step
  root := Nat.lt_of_lt_of_le exact.root (effect_grows (step_effect step)).database_le
  places {k c p} here stands := by
    obtain ⟨c₀, stood, same⟩ | near :=
      step_settled (reachable_balanced reached) step k c p here stands
    · exact exact.places stood same
    · exact near.lt (reachable_balanced (reached.next call step)) bounded

theorem BoundedRun.exact {env : Environment} (run : BoundedRun env) : Exact env := by
  induction run with
  | start id owner config => exact new_exact id owner config
  | next call run step bounded ih => exact ih.step run.reachable step bounded

/-- Where the map is no larger, only the databases and handles at the end matter. -/
theorem Reachable.bounded {env : Environment} (reached : Reachable env)
    (map : env.config.mapSize < 2 ^ 63) (databases : env.catalog.length < 2 ^ 32)
    (handles : env.lastHandle < 2 ^ 64) : BoundedRun env := by
  obtain ⟨id, owner, config, n, run⟩ := reached
  induction run with
  | start => exact .start id owner config
  | @next n env env' call run step ih =>
    have grown := effect_grows (step_effect step)
    have before := ih (grown.config ▸ map) (Nat.lt_of_le_of_lt grown.database_le databases)
      (Nat.lt_of_le_of_lt grown.handle_le handles)
    have accounted := snapshots_accounted (before.reachable.next call step)
    refine before.next call step ⟨fun s holds => ?_, databases, handles⟩
    obtain rfl | ⟨h, t, live, rfl⟩ := holds
    · exact Nat.lt_of_le_of_lt accounted.1.room map
    · exact Nat.lt_of_le_of_lt (accounted.2 h t live).room map

/-! ## Sums -/

/-- Only the room that is left depends on the size of the map. -/
theorem accounted_in {layout : Layout} {limit limit' rest : Nat} {h : Holding}
    (ok : Holding.Accounted layout limit rest h) (room : h.used ≤ limit') :
    Holding.Accounted layout limit' rest h :=
  ⟨ok.entries, ok.used, room⟩

theorem word_room {used more : Nat} (held : used < 2 ^ 63) (given : more < 2 ^ 63) :
    used + more ≤ maxWord := by
  unfold maxWord
  omega

/-- However large the map, a word can tell how much of it a write takes. -/
theorem write_fits {env : Environment} (balanced : Balanced env) (bounded : Bounded env)
    {db : Opened} {w : Write} (writable : env.writable db.txn db.dbi = .ok db)
    (admitted : w.Admitted db) (given : w.bytes < 2 ^ 63) :
    ¬(w.work db maxWord).run.Yields (.error (.status .mapFull)) := by
  intro full
  have held : db.holding.used < 2 ^ 63 :=
    bounded.bytes db.snapshot (writer_holds (writable_was writable).1)
  have room := word_room held given
  have ok := accounted_in (writable_accounted balanced writable)
    (Nat.le_trans (Nat.le_add_right _ _) room)
  have checked : Work.Ensures True (w.work db maxWord) _ := Write.ensures ok admitted fun _ => room
  exact (checked.stop full).2.2 trivial rfl

/-- So it can when other records of the page are stored already. -/
theorem record_fits {env : Environment} (balanced : Balanced env) {db : Opened} {h : Holding}
    {rule : PutRule} {key record : Bytes} (writable : env.writable db.txn db.dbi = .ok db)
    (stored : Holding.Changes (fun _ _ => True) db.layout env.config.mapSize db.holding h)
    (held : h.used < 2 ^ 63) (given : key.length + record.length < 2 ^ 63) :
    ¬(h.put db.layout maxWord rule key record).run.Yields (.error (.status .mapFull)) := by
  intro full
  have room := word_room held given
  have ok := accounted_in (stored.edits.accounted (writable_accounted balanced writable))
    (Nat.le_trans (Nat.le_add_right _ _) room)
  have checked : Work.Ensures True (h.put db.layout maxWord rule key record) _ :=
    Holding.ensures_put ok fun _ => room
  exact (checked.stop full).2.2 trivial rfl

/-! ## Pages of records -/

theorem putRecords_written {may : Question → Ordering → Prop} {layout : Layout} {limit : Nat}
    {rule : PutRule} {key : Bytes} {records : List Bytes} {progress progress' : Progress}
    {outcome : Outcome}
    (put : (putRecords layout limit rule key records progress).YieldsBy may (outcome, progress')) :
    progress'.written ≤ progress.written + records.length := by
  induction records generalizing progress with
  | nil =>
    cases put
    exact Nat.le_refl _
  | cons record rest ih =>
    obtain ⟨result, _, put⟩ := Inquiry.yieldsBy_bind.mp put
    cases result with
    | ok placed =>
      have counted := ih put
      rw [List.length_cons]
      dsimp only at counted
      omega
    | error stop =>
      cases put
      exact Nat.le_add_right _ _

/-- No more records are counted than were asked for. -/
theorem batch_count_le {env : Environment} {cursor : Handle} {key : Option Descriptor}
    {page : Bytes} {count stride : Nat} {flags : UInt32} {reply : Reply Outcome Environment Nat}
    (made : (env.cursorPutMany cursor key page count stride flags).Yields reply) :
    reply.out ≤ count := by
  cases cursorPutMany_ended (Inquiry.yields_iff.mp made) with
  | refused => exact Nat.le_refl _
  | unfit => exact Nat.le_refl _
  | made _ _ _ _ put =>
    have counted := putRecords_written put
    simpa [Records.front] using counted

/-! ## The next call -/

/-- What is sure of the next call, whatever it is and whatever is answered. -/
structure Checked (env : Environment) : Prop where
  /-- No index is out of range and nothing is taken from less: but for the step back, each call ends
  with a status. -/
  unbroken : ∀ {call outcome env'}, call.stepsBack = false →
    (env.perform call).Yields (outcome, env') → ∃ s, outcome = .ok s
  /-- What a move reports is stored where its cursor comes to stand. -/
  reports : ∀ {cursor key data op reply}, op ≠ CursorOp.prev.code →
    (env.cursorGet cursor key data op).Yields reply → reply.ended = .ok .success →
    ∃ c entries layout p k v, env.admitMove cursor = .ok (c, entries, layout) ∧
      entries.holds p = true ∧ entries.Reports p k v ∧
      reply.out = (key.map fun _ => .filled k, data.map fun _ => .filled v) ∧
      reply.store = env.setCursor cursor { c with place := some p, deleted := false }
  /-- A word can tell the bytes in use after a write, and would in the largest of maps. -/
  writes : ∀ {db : Opened} {w : Write}, env.writable db.txn db.dbi = .ok db → w.Admitted db →
    w.bytes < 2 ^ 63 → ¬(w.work db maxWord).run.Yields (.error (.status .mapFull))
  /-- The same for each record of a page, with those before it stored. -/
  records : ∀ {db : Opened} {h rule key record}, env.writable db.txn db.dbi = .ok db →
    Holding.Changes (fun _ _ => True) db.layout env.config.mapSize db.holding h →
    h.used < 2 ^ 63 → key.length + record.length < 2 ^ 63 →
    ¬(h.put db.layout maxWord rule key record).run.Yields (.error (.status .mapFull))
  /-- A page is not read past its end, and no more records are counted than asked for. -/
  pages : ∀ {cursor key page count stride flags reply}, count * stride ≤ page.length →
    (env.cursorPutMany cursor key page count stride flags).Yields reply →
    reply.out ≤ count ∧ ∀ record ∈ Records.front count stride page, record.length = stride
  /-- The entry after the one where a cursor was left has a number. -/
  places : ∀ {k c p}, env.cursors.get? k = some c → c.place = some p → p.entry + 1 ≤ maxWord
  /-- The counters of handles and of snapshots do not run over, as long as there is a handle left for
  a call that hands one out. -/
  handles : ∀ {call outcome env'}, (env.perform call).Yields (outcome, env') →
    (call.handsOut = true → env.lastHandle < maxWord) →
    env'.lastHandle ≤ maxWord ∧ ∀ s, env'.Holds s → s.txnId ≤ maxWord
  /-- Nor does the count of databases, by which they are numbered, as long as there is a number left
  for one that is created. -/
  databases : ∀ {call outcome env'}, (env.perform call).Yields (outcome, env') →
    (call.creates = true → env.catalog.length + 1 < 2 ^ 32) → env'.catalog.length < 2 ^ 32
  /-- The root is listed, and so is every database that is found by its name. -/
  listed : 0 < env.catalog.length ∧ ∀ {name dbi}, env.catalog.find? name = some dbi →
    ∃ record, env.catalog.get? dbi = some record

/-- **No check of a call fails** in an environment that calls have led to within bounds, wherever
they have left its cursors, except for what the step back may read. -/
theorem no_check_fails {env : Environment} (run : BoundedRun env) : Checked env := by
  have balanced := reachable_balanced run.reachable
  have exact := run.exact
  constructor
  case unbroken => exact fun other made => perform_unbroken balanced other made
  case reports => exact fun other made succeeded => cursorGet_reports balanced other made succeeded
  case writes =>
    exact fun writable admitted given => write_fits balanced exact.bounded writable admitted given
  case records =>
    exact fun writable stored held given => record_fits balanced writable stored held given
  case pages => exact fun fits made => ⟨batch_count_le made, Records.length_of_mem_front fits⟩
  case places =>
    intro k c p here stands
    have near := exact.places here stands
    unfold maxWord
    omega
  case handles =>
    intro call outcome env' made left
    have step : Step call env env' := ⟨outcome, made⟩
    have last : env'.lastHandle ≤ maxWord := by
      obtain same | ⟨handsOut, next⟩ := (effect_grows (step_effect step)).handle
      · rw [same]
        exact Nat.le_sub_one_of_lt exact.bounded.handles
      · rw [next]
        exact left handsOut
    have numbered := step_numbered exact.numbered step
    exact ⟨last, fun s holds => Nat.le_trans (numbered s holds) last⟩
  case databases =>
    intro call outcome env' made left
    obtain same | ⟨creates, next⟩ := (effect_grows (step_effect ⟨outcome, made⟩)).database
    · rw [same]
      exact exact.bounded.databases
    · rw [next]
      exact left creates
  case listed =>
    refine ⟨exact.root, fun {name dbi} found => ?_⟩
    obtain ⟨_, record, _, listed⟩ := Catalog.find?_listed found
    exact ⟨record, listed⟩

/-- A step back that broke off has left its cursor where no item is. -/
theorem no_check_fails_after_a_step_back :
    ∃ env env', BoundedRun env ∧
      (env.perform (.cursorGet 2 none (some .empty) CursorOp.prev.code)).Yields
        (.error (.index 1 1), env') ∧
      env'.cursors.get? 2 = some ⟨1, 2, some ⟨0, 1⟩, false⟩ ∧
      BoundedRun env' ∧ Checked env' := by
  have start : Reachable (Environment.new 1 "" {}) := ⟨1, "", {}, 0, .start⟩
  have begun := start.next (.txnBegin none 0) ⟨_, .done _⟩
  have opened := begun.next (.dbiOpen 1 (some "values") (Flags.dupSort ||| Flags.create))
    ⟨_, .done _⟩
  have first := opened.next (.put 1 2 (some (.filled [1])) (some (.filled [5])) 0) ⟨_, .done _⟩
  have second := first.next (.put 1 2 (some (.filled [1])) (some (.filled [6])) 0) ⟨_, .done _⟩
  have third := second.next (.put 1 2 (some (.filled [1])) (some (.filled [7])) 0) ⟨_, .done _⟩
  have cursor := third.next (.cursorOpen 1 2) ⟨_, .done _⟩
  have moved := cursor.next (.cursorGet 2 none none CursorOp.last.code) ⟨_, .done _⟩
  have fewer := moved.next (.del 1 2 (some (.filled [1])) (some (.filled [7]))) ⟨_, .done _⟩
  have stale := fewer.next (.del 1 2 (some (.filled [1])) (some (.filled [6]))) ⟨_, .done _⟩
  obtain ⟨env, env', reached, broken, place, sizes, sizes'⟩ : ∃ env env', Reachable env ∧
      (env.perform (.cursorGet 2 none (some .empty) CursorOp.prev.code)).Yields
        (.error (.index 1 1), env') ∧
      env'.cursors.get? 2 = some ⟨1, 2, some ⟨0, 1⟩, false⟩ ∧
      (env.config.mapSize, env.catalog.length, env.lastHandle) = (10485760, 2, 2) ∧
      (env'.config.mapSize, env'.catalog.length, env'.lastHandle) = (10485760, 2, 2) :=
    ⟨_, _, stale, .done _, rfl, rfl, rfl⟩
  have small : ∀ {e : Environment}, Reachable e →
      (e.config.mapSize, e.catalog.length, e.lastHandle) = (10485760, 2, 2) → BoundedRun e := by
    intro e reached sizes
    simp only [Prod.mk.injEq] at sizes
    obtain ⟨map, databases, handles⟩ := sizes
    refine reached.bounded ?_ ?_ ?_
    · rw [map]; decide
    · rw [databases]; decide
    · rw [handles]; decide
  have run := small reached sizes
  have run' := small (reached.next _ ⟨_, broken⟩) sizes'
  exact ⟨env, env', run, broken, place, run', no_check_fails run'⟩

end Environment

end CollatedStore
