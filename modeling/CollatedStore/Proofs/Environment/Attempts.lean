import CollatedStore.Proofs.Environment.Admission
import CollatedStore.Proofs.Writes

/-!
Calls that make one write. They are refused before they ask anything, or they do their work on one
database, and what the work comes to decides everything else.
-/
namespace CollatedStore.Environment

/-! ## Writes -/

/-- A write on a database that is open for writing. -/
inductive Write where
  | put (rule : PutRule) (key value : Bytes)
  | replace (c : Cursor) (key value : Bytes)
  | remove (key : Bytes) (value : Option Bytes)
  | removeAt (p : Place) (all : Bool)

namespace Write

/-- What the write makes of the database. -/
def work (db : Opened) (limit : Nat) : Write → Work Holding
  | put rule key value => (·.2) <$> db.holding.put db.layout limit rule key value
  | replace c key value => (·.2) <$> replaceCurrent c db limit key value
  | remove key value => db.holding.remove db.layout key value
  | removeAt p all => (·.2) <$> db.holding.removeAt p all

/-- What a call has made sure of by the time it writes. -/
def Admitted (db : Opened) : Write → Prop
  | put _ key _ => validKey key = true
  | replace _ _ _ => True
  | remove _ _ => True
  | removeAt p all => db.entries.holds p = true ∧ (all = false → db.layout.flags.dupSort = true)

theorem replaceCurrent_placed {may : Question → Ordering → Prop} {c : Cursor} {db : Opened}
    {limit : Nat} {key value : Bytes} {p : Place} {holding : Holding}
    (put : (replaceCurrent c db limit key value).run.YieldsBy may (.ok (p, holding))) :
    Holding.Placed may db.layout limit db.holding p holding := by
  unfold replaceCurrent at put
  split at put
  · cases put
  · obtain ⟨e, _, put⟩ := Work.yieldsBy_bind.mp put
    obtain ⟨o, _, put⟩ := Work.yieldsBy_bind.mp put
    cases o with
    | eq => exact Holding.replaceAt_placed put
    | lt | gt => cases put

theorem earnest_replaceCurrent {c : Cursor} {db : Opened} {limit : Nat} {key value : Bytes} :
    Work.Earnest db.entries (replaceCurrent c db limit key value) := by
  unfold replaceCurrent
  split
  · exact Work.earnest_refuse (by decide)
  · refine (Work.earnest_itemAt _ _).bind fun e => (Work.earnest_compare _ _ _).bind fun o => ?_
    cases o with
    | eq => exact Holding.earnest_replaceAt
    | lt | gt => exact Work.earnest_refuse (by decide)

/-- A write that gets through changes the holding once. -/
theorem change {may : Question → Ordering → Prop} {db : Opened} {w : Write} {limit : Nat}
    {holding : Holding} (admitted : w.Admitted db)
    (made : (w.work db limit).run.YieldsBy may (.ok holding)) :
    Holding.Change may db.layout limit db.holding holding := by
  cases w with
  | put rule key value =>
    obtain ⟨result, put, rfl⟩ := Work.yieldsBy_map_ok.mp made
    exact (Holding.put_placed admitted put).change
  | replace c key value =>
    obtain ⟨result, put, rfl⟩ := Work.yieldsBy_map_ok.mp made
    exact (replaceCurrent_placed put).change
  | remove key value => exact Holding.remove_change made
  | removeAt p all =>
    obtain ⟨result, removed, rfl⟩ := Work.yieldsBy_map_ok.mp made
    exact (Holding.removeAt_change removed admitted.2).1

end Write

/-! ## One pair through a cursor -/

section
variable {may : Question → Ordering → Prop} {c : Cursor} {db : Opened} {limit : Nat}
  {flags : UInt32} {key value : Bytes}

/-- Many values are not written as one. -/
theorem writePair_multiple (many : Flags.has flags Flags.multiple = true) :
    writePair c db limit flags key value = Work.refuse .invalid :=
  if_pos many

theorem writePair_current (single : Flags.has flags Flags.multiple = false)
    (asked : Flags.has flags Flags.current = true) :
    writePair c db limit flags key value = replaceCurrent c db limit key value := by
  simp [writePair, single, asked]

theorem writePair_put (single : Flags.has flags Flags.multiple = false)
    (plain : Flags.has flags Flags.current = false) :
    writePair c db limit flags key value =
      db.holding.put db.layout limit (.ofFlags flags) key value := by
  simp [writePair, single, plain]

theorem writePair_placed {p : Place} {holding : Holding} (valid : validKey key = true)
    (put : (writePair c db limit flags key value).run.YieldsBy may (.ok (p, holding))) :
    Holding.Placed may db.layout limit db.holding p holding := by
  unfold writePair at put
  split at put
  · cases put
  · split at put
    · exact Write.replaceCurrent_placed put
    · exact Holding.put_placed valid put

theorem earnest_writePair : Work.Earnest db.entries (writePair c db limit flags key value) := by
  unfold writePair
  split
  · exact Work.earnest_refuse (by decide)
  · split
    · exact Write.earnest_replaceCurrent
    · exact Holding.earnest_put

/-- What is not refused for its flags is one of the writes. -/
theorem Write.of_writePair {result : Except Stop (Place × Holding)} (valid : validKey key = true)
    (made : (writePair c db limit flags key value).run.YieldsBy may result) :
    result = .error (.status .invalid) ∨ ∃ w : Write, w.Admitted db ∧
      (w.work db limit).run.YieldsBy may (result.map Prod.snd) := by
  unfold writePair at made
  split at made
  · cases made
    exact .inl rfl
  · split at made
    · exact .inr ⟨.replace c key value, trivial, Work.yieldsBy_map.mpr ⟨result, made, rfl⟩⟩
    · exact .inr ⟨.put (.ofFlags flags) key value, valid,
        Work.yieldsBy_map.mpr ⟨result, made, rfl⟩⟩

end

/-! ## Places -/

/-- The place is among the entries of a database as a transaction finds them, or just past the last
of them. -/
def Near (env : Environment) (txn : Handle) (dbi : Dbi) (p : Place) : Prop :=
  ∃ entries layout, env.readable txn dbi = .ok (entries, layout) ∧ p.entry ≤ entries.length

section
variable {env : Environment} {txn : Handle} {dbi : Dbi} {db : Opened} {holding : Holding} {p : Place}

theorem readable_of_writable (h : env.writable txn dbi = .ok db) :
    env.readable txn dbi = .ok (db.entries, db.layout) := by
  obtain ⟨snapshot, record, entries, was, listed, stored, rfl⟩ := writable_eq_ok.mp h
  simp [readable, was, listed, Txn.snapshot, stored]

theorem readable_keep (h : env.writable txn dbi = .ok db) (holding : Holding) :
    (env.keep db holding).readable txn dbi = .ok (holding.entries, db.layout) := by
  obtain ⟨snapshot, record, entries, was, listed, stored, rfl⟩ := writable_eq_ok.mp h
  simp [readable, keep, listed, Txn.snapshot]

theorem Near.of_writable (h : env.writable txn dbi = .ok db) (near : p.entry ≤ db.entries.length) :
    env.Near txn dbi p :=
  ⟨db.entries, db.layout, readable_of_writable h, near⟩

theorem Near.of_keep (h : env.writable txn dbi = .ok db)
    (near : p.entry ≤ holding.entries.length) : (env.keep db holding).Near txn dbi p :=
  ⟨holding.entries, db.layout, readable_keep h holding, near⟩

end

/-- The database that a call may write to. -/
def subject (env : Environment) : Call → Option Dbi
  | .put _ dbi _ _ _ => some dbi
  | .del _ dbi _ _ => some dbi
  | .cursorPut cursor _ _ _ => (env.cursors.get? cursor).map (·.dbi)
  | .cursorPutMany cursor _ _ _ _ _ => (env.cursors.get? cursor).map (·.dbi)
  | .cursorDel cursor _ => (env.cursors.get? cursor).map (·.dbi)
  | _ => none

end Environment

/-- The cursor that a call goes through. -/
def Call.cursor : Call → Option Handle
  | .cursorGet cursor _ _ _ => some cursor
  | .cursorPut cursor _ _ _ => some cursor
  | .cursorPutMany cursor _ _ _ _ _ => some cursor
  | .cursorDel cursor _ => some cursor
  | _ => none

namespace Environment

/-- How a call that makes one write ends, under the answers that `may` allows: it is refused before
it asks anything, or as the write ends. Its cursor may move, no further than to the end. -/
inductive Attempted (may : Question → Ordering → Prop) (env : Environment) (call : Call) :
    Outcome → Environment → Prop
  | refused {s : Status} : Attempted may env call (.ok s) env
  | wrote {db : Opened} {w : Write} {holding : Holding}
      (writable : env.writable db.txn db.dbi = .ok db) (subject : env.subject call = some db.dbi)
      (admitted : w.Admitted db)
      (made : (w.work db env.config.mapSize).run.YieldsBy may (.ok holding)) :
      Attempted may env call (.ok .success) (env.keep db holding)
  | stopped {db : Opened} {w : Write} {stop : Stop}
      (writable : env.writable db.txn db.dbi = .ok db) (admitted : w.Admitted db)
      (made : (w.work db env.config.mapSize).run.YieldsBy may (.error stop)) :
      Attempted may env call stop.outcome env
  | moved {outcome : Outcome} {env' : Environment} {h : Handle} {c c' : Cursor}
      (rest : Attempted may env call outcome env') (own : call.cursor = some h)
      (here : env.cursors.get? h = some c) (txn : c'.txn = c.txn) (dbi : c'.dbi = c.dbi)
      (place : ∀ p, c'.place = some p → c.place = some p ∨ env'.Near c.txn c.dbi p) :
      Attempted may env call outcome (env'.setCursor h c')

section
variable {may : Question → Ordering → Prop} {env env' : Environment} {txn cursor : Handle}
  {dbi : Dbi} {key data : Option Descriptor} {flags : UInt32} {outcome : Outcome}

theorem put_attempted
    (h : (env.perform (.put txn dbi key data flags)).YieldsBy may (outcome, env')) :
    Attempted may env (.put txn dbi key data flags) outcome env' := by
  obtain ⟨reply, made, ends⟩ := Inquiry.yieldsBy_map.mp h
  clear h
  cases ends
  unfold put at made
  split at made
  · cases made
    exact .refused
  · rename_i k v db admitted
    obtain ⟨_, _, _, valid, writable⟩ := admitPut_eq_ok.mp admitted
    have subject : env.subject (.put txn dbi key data flags) = some db.dbi := by
      rw [writable_dbi writable]
      rfl
    have writable := writable_self writable
    obtain ⟨result, stored, ends⟩ := Inquiry.yieldsBy_bind.mp made
    have stored := (Work.yieldsBy_map (f := Prod.snd)).mpr ⟨result, stored, rfl⟩
    split at ends
    · cases ends
      exact .wrote (w := .put _ k v) writable subject valid stored
    · cases ends
      exact .stopped (w := .put _ k v) writable valid stored
    · cases ends
      exact .stopped (w := .put _ k v) writable valid stored

theorem del_attempted (h : (env.perform (.del txn dbi key data)).YieldsBy may (outcome, env')) :
    Attempted may env (.del txn dbi key data) outcome env' := by
  obtain ⟨reply, made, ends⟩ := Inquiry.yieldsBy_map.mp h
  clear h
  cases ends
  unfold del at made
  split at made
  · cases made
    exact .refused
  · rename_i k db admitted
    have writable := (admitDel_eq_ok.mp admitted).2.2
    have subject : env.subject (.del txn dbi key data) = some db.dbi := by
      rw [writable_dbi writable]
      rfl
    have writable := writable_self writable
    obtain ⟨result, removed, ends⟩ := Inquiry.yieldsBy_bind.mp made
    split at ends
    · cases ends
      exact .wrote (w := .remove k _) writable subject trivial removed
    · cases ends
      exact .stopped (w := .remove k _) writable trivial removed

/-- A cursor's database is the one that a write through it goes to. -/
theorem subject_of_cursor {call : Call} {h : Handle} {c : Cursor} {db : Opened}
    (here : env.cursors.get? h = some c) (writable : env.writable c.txn c.dbi = .ok db)
    (through : env.subject call = (env.cursors.get? h).map (·.dbi)) :
    env.subject call = some db.dbi := by
  rw [through, here, writable_dbi writable]
  rfl

theorem cursorPut_attempted
    (h : (env.perform (.cursorPut cursor key data flags)).YieldsBy may (outcome, env')) :
    Attempted may env (.cursorPut cursor key data flags) outcome env' := by
  obtain ⟨reply, made, ends⟩ := Inquiry.yieldsBy_map.mp h
  clear h
  cases ends
  unfold cursorPut at made
  split at made
  · cases made
    exact .refused
  · rename_i k v c db admitted
    obtain ⟨_, _, _, valid, here, writable⟩ := admitCursorPut_eq_ok.mp admitted
    have subject : env.subject (.cursorPut cursor key data flags) = some db.dbi :=
      subject_of_cursor here writable rfl
    have own := writable_self writable
    obtain ⟨result, stored, ends⟩ := Inquiry.yieldsBy_bind.mp made
    obtain rfl | ⟨w, admitted, attempted⟩ := Write.of_writePair valid stored
    · cases ends
      exact .moved .refused rfl here rfl rfl fun q told => .inl told
    split at ends
    · rename_i p holding
      cases ends
      have placed : Holding.Placed may db.layout env.config.mapSize db.holding p holding :=
        writePair_placed valid stored
      have near := Near.of_keep writable (Nat.le_of_lt (Contents.entry_lt_of_holds placed.stands))
      exact .moved (.wrote own subject admitted attempted) rfl here rfl rfl
        fun q told => .inr (Option.some.inj told ▸ near)
    · rename_i p value
      cases ends
      have earnest : (Stop.existing p value).Earnest db.entries :=
        earnest_writePair _ stored.yields
      have near := Near.of_writable writable (Nat.le_of_lt (Contents.entry_lt_of_holds earnest))
      exact .moved (.stopped own admitted attempted) rfl here rfl rfl
        fun q told => .inr (Option.some.inj told ▸ near)
    · cases ends
      exact .moved (.stopped own admitted attempted) rfl here rfl rfl fun q told => .inl told

theorem cursorDel_attempted
    (h : (env.perform (.cursorDel cursor flags)).YieldsBy may (outcome, env')) :
    Attempted may env (.cursorDel cursor flags) outcome env' := by
  obtain ⟨reply, made, ends⟩ := Inquiry.yieldsBy_map.mp h
  clear h
  cases ends
  unfold cursorDel at made
  split at made
  · cases made
    exact .refused
  · rename_i c p db admitted
    obtain ⟨here, writable, stands⟩ := admitCursorDel_eq_ok.mp admitted
    have subject : env.subject (.cursorDel cursor flags) = some db.dbi :=
      subject_of_cursor here writable rfl
    have own := writable_self writable
    obtain ⟨result, removed, ends⟩ := Inquiry.yieldsBy_bind.mp made
    have attempted := (Work.yieldsBy_map (f := Prod.snd)).mpr ⟨result, removed, rfl⟩
    have admitted : (Write.removeAt p
        (!db.layout.flags.dupSort || Flags.has flags Flags.noDupData)).Admitted db := by
      obtain ⟨_, holds⟩ := Option.filter_eq_some_iff.mp stands
      refine ⟨holds, fun one => ?_⟩
      rw [Bool.or_eq_false_iff, Bool.not_eq_false'] at one
      exact one.1
    split at ends
    · cases ends
      obtain ⟨_, near⟩ : Holding.Change may db.layout env.config.mapSize db.holding _ ∧ _ :=
        Holding.removeAt_change removed admitted.2
      have near := Near.of_keep writable near
      exact .moved (.wrote own subject admitted attempted) rfl here rfl rfl
        fun q told => .inr (Option.some.inj told ▸ near)
    · cases ends
      exact .stopped own admitted attempted

end

end Environment

end CollatedStore
