import CollatedStore.Proofs.Environment.Accounting
import CollatedStore.Proofs.Moves

/-!
Calls whose checks all hold. Where every snapshot is accounted for, each call but the plain step
back ends with a status, whatever was asked and answered; and what a move reports is stored.
-/
namespace CollatedStore

open Work

/-- Does the call step back without asking whether an item stands there? -/
def Call.stepsBack : Call → Bool
  | .cursorGet _ _ _ op => op == CursorOp.prev.code
  | _ => false

/-- One code stands for the step back. -/
theorem CursorOp.code_of_prev {op : UInt32} (named : ofCode? op = some .prev) :
    op = CursorOp.prev.code := by
  obtain ⟨x, listed, _⟩ := Option.map_eq_some_iff.mp named
  have inside := (List.getElem?_eq_some_iff.mp listed).1
  have only : ∀ i < all.length, (all[i]?).map (·.1) = some .prev → i = 12 := by decide
  exact UInt32.toNat_inj.mp (only op.toNat inside named)

namespace Environment

/-! ## Writes -/

namespace Write

/-- The bytes that a write brings. -/
def bytes : Write → Nat
  | put _ key value => key.length + value.length
  | replace _ _ value => value.length
  | remove _ _ => 0
  | removeAt _ _ => 0

variable {roomy : Prop} {db : Opened} {limit rest : Nat} {c : Cursor} {key value : Bytes}

theorem ensures_replaceCurrent (ok : Holding.Accounted db.layout limit rest db.holding)
    (room : roomy → db.holding.used + value.length ≤ limit) :
    Ensures roomy (replaceCurrent c db limit key value) fun _ => True := by
  unfold replaceCurrent
  split
  · exact ensures_refuse (by decide)
  · rename_i p stands
    obtain ⟨_, holds⟩ := Option.filter_eq_some_iff.mp stands
    refine (ensures_itemAt (Contents.entry_lt_of_holds holds)).bind fun e _ => ?_
    refine (ensures_compare db.layout.keyOrder e.key key).bind fun o _ => ?_
    cases o with
    | eq => exact Holding.ensures_replaceAt ok holds room
    | lt | gt => exact ensures_refuse (by decide)

/-- Every check of a write holds, and it is not refused for want of room where there is room for all
it brings. -/
theorem ensures {w : Write} (ok : Holding.Accounted db.layout limit rest db.holding)
    (admitted : w.Admitted db) (room : roomy → db.holding.used + w.bytes ≤ limit) :
    Ensures roomy (w.work db limit) fun _ => True := by
  cases w with
  | put rule key value => exact (Holding.ensures_put ok room).map
  | replace c key value => exact (ensures_replaceCurrent ok room).map
  | remove key value => exact Holding.ensures_remove ok
  | removeAt p all => exact (Holding.ensures_removeAt ok admitted.1).map

end Write

theorem ensures_writePair {roomy : Prop} {c : Cursor} {db : Opened} {limit rest : Nat}
    {flags : UInt32} {key value : Bytes}
    (ok : Holding.Accounted db.layout limit rest db.holding)
    (room : roomy → db.holding.used + (key.length + value.length) ≤ limit) :
    Ensures roomy (writePair c db limit flags key value) fun _ => True := by
  unfold writePair
  split
  · exact ensures_refuse (by decide)
  · split
    · refine Write.ensures_replaceCurrent ok fun roomy => ?_
      exact Nat.le_trans (Nat.add_le_add_left (Nat.le_add_left _ _) _) (room roomy)
    · exact Holding.ensures_put ok room

section
variable {may : Question → Ordering → Prop} {env env' : Environment} {call : Call}
  {outcome : Outcome} {txn cursor : Handle} {dbi : Dbi} {key data : Option Descriptor}
  {entries : Contents} {layout : Layout}

theorem Attempted.unbroken (balanced : Balanced env) (h : Attempted may env call outcome env') :
    ∃ s, outcome = .ok s := by
  induction h with
  | @refused s => exact ⟨s, rfl⟩
  | wrote => exact ⟨.success, rfl⟩
  | stopped writable admitted made =>
    have ok := writable_accounted balanced writable
    obtain ⟨s, told, _⟩ := (Write.ensures ok admitted False.elim).unbroken made.yields
    exact ⟨s, told⟩
  | moved _ _ _ _ _ _ ih => exact ih

/-- What is stored by the records before a record is accounted for when its turn comes. -/
theorem putRecords_unbroken {layout : Layout} {limit rest : Nat} {rule : PutRule} {key : Bytes}
    (valid : validKey key = true) {records : List Bytes} {progress progress' : Progress}
    (ok : Holding.Accounted layout limit rest progress.holding)
    (put : (putRecords layout limit rule key records progress).YieldsBy may (outcome, progress')) :
    ∃ s, outcome = .ok s := by
  induction records generalizing progress with
  | nil =>
    cases put
    exact ⟨.success, rfl⟩
  | cons record more ih =>
    obtain ⟨result, stored, put⟩ := Inquiry.yieldsBy_bind.mp put
    cases result with
    | ok placed =>
      have change := (Holding.put_placed valid stored).change
      exact ih (change.edits.accounted ok) put
    | error stop =>
      cases put
      obtain ⟨s, told, _⟩ := (Holding.ensures_put ok False.elim).unbroken stored.yields
      exact ⟨s, told⟩

theorem BatchEnded.unbroken {page : Bytes} {count stride : Nat} {flags : UInt32}
    {reply : Reply Outcome Environment Nat} (balanced : Balanced env)
    (h : BatchEnded may env cursor key page count stride flags reply) :
    ∃ s, reply.ended = .ok s := by
  cases h with
  | @refused s => exact ⟨s, rfl⟩
  | @unfit s => exact ⟨s, rfl⟩
  | made _ writable _ valid put =>
    exact putRecords_unbroken valid (writable_accounted balanced (writable_self writable)) put

/-! ## Reads -/

/-- No entry that can be read is without a value. -/
theorem readable_inhabited (balanced : Balanced env)
    (readable : env.readable txn dbi = .ok (entries, layout)) : ∀ e ∈ entries, e.values ≠ [] := by
  obtain ⟨t, _, live, _, stored, _⟩ := readable_eq_ok.mp readable
  exact (balanced.live live).inhabited stored

theorem get_unbroken {reply : Reply Outcome Environment (Option Descriptor)}
    (balanced : Balanced env) (made : (env.get txn dbi key data).Yields reply) :
    ∃ s, reply.ended = .ok s := by
  unfold get at made
  split at made
  · rename_i s denied
    cases made
    exact ⟨s, rfl⟩
  · rename_i k entries layout admitted
    have inhabited := readable_inhabited balanced (admitGet_eq_ok.mp admitted).2.2.2
    obtain ⟨result, found, ends⟩ := Inquiry.yields_bind.mp made
    cases result with
    | ok value =>
      cases ends
      exact ⟨.success, rfl⟩
    | error stop =>
      cases ends
      have checked : Ensures False (do entries.valueAt (← Cursor.seekKey layout entries k))
          fun _ => True :=
        (Cursor.ensures_seekKey inhabited).bind fun p stands =>
          (Contents.ensures_valueAt stands).mono fun _ _ => trivial
      obtain ⟨s, told, _⟩ := checked.unbroken found
      exact ⟨s, told⟩

section
variable {c : Cursor} {move : CursorOp} {k v : Bytes}

/-- A cursor that is admitted stays among the entries, or there is a status for why it is stuck. -/
theorem move_checked (balanced : Balanced env)
    (admitted : env.admitMove cursor = .ok (c, entries, layout)) :
    Ensures False (c.move layout entries move k v) fun moved =>
      ∃ p, p.entry < entries.length ∧
        moved.2 = { c with place := some p, deleted := false } :=
  Cursor.ensures_move_among (readable_inhabited balanced (admitMove_eq_ok.mp admitted).2) move

/-- Unless it is the step back, the move finds what is stored. -/
theorem move_finds {op : UInt32} (balanced : Balanced env) (other : op ≠ CursorOp.prev.code)
    (admitted : env.admitMove cursor = .ok (c, entries, layout))
    (named : CursorOp.ofCode? op = some move) :
    Ensures False (c.move layout entries move k v) fun moved =>
      ∃ p, moved.1.EndsAt entries p ∧
        moved.2 = { c with place := some p, deleted := false } := by
  have inhabited := readable_inhabited balanced (admitMove_eq_ok.mp admitted).2
  have elsewhere : move ≠ .prev := fun back => other (CursorOp.code_of_prev (back ▸ named))
  exact Cursor.ensures_move inhabited elsewhere

end

theorem MoveEnded.unbroken {op : UInt32}
    {reply : Reply Outcome Environment (Option Descriptor × Option Descriptor)}
    (balanced : Balanced env) (other : op ≠ CursorOp.prev.code)
    (h : MoveEnded may env cursor key data op reply) : ∃ s, reply.ended = .ok s := by
  cases h with
  | @refused s => exact ⟨s, rfl⟩
  | unknown => exact ⟨.invalid, rfl⟩
  | stuck admitted _ moved =>
    obtain ⟨s, told, _⟩ := (move_checked balanced admitted).unbroken moved.yields
    exact ⟨s, told⟩
  | unread admitted named moved read =>
    obtain ⟨p, stored, _⟩ := (move_finds balanced other admitted named).result moved.yields
    have checked : Ensures False (handOut _ _ key data) _ := ensures_handOut stored
    obtain ⟨s, told, _⟩ := checked.unbroken read.yields
    exact ⟨s, told⟩
  | yielded => exact ⟨.success, rfl⟩

/-- A move that succeeds reports what is stored where its cursor comes to stand. -/
theorem cursorGet_reports {op : UInt32}
    {reply : Reply Outcome Environment (Option Descriptor × Option Descriptor)}
    (balanced : Balanced env) (other : op ≠ CursorOp.prev.code)
    (made : (env.cursorGet cursor key data op).Yields reply)
    (succeeded : reply.ended = .ok .success) :
    ∃ c entries layout p k v, env.admitMove cursor = .ok (c, entries, layout) ∧
      entries.holds p = true ∧ entries.Reports p k v ∧
      reply.out = (key.map fun _ => .filled k, data.map fun _ => .filled v) ∧
      reply.store = env.setCursor cursor { c with place := some p, deleted := false } := by
  cases cursorGet_ended (Inquiry.yields_iff.mp made) with
  | refused denied => exact absurd (Except.ok.inj succeeded) (denies_admitMove env cursor _ denied)
  | unknown => cases succeeded
  | stuck admitted _ moved =>
    obtain ⟨s, told, failed⟩ := (move_checked balanced admitted).unbroken moved.yields
    exact absurd (Except.ok.inj (told.symm.trans succeeded)) failed
  | unread admitted named moved read =>
    obtain ⟨p, stored, _⟩ := (move_finds balanced other admitted named).result moved.yields
    have checked : Ensures False (handOut _ _ key data) _ := ensures_handOut stored
    obtain ⟨s, told, failed⟩ := checked.unbroken read.yields
    exact absurd (Except.ok.inj (told.symm.trans succeeded)) failed
  | @yielded c c' entries layout move fetch out admitted named moved read =>
    obtain ⟨p, stored, rfl⟩ := (move_finds balanced other admitted named).result moved.yields
    have checked : Ensures False (handOut _ _ key data) _ := ensures_handOut stored
    obtain ⟨k, v, reports, rfl⟩ := checked.result read.yields
    exact ⟨c, entries, layout, p, k, v, admitted, reports.holds, reports, rfl, rfl⟩

end

/-- **Every call but the step back ends with a status**, whatever was asked and answered. -/
theorem perform_unbroken {env env' : Environment} {call : Call} {outcome : Outcome}
    (balanced : Balanced env) (other : call.stepsBack = false)
    (made : (env.perform call).Yields (outcome, env')) : ∃ s, outcome = .ok s := by
  cases perform_ended (Inquiry.yields_iff.mp made) with
  | txnBegin | txnCommit | txnAbort | dbiOpen | setOrder | cursorOpen | cursorClose =>
    exact ⟨_, rfl⟩
  | read answered => exact get_unbroken balanced answered.yields
  | attempted _ attempt => exact attempt.unbroken balanced
  | batch ended => exact ended.unbroken balanced
  | @moved cursor key data op reply ended =>
    have other : op ≠ CursorOp.prev.code := by simpa [Call.stepsBack] using other
    exact ended.unbroken balanced other

end Environment

end CollatedStore
