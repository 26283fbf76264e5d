import CollatedStore.Proofs.Environment.Attempts
import CollatedStore.Proofs.Records

/-!
How calls end, said once for each kind of call: no later proof looks into how a call is computed.
-/
namespace CollatedStore

/-! ## Many records -/

namespace Environment

/-- Each record stored is one change. -/
theorem putRecords_changes {may : Question → Ordering → Prop} {layout : Layout} {limit : Nat}
    {rule : PutRule} {key : Bytes} (valid : validKey key = true) {records : List Bytes}
    {progress progress' : Progress} {outcome : Outcome}
    (put : (putRecords layout limit rule key records progress).YieldsBy may (outcome, progress')) :
    Holding.Changes may layout limit progress.holding progress'.holding := by
  induction records generalizing progress with
  | nil =>
    cases put
    exact .refl
  | cons record rest ih =>
    obtain ⟨result, stored, put⟩ := Inquiry.yieldsBy_bind.mp put
    cases result with
    | ok placed => exact .head (Holding.put_placed valid stored).change (ih put)
    | error stop =>
      cases put
      exact .refl

/-- How a call that puts many records ends: refused before the first of them, or as far as they
were stored. -/
inductive BatchEnded (may : Question → Ordering → Prop) (env : Environment) (cursor : Handle)
    (key : Option Descriptor) (page : Bytes) (count stride : Nat) (flags : UInt32) :
    Reply Outcome Environment Nat → Prop
  | refused {s : Status}
      (denied : env.admitCursorPut cursor key (some (.filled page)) flags = .error s) :
      BatchEnded may env cursor key page count stride flags ⟨.ok s, count, env⟩
  | unfit {s : Status} {c : Cursor} (failed : s ≠ .success)
      (here : env.cursors.get? cursor = some c) :
      BatchEnded may env cursor key page count stride flags
        ⟨.ok s, count, env.setCursor cursor { c with deleted := false }⟩
  | made {k : Bytes} {c : Cursor} {db : Opened} {outcome : Outcome} {progress : Progress}
      (here : env.cursors.get? cursor = some c) (writable : env.writable c.txn c.dbi = .ok db)
      (given : present key = .ok k) (valid : validKey k = true)
      (put : (putRecords db.layout env.config.mapSize (.ofFlags flags) k
        (Records.front count stride page) ⟨0, c.place, db.holding⟩).YieldsBy may
          (outcome, progress)) :
      BatchEnded may env cursor key page count stride flags
        ⟨outcome, progress.written, (env.keep db progress.holding).setCursor cursor
          { c with deleted := false, place := progress.place }⟩

section
variable {may : Question → Ordering → Prop} {env : Environment} {cursor : Handle}
  {key data : Option Descriptor} {op flags : UInt32}

theorem cursorPutMany_ended {page : Bytes} {count stride : Nat}
    {reply : Reply Outcome Environment Nat}
    (h : (env.cursorPutMany cursor key page count stride flags).YieldsBy may reply) :
    BatchEnded may env cursor key page count stride flags reply := by
  unfold cursorPutMany at h
  split at h
  · rename_i s denied
    cases h
    exact .refused denied
  · rename_i k v c db admitted
    obtain ⟨given, _, _, valid, here, writable⟩ := admitCursorPut_eq_ok.mp admitted
    dsimp only at h
    split at h
    · cases h
      exact .unfit (by decide) here
    · split at h
      · cases h
        exact .unfit (by decide) here
      · obtain ⟨⟨outcome, progress⟩, put, ends⟩ := Inquiry.yieldsBy_bind.mp h
        cases ends
        exact .made here writable given valid put

/-! ## Reads -/

/-- How a move ends: refused, or stuck where there is nothing to move to, or with an item that
may be there to read. -/
inductive MoveEnded (may : Question → Ordering → Prop) (env : Environment) (cursor : Handle)
    (key data : Option Descriptor) (op : UInt32) :
    Reply Outcome Environment (Option Descriptor × Option Descriptor) → Prop
  | refused {s : Status} (denied : env.admitMove cursor = .error s) :
      MoveEnded may env cursor key data op ⟨.ok s, (key, data), env⟩
  | unknown {c : Cursor} (here : env.cursors.get? cursor = some c)
      (unnamed : CursorOp.ofCode? op = none) :
      MoveEnded may env cursor key data op
        ⟨.ok .invalid, (key, data), env.setCursor cursor { c with deleted := false }⟩
  | stuck {c : Cursor} {entries : Contents} {layout : Layout} {move : CursorOp} {stop : Stop}
      (admitted : env.admitMove cursor = .ok (c, entries, layout))
      (named : CursorOp.ofCode? op = some move)
      (moved : (c.move layout entries move (Descriptor.bytesOf key)
        (Descriptor.bytesOf data)).run.YieldsBy may (.error stop)) :
      MoveEnded may env cursor key data op
        ⟨stop.outcome, (key, data), env.setCursor cursor { c with deleted := false }⟩
  | unread {c c' : Cursor} {entries : Contents} {layout : Layout} {move : CursorOp} {fetch : Fetch}
      {stop : Stop} (admitted : env.admitMove cursor = .ok (c, entries, layout))
      (named : CursorOp.ofCode? op = some move)
      (moved : (c.move layout entries move (Descriptor.bytesOf key)
        (Descriptor.bytesOf data)).run.YieldsBy may (.ok (fetch, c')))
      (read : (handOut entries fetch key data).run.YieldsBy may (.error stop)) :
      MoveEnded may env cursor key data op
        ⟨stop.outcome, (key, data), env.setCursor cursor c'⟩
  | yielded {c c' : Cursor} {entries : Contents} {layout : Layout} {move : CursorOp}
      {fetch : Fetch} {out : Option Descriptor × Option Descriptor}
      (admitted : env.admitMove cursor = .ok (c, entries, layout))
      (named : CursorOp.ofCode? op = some move)
      (moved : (c.move layout entries move (Descriptor.bytesOf key)
        (Descriptor.bytesOf data)).run.YieldsBy may (.ok (fetch, c')))
      (read : (handOut entries fetch key data).run.YieldsBy may (.ok out)) :
      MoveEnded may env cursor key data op ⟨.ok .success, out, env.setCursor cursor c'⟩

theorem cursorGet_ended
    {reply : Reply Outcome Environment (Option Descriptor × Option Descriptor)}
    (h : (env.cursorGet cursor key data op).YieldsBy may reply) :
    MoveEnded may env cursor key data op reply := by
  unfold cursorGet at h
  split at h
  · rename_i s denied
    cases h
    exact .refused denied
  · rename_i c entries layout admitted
    have here := (admitMove_eq_ok.mp admitted).1
    dsimp only at h
    cases named : CursorOp.ofCode? op with
    | none =>
      rw [named] at h
      cases h
      exact .unknown here named
    | some move =>
      rw [named] at h
      obtain ⟨result, moved, h⟩ := Inquiry.yieldsBy_bind.mp h
      cases result with
      | error stop =>
        cases h
        exact .stuck admitted named moved
      | ok result =>
        obtain ⟨out, read, h⟩ := Inquiry.yieldsBy_bind.mp h
        cases out with
        | error stop =>
          cases h
          exact .unread admitted named moved read
        | ok out =>
          cases h
          exact .yielded admitted named moved read

/-- A read leaves the environment as it is. -/
theorem get_store {txn : Handle} {dbi : Dbi} {reply : Reply Outcome Environment (Option Descriptor)}
    (h : (env.get txn dbi key data).YieldsBy may reply) : reply.store = env := by
  unfold get at h
  split at h
  · cases h
    rfl
  · obtain ⟨result, _, h⟩ := Inquiry.yieldsBy_bind.mp h
    cases result with
    | ok value => cases h; rfl
    | error stop => cases h; rfl

end

/-! ## Every call -/

/-- How a call ends and what it leaves, under the answers that `may` allows. -/
inductive Ended (may : Question → Ordering → Prop) (env : Environment) :
    Call → Outcome → Environment → Prop
  | txnBegin (parent : Option Handle) (flags : UInt32) (thread : Nat) :
      Ended may env (.txnBegin parent flags thread)
        (.ok (env.txnBegin parent flags thread).ended) (env.txnBegin parent flags thread).store
  | txnCommit (txn : Handle) : Ended may env (.txnCommit txn)
      (.ok (env.txnCommit txn).ended) (env.txnCommit txn).store
  | txnAbort (txn : Handle) : Ended may env (.txnAbort txn) (.ok .success) (env.txnAbort txn)
  | dbiOpen (txn : Handle) (name : Option String) (flags : UInt32) :
      Ended may env (.dbiOpen txn name flags) (.ok (env.dbiOpen txn name flags).ended)
        (env.dbiOpen txn name flags).store
  | setOrder (role : Role) (txn : Handle) (dbi : Dbi) (fn : Option CompareFn) :
      Ended may env (.setOrder role txn dbi fn) (.ok (env.setOrder role txn dbi fn).ended)
        (env.setOrder role txn dbi fn).store
  | cursorOpen (txn : Handle) (dbi : Dbi) : Ended may env (.cursorOpen txn dbi)
      (.ok (env.cursorOpen txn dbi).ended) (env.cursorOpen txn dbi).store
  | cursorClose (cursor : Handle) :
      Ended may env (.cursorClose cursor) (.ok .success) (env.cursorClose cursor)
  | read {txn : Handle} {dbi : Dbi} {key data : Option Descriptor}
      {reply : Reply Outcome Environment (Option Descriptor)}
      (made : (env.get txn dbi key data).YieldsBy may reply) :
      Ended may env (.get txn dbi key data) reply.ended env
  | attempted {call : Call} {outcome : Outcome} {env' : Environment}
      (unpublished : env.publishes call = false)
      (attempt : Attempted may env call outcome env') : Ended may env call outcome env'
  | batch {cursor : Handle} {key : Option Descriptor} {page : Bytes} {count stride : Nat}
      {flags : UInt32} {reply : Reply Outcome Environment Nat}
      (ended : BatchEnded may env cursor key page count stride flags reply) :
      Ended may env (.cursorPutMany cursor key page count stride flags) reply.ended reply.store
  | moved {cursor : Handle} {key data : Option Descriptor} {op : UInt32}
      {reply : Reply Outcome Environment (Option Descriptor × Option Descriptor)}
      (ended : MoveEnded may env cursor key data op reply) :
      Ended may env (.cursorGet cursor key data op) reply.ended reply.store

theorem perform_ended {may : Question → Ordering → Prop} {env env' : Environment} {call : Call}
    {outcome : Outcome} (h : (env.perform call).YieldsBy may (outcome, env')) :
    Ended may env call outcome env' := by
  cases call with
  | txnBegin parent flags thread => cases h; exact .txnBegin parent flags thread
  | txnCommit txn => cases h; exact .txnCommit txn
  | txnAbort txn => cases h; exact .txnAbort txn
  | dbiOpen txn name flags => cases h; exact .dbiOpen txn name flags
  | setOrder role txn dbi fn => cases h; exact .setOrder role txn dbi fn
  | get txn dbi key data =>
    obtain ⟨reply, made, ends⟩ := Inquiry.yieldsBy_map.mp h
    obtain ⟨rfl, rfl⟩ := Prod.ext_iff.mp ends
    have same : reply.ending.2 = env := get_store made
    rw [same]
    exact .read made
  | put txn dbi key data flags => exact .attempted rfl (put_attempted h)
  | del txn dbi key data => exact .attempted rfl (del_attempted h)
  | cursorOpen txn dbi => cases h; exact .cursorOpen txn dbi
  | cursorClose cursor => cases h; exact .cursorClose cursor
  | cursorGet cursor key data op =>
    obtain ⟨reply, made, ends⟩ := Inquiry.yieldsBy_map.mp h
    cases ends
    exact .moved (cursorGet_ended made)
  | cursorPut cursor key data flags => exact .attempted rfl (cursorPut_attempted h)
  | cursorPutMany cursor key page count stride flags =>
    obtain ⟨reply, made, ends⟩ := Inquiry.yieldsBy_map.mp h
    cases ends
    exact .batch (cursorPutMany_ended made)
  | cursorDel cursor flags => exact .attempted rfl (cursorDel_attempted h)

/-- The same for a step, whatever is answered. -/
theorem step_ended {env env' : Environment} {call : Call} (h : Step call env env') :
    ∃ outcome, Ended (fun _ _ => True) env call outcome env' := by
  obtain ⟨outcome, made⟩ := h
  exact ⟨outcome, perform_ended (Inquiry.yields_iff.mp made)⟩

end Environment

end CollatedStore
