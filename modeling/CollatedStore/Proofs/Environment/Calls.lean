import CollatedStore.Environment.Cursors
import CollatedStore.Proofs.Answers

/-!
Every call on an environment that may change it, and the states that sequences of calls lead to,
whoever makes them and whatever the comparison functions answer. Listing the readers is not among
them: it leaves the environment as it is.
-/
namespace CollatedStore

inductive Call where
  | txnBegin (parent : Option Handle) (flags : UInt32) (thread : Nat := 1)
  | txnCommit (txn : Handle)
  | txnAbort (txn : Handle)
  | dbiOpen (txn : Handle) (name : Option String) (flags : UInt32)
  | setOrder (role : Role) (txn : Handle) (dbi : Dbi) (fn : Option CompareFn)
  | get (txn : Handle) (dbi : Dbi) (key data : Option Descriptor)
  | put (txn : Handle) (dbi : Dbi) (key data : Option Descriptor) (flags : UInt32)
  | del (txn : Handle) (dbi : Dbi) (key data : Option Descriptor)
  | cursorOpen (txn : Handle) (dbi : Dbi)
  | cursorClose (cursor : Handle)
  | cursorGet (cursor : Handle) (key data : Option Descriptor) (op : UInt32)
  | cursorPut (cursor : Handle) (key data : Option Descriptor) (flags : UInt32)
  | cursorPutMany (cursor : Handle) (key : Option Descriptor) (page : Bytes) (count stride : Nat)
      (flags : UInt32)
  | cursorDel (cursor : Handle) (flags : UInt32)

/-- A reply without what it hands out. -/
def Reply.ending {ε α : Type} (reply : Reply Outcome ε α) : Outcome × ε :=
  (reply.ended, reply.store)

/-- The same for a call that never breaks off. -/
def Reply.settled {ε α : Type} (reply : Reply Status ε α) : Inquiry (Outcome × ε) :=
  .done (.ok reply.ended, reply.store)

namespace Environment

/-- Makes one call. -/
def perform (env : Environment) : Call → Inquiry (Outcome × Environment)
  | .txnBegin parent flags thread => (env.txnBegin parent flags thread).settled
  | .txnCommit txn => (env.txnCommit txn).settled
  | .txnAbort txn => .done (.ok .success, env.txnAbort txn)
  | .dbiOpen txn name flags => (env.dbiOpen txn name flags).settled
  | .setOrder role txn dbi fn => (env.setOrder role txn dbi fn).settled
  | .get txn dbi key data => Reply.ending <$> env.get txn dbi key data
  | .put txn dbi key data flags => Reply.ending <$> env.put txn dbi key data flags
  | .del txn dbi key data => Reply.ending <$> env.del txn dbi key data
  | .cursorOpen txn dbi => (env.cursorOpen txn dbi).settled
  | .cursorClose cursor => .done (.ok .success, env.cursorClose cursor)
  | .cursorGet cursor key data op => Reply.ending <$> env.cursorGet cursor key data op
  | .cursorPut cursor key data flags => Reply.ending <$> env.cursorPut cursor key data flags
  | .cursorPutMany cursor key page count stride flags =>
      Reply.ending <$> env.cursorPutMany cursor key page count stride flags
  | .cursorDel cursor flags => Reply.ending <$> env.cursorDel cursor flags

/-- The call may leave this environment. -/
def Step (call : Call) (env env' : Environment) : Prop :=
  ∃ outcome, (env.perform call).Yields (outcome, env')

/-- Does the call commit a write transaction? -/
def publishes (env : Environment) : Call → Bool
  | .txnCommit h => match env.txns.get? h with
    | some (.writer _) => true
    | _ => false
  | _ => false

/-- Calls lead from one environment to another, `n` of them write commits. -/
inductive Run (env : Environment) : Nat → Environment → Prop
  | start : Run env 0 env
  | next {n : Nat} {e e' : Environment} (call : Call) : Run env n e → Step call e e' →
      Run env (n + if e.publishes call then 1 else 0) e'

/-- Calls lead to this environment from a new one. -/
def Reachable (env : Environment) : Prop :=
  ∃ id owner config n, Run (.new id owner config) n env

theorem Reachable.next {env env' : Environment} (h : Reachable env) (call : Call)
    (step : Step call env env') : Reachable env' := by
  obtain ⟨id, owner, config, n, run⟩ := h
  exact ⟨id, owner, config, _, run.next call step⟩

theorem Reachable.run {env env' : Environment} (h : Reachable env) {n : Nat}
    (run : Run env n env') : Reachable env' := by
  induction run with
  | start => exact h
  | next call _ step ih => exact ih.next call step

end Environment

end CollatedStore
