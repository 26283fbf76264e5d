import CollatedStore.Hex
import CollatedStore.Store.Basic

/-!
A store that holds nothing: it answers every call with one status and writes the call down. It lists
the lines it is given.
-/
namespace CollatedStore

structure Scripted where
  id : UInt64
  status : Status
  /-- Set as the count of a put of many records, whatever the status. -/
  written : Option Nat
  /-- A context to deregister whenever an order is set. -/
  deregister : Option ContextId
  lines : List (Option Bytes)
  /-- Do message functions get their context back? -/
  context : Bool
  /-- Does the listing go on when a message function stops it? -/
  ignoreStop : Bool
  /-- The status at the end of a listing. -/
  terminal : Status
  /-- The calls made, the last one first. -/
  calls : List String

namespace Scripted

def describe : Option Descriptor → String
  | none => "null"
  | some d => "[" ++ Hex.encode d.bytes ++ "]"

def log (s : Scripted) (call : List String) : Scripted :=
  { s with calls := " ".intercalate call :: s.calls }

/-- The calls made so far, in order, and the store with an empty list. -/
def takeCalls (s : Scripted) : List String × Scripted := (s.calls.reverse, { s with calls := [] })

def reply {α : Type} (s : Scripted) (out : α) (call : List String) :
    Reply Status Scripted α :=
  ⟨s.status, out, s.log call⟩

def replyDone {α : Type} (s : Scripted) (out : α) (call : List String) :
    Inquiry (Reply Outcome Scripted α) :=
  .done ⟨.ok s.status, out, s.log call⟩

def roleName : Role → String
  | .keys => "set_compare"
  | .values => "set_dupsort"

/-- Calls `call` on every message, whatever it returns. -/
def callAll {σ : Type} (call : Messenger σ) : List Message → StateM σ Unit
  | [] => return ()
  | m :: rest => do
    let _ ← call m
    callAll call rest

def listReaders {σ : Type} (s : Scripted) (call : Option (Messenger σ)) : StateM σ Status :=
  match call with
  | none => return .noFunction
  | some call => do
    let messages := s.lines.map fun line => (⟨line, s.context⟩ : Message)
    if s.ignoreStop then
      callAll call messages
      return s.terminal
    else
      let status ← call.until messages
      return if status = .success then s.terminal else status

instance : Store Scripted where
  envId := id
  txnBegin s _ flags _ := s.reply 0 ["txn_begin", toString flags]
  txnCommit s txn := s.reply () ["txn_commit", toString txn]
  txnAbort s txn := s.log ["txn_abort", toString txn]
  dbiOpen s txn _ flags := s.reply 0 ["dbi_open", toString txn, toString flags]
  setOrder s registry role txn dbi fn :=
    let registry :=
      match s.deregister with
      | none => registry
      | some id => (registry.deregister id).toOption.getD registry
    (s.reply () [roleName role, toString txn, toString dbi, toString fn.isSome], registry)
  get s txn dbi key data :=
    s.replyDone data ["get", toString txn, toString dbi, describe key, describe data]
  put s txn dbi key data flags :=
    s.replyDone data
      ["put", toString txn, toString dbi, describe key, describe data, toString flags]
  del s txn dbi key data :=
    s.replyDone () ["del", toString txn, toString dbi, describe key, describe data]
  cursorOpen s txn dbi := s.reply 0 ["cursor_open", toString txn, toString dbi]
  cursorClose s cursor := s.log ["cursor_close", toString cursor]
  cursorGet s cursor key data op :=
    s.replyDone (key, data)
      ["cursor_get", toString cursor, describe key, describe data, toString op]
  cursorPut s cursor key data flags :=
    s.replyDone data
      ["cursor_put", toString cursor, describe key, describe data, toString flags]
  cursorPutMany s cursor key _ count stride flags :=
    s.replyDone (s.written.getD count)
      ["cursor_put", toString cursor, describe key, s!"{stride}x{count}", toString flags]
  cursorDel s cursor flags := s.replyDone () ["cursor_del", toString cursor, toString flags]
  listReaders := listReaders

end Scripted

end CollatedStore
