import CollatedStore.Host
import CollatedStore.Store.Basic
import CollatedStore.Text.Line

/-!
Listing the readers of a store. Each line goes to a handler, which stops the listing by any code but
zero; the last code that stops it is the status of the listing.
-/
namespace CollatedStore

/-- A handler takes a line and gives a code, or fails with a text. -/
abbrev Handler (σ : Type) := Line → StateM σ (Except String Int32)

namespace Listing

structure Summary where
  status : Int32
  /-- Lines that reached the handler. -/
  lines : Nat
  stopped : Bool
  deriving DecidableEq, Repr

/-- A listing in progress. -/
structure Progress (σ : Type) where
  state : σ
  lines : Nat
  stoppedWith : Option Int32
  fault : Option Fault

/-- Takes a message of the store to the handler. -/
def messenger {σ : Type} (handler : Handler σ) : Messenger (Progress σ) := fun m p =>
  if m.context then
    match m.line with
    | none => (0, p)
    | some line =>
      let (result, state) := handler ⟨line⟩ p.state
      let p := { p with state, lines := p.lines + 1 }
      match result with
      | .ok code => (code, if code = 0 then p else { p with stoppedWith := some code })
      | .error text => (-1, { p with fault := some ⟨.handler, text⟩ })
  else (-1, p)

/-- What a listing that ended with `status` comes to, if no handler failed. -/
def conclude {σ : Type} (status : Status) (p : Progress σ) : Except CallError Summary :=
  match p.stoppedWith with
  | some code => .ok ⟨code, p.lines, true⟩
  | none => (CallError.check "mdb_reader_list" status).map fun _ => ⟨status.code, p.lines, false⟩

variable {ε : Type} [Store ε] {σ : Type}

/-- Lists the readers. The failure of a handler is a fault under the present policy. -/
def run (store : ε) (handler : Handler σ) (state : σ) :
    Session (Except CallError Summary × σ) := do
  let policy := (← get).registry.settings.policy
  let (status, p) := (Store.listReaders store (some (messenger handler))).run ⟨state, 0, none, none⟩
  match p.fault with
  | some fault =>
    Session.report policy
    return (.error (.fault fault), p.state)
  | none => return (conclude status p, p.state)

inductive Failure where
  | call (e : CallError)
  | handler (message : String)
  deriving DecidableEq, Repr

def Failure.text : Failure → String
  | .call e => e.text
  | .handler message => "reader line handler failed: " ++ message

/-- How a handler that may give up takes a line. It may also fail with a text, as any handler. -/
inductive Taking where
  | taken
  | gaveUp (message : String)
  | failed (text : String)
  deriving DecidableEq, Repr

def Taking.ofResult : Except String Unit → Taking
  | .ok () => .taken
  | .error message => .gaveUp message

/-- A handler that may give up: that stops the listing, and the message is kept. -/
def giveUp (handler : String → StateM σ Taking) : Handler (σ × Option String) :=
  fun line (state, failure) =>
    match handler line.text state with
    | (.taken, state) => (.ok 0, (state, failure))
    | (.gaveUp message, state) => (.ok (-1), (state, some message))
    | (.failed text, state) => (.error text, (state, failure))

/-- Lists the readers to a handler that may give up. Tells how many lines were handled. -/
def runTaking (store : ε) (handler : String → StateM σ Taking) (state : σ) :
    Session (Except Failure Nat × σ) := do
  let (result, state, failure) ← run store (giveUp handler) (state, none)
  match result, failure with
  | .error e, _ => return (.error (.call e), state)
  | .ok _, some message => return (.error (.handler message), state)
  | .ok summary, none => return (.ok summary.lines, state)

/-- The same for a handler that never fails but by giving up. -/
def runFallible (store : ε) (handler : String → StateM σ (Except String Unit)) (state : σ) :
    Session (Except Failure Nat × σ) :=
  runTaking store (fun line => Taking.ofResult <$> handler line) state

/-- Keeps every line, without the line breaks at its end, the last one first. -/
def keep : Handler (List String) := fun line kept => (.ok 0, line.trimmed :: kept)

/-- All lines, without the line breaks at their ends. -/
def collect (store : ε) : Session (Except CallError (List String)) := do
  let (result, kept) ← run store keep []
  return result.map fun _ => kept.reverse

end Listing

end CollatedStore
