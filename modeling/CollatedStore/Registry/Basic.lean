import CollatedStore.CallError
import CollatedStore.Table

/-!
The registry of collations. A registered context holds a slot, whose comparison function a store can
be given. A released slot stays with its context for as long as a database uses it or its function
has been handed out, so that no function ever comes to serve another context unnoticed.
-/
namespace CollatedStore

/-- A registered collation, with the policy in force when it was registered. -/
structure Enrolment where
  collation : Collation
  policy : FaultPolicy

/-- One order of one database. -/
structure Site where
  envId : UInt64
  dbi : Dbi
  role : Role
  deriving DecidableEq, Repr

structure Slot where
  id : ContextId
  /-- Grows with every registration, and tells registrations in one slot apart. -/
  generation : Nat
  /-- Nothing once the context is released. -/
  enrolment : Option Enrolment
  /-- The orders that use the slot's function. -/
  users : List Site
  /-- Has the function been handed out? -/
  exported : Bool

/-- No one uses the slot, and no one can. -/
def Slot.idle (s : Slot) : Bool := s.enrolment.isNone && s.users.isEmpty && !s.exported

/-- Released, but not yet given up by `id`. -/
def Slot.releasedBy (s : Slot) (id : ContextId) : Bool :=
  s.enrolment.isNone && decide (s.id = id)

structure Registry where
  settings : Settings
  single : Option Enrolment
  slots : SlotIndex → Option Slot
  byId : Table ContextId SlotIndex
  installs : Table Site SlotIndex
  generation : Nat

/-- Held by whoever registered a collation. Dropping it ends that very registration. -/
structure Guard where
  id : ContextId
  slot : SlotIndex
  generation : Nat
  deriving DecidableEq, Repr

/-- How the comparisons of a database find their order. -/
inductive Dispatch where
  | baseline
  | single
  | context (id : ContextId)
  deriving DecidableEq, Repr

namespace Registry

def new : Registry where
  settings := {}
  single := none
  slots := fun _ => none
  byId := .empty
  installs := .empty
  generation := 0

def setSlot (r : Registry) (i : SlotIndex) (s : Option Slot) : Registry :=
  { r with slots := fun j => if j = i then s else r.slots j }

def modifySlot (r : Registry) (i : SlotIndex) (f : Slot → Slot) : Registry :=
  r.setSlot i ((r.slots i).map f)

/-- The first slot that satisfies `p`. -/
def findSlot? (r : Registry) (p : Option Slot → Bool) : Option SlotIndex :=
  (List.finRange slotCount).find? fun i => p (r.slots i)

def released? (r : Registry) (id : ContextId) : Option SlotIndex :=
  r.findSlot? fun s => s.any (·.releasedBy id)

/-- The slot and the enrolment of a registered context. -/
def live? (r : Registry) (id : ContextId) : Option (SlotIndex × Enrolment) := do
  let i ← r.byId.get? id
  let s ← r.slots i
  let e ← s.enrolment
  return (i, e)

def isRegistered (r : Registry) (id : ContextId) : Bool := (r.live? id).isSome

def contextCount (r : Registry) : Nat := r.byId.size

def freeSlots (r : Registry) : Nat :=
  (List.finRange slotCount).countP fun i => (r.slots i).isNone

/-- Later registrations follow the new settings, earlier ones keep their policy. -/
def configure (r : Registry) (settings : Settings) : Registry := { r with settings }

def registerSingle (r : Registry) (collation : Collation) : Except CallError Registry :=
  if r.single.isSome then .error .singleTaken
  else .ok { r with single := some ⟨collation, r.settings.policy⟩ }

/-- Tells whether there was a collation to remove. -/
def clearSingle (r : Registry) : Bool × Registry := (r.single.isSome, { r with single := none })

/-- Frees a slot that is idle. -/
def sweep (r : Registry) (i : SlotIndex) : Registry :=
  if (r.slots i).any Slot.idle then r.setSlot i none else r

/-- Ends the registration of `id` in slot `i`. -/
def retire (r : Registry) (id : ContextId) (i : SlotIndex) : Registry :=
  sweep (modifySlot { r with byId := r.byId.erase id } i fun s => { s with enrolment := none }) i

/-- Registers a collation under `id`, in the slot that `id` still has, or else in the first free
one. -/
def register (r : Registry) (id : ContextId) (collation : Collation) :
    Except CallError (Guard × Registry) :=
  if r.byId.contains id then .error (.contextTaken id)
  else
    match (r.released? id).or (r.findSlot? Option.isNone) with
    | none => .error (.slotsExhausted slotCount)
    | some i =>
      let generation := r.generation + 1
      let enrolment := some ⟨collation, r.settings.policy⟩
      let slot : Slot :=
        match r.slots i with
        | some s => { s with generation, enrolment }
        | none => ⟨id, generation, enrolment, [], false⟩
      .ok (⟨id, i, generation⟩,
        { r.setSlot i (some slot) with byId := r.byId.insert id i, generation })

def deregister (r : Registry) (id : ContextId) : Except CallError Registry :=
  match r.live? id with
  | some (i, _) => .ok (r.retire id i)
  | none => .error (.unregisteredContext id)

/-- Drops a guard: the registration it came from ends, unless it has ended before. -/
def release (r : Registry) (g : Guard) : Registry :=
  if (r.slots g.slot).any fun s => s.generation == g.generation && s.enrolment.isSome then
    r.retire g.id g.slot
  else r

/-- Gives up the released slot of `id`, once no database uses it and the functions handed out are
no longer needed. Tells whether there was such a slot. -/
def reclaim (r : Registry) (id : ContextId) : Except CallError (Bool × Registry) :=
  match r.released? id with
  | none => .ok (false, r)
  | some i =>
    let users := ((r.slots i).map Slot.users).getD []
    if users.isEmpty then
      .ok (true, sweep (r.modifySlot i fun s => { s with exported := false }) i)
    else .error (.stillInstalled id users.length)

/-- The collation registered under `id`. -/
def lookup (r : Registry) (id : ContextId) : Except CallError Collation :=
  match r.live? id with
  | some (_, e) => .ok e.collation
  | none => .error (.unregisteredContext id)

/-- The function that a mode stands for, and the slot it comes from. -/
def resolve (r : Registry) : Dispatch → Except CallError (CompareFn × Option SlotIndex)
  | .baseline => .ok (.baseline, none)
  | .single => if r.single.isSome then .ok (.single, none) else .error .noSingle
  | .context id =>
    match r.live? id with
    | some (i, _) => .ok (.slot i, some i)
    | none => .error (.unregisteredContext id)

/-- Hands out the function of a mode; its slot then stays with its context until reclaimed. -/
def exportFn (r : Registry) (mode : Dispatch) : Except CallError (CompareFn × Registry) :=
  match r.resolve mode with
  | .error e => .error e
  | .ok (fn, none) => .ok (fn, r)
  | .ok (fn, some i) => .ok (fn, r.modifySlot i fun s => { s with exported := true })

end Registry

end CollatedStore
