import CollatedStore.Flags
import CollatedStore.Search

/-!
The contents of one database: keys in order, each with its values in order. Every write keeps count
of the bytes that all databases of a snapshot hold together, and is refused when the map is full.
-/
namespace CollatedStore

structure Entry where
  key : Bytes
  values : List Bytes
  deriving DecidableEq, Repr

/-- The bytes of a key and its values. -/
def Entry.size (e : Entry) : Nat := e.key.length + e.values.flatten.length

abbrev Contents := List Entry

/-- The orders of a database, and how it keeps its values. -/
structure Layout where
  keyOrder : Option CompareFn
  valueOrder : Option CompareFn
  flags : DbFlags

namespace Contents

def find (layout : Layout) (entries : Contents) (key : Bytes) : Work Spot :=
  Search.locate entries fun e => Work.compare layout.keyOrder e.key key

def findIn (layout : Layout) (values : List Bytes) (value : Bytes) : Work Spot :=
  Search.locate values fun v => Work.compare layout.valueOrder v value

/-- Is there an item at this place? -/
def holds (entries : Contents) (p : Place) : Bool :=
  match entries[p.entry]? with
  | some e => decide (p.value < e.values.length)
  | none => false

def valueAt (entries : Contents) (p : Place) : Work Bytes := do
  Work.itemAt (← Work.itemAt entries p.entry).values p.value

/-- Refuses a write because of the item at `p`. -/
def occupied {α : Type} (entries : Contents) (p : Place) : Work α := do
  throw (.existing p (← valueAt entries p))

/-- The number of the last value of entry `i`. -/
def lastValue (entries : Contents) (i : Nat) : Work Nat := do
  Work.minus (← Work.itemAt entries i).values.length 1

end Contents

/-- One database's entries, and the bytes used by all databases of its snapshot. -/
structure Holding where
  entries : Contents
  used : Nat
  deriving DecidableEq, Repr

namespace Holding

/-- The bytes in use once `add` bytes have taken the place of `sub`. -/
def charge (limit used add sub : Nat) : Work Nat := do
  let next := (← Work.minus used sub) + add
  if limit < next then Work.refuse .mapFull else return next

/-- Stores a pair whose key is new, as entry `i`. -/
def putNew (limit : Nat) (rule : PutRule) (key value : Bytes) (h : Holding) (i : Nat) :
    Work (Place × Holding) :=
  if rule.append && i != h.entries.length then Work.refuse .keyExist
  else do
    let used ← charge limit h.used (key.length + value.length) 0
    return (⟨i, 0⟩, ⟨← Work.insertAt h.entries i ⟨key, [value]⟩, used⟩)

/-- Overwrites the one value of entry `i`. -/
def overwrite (limit : Nat) (value : Bytes) (h : Holding) (i : Nat) : Work (Place × Holding) := do
  let e ← Work.itemAt h.entries i
  let old ← Work.itemAt e.values 0
  let used ← charge limit h.used value.length old.length
  let values ← Work.setAt e.values 0 value
  return (⟨i, 0⟩, ⟨← Work.setAt h.entries i { e with values }, used⟩)

/-- Refuses a value whose length is not the one that a database of fixed values has at `like`. -/
def checkLength (layout : Layout) (values : List Bytes) (like : Nat) (value : Bytes) :
    Work Unit := do
  if layout.flags.fixed then
    if (← Work.itemAt values like).length = value.length then return ()
    else Work.refuse .badValSize
  else return ()

/-- Adds a value to entry `i` of a database with sorted values. -/
def putValue (layout : Layout) (limit : Nat) (rule : PutRule) (value : Bytes) (h : Holding)
    (i : Nat) : Work (Place × Holding) := do
  let e ← Work.itemAt h.entries i
  checkLength layout e.values 0 value
  match ← Contents.findIn layout e.values value with
  | .found j => if rule.noDupData then h.entries.occupied ⟨i, j⟩ else return (⟨i, j⟩, h)
  | .absent j =>
    if rule.appendDup && j != e.values.length then
      h.entries.occupied ⟨i, ← Work.minus e.values.length 1⟩
    else
      let used ← charge limit h.used value.length 0
      let values ← Work.insertAt e.values j value
      return (⟨i, j⟩, ⟨← Work.setAt h.entries i { e with values }, used⟩)

/-- Stores a pair as `rule` allows, and tells where it stands. -/
def put (layout : Layout) (limit : Nat) (rule : PutRule) (key value : Bytes) (h : Holding) :
    Work (Place × Holding) := do
  match ← Contents.find layout h.entries key with
  | .absent i => putNew limit rule key value h i
  | .found i =>
    if rule.noOverwrite then h.entries.occupied ⟨i, 0⟩
    else if rule.append && (!layout.flags.dupSort || i + 1 != h.entries.length) then
      Work.refuse .keyExist
    else if layout.flags.dupSort then putValue layout limit rule value h i
    else overwrite limit value h i

/-- Puts `value` in the place of the item at `p`. Among sorted values it moves to where it belongs,
and if an equal value is there the two become one. -/
def replaceAt (layout : Layout) (limit : Nat) (p : Place) (value : Bytes) (h : Holding) :
    Work (Place × Holding) := do
  let e ← Work.itemAt h.entries p.entry
  let old ← Work.itemAt e.values p.value
  if layout.flags.dupSort then
    checkLength layout e.values p.value value
    let used ← charge limit h.used value.length old.length
    let rest ← Work.eraseAt e.values p.value
    match ← Contents.findIn layout rest value with
    | .found k =>
      return (⟨p.entry, k⟩,
        ⟨← Work.setAt h.entries p.entry { e with values := rest },
          ← Work.minus used value.length⟩)
    | .absent k =>
      let values ← Work.insertAt rest k value
      return (⟨p.entry, k⟩, ⟨← Work.setAt h.entries p.entry { e with values }, used⟩)
  else
    let used ← charge limit h.used value.length old.length
    let values ← Work.setAt e.values 0 value
    return (⟨p.entry, 0⟩, ⟨← Work.setAt h.entries p.entry { e with values }, used⟩)

/-- Removes the item at `p`, or its whole entry if `all` is set or no other value is left. The place
returned is that of the item that followed. -/
def removeAt (p : Place) (all : Bool) (h : Holding) : Work (Place × Holding) := do
  let e ← Work.itemAt h.entries p.entry
  if all || e.values.length == 1 then
    return (⟨p.entry, 0⟩,
      ⟨← Work.eraseAt h.entries p.entry, ← Work.minus h.used e.size⟩)
  else
    let removed ← Work.itemAt e.values p.value
    let values ← Work.eraseAt e.values p.value
    let entries ← Work.setAt h.entries p.entry { e with values }
    let used ← Work.minus h.used removed.length
    return (if p.value = values.length then ⟨p.entry + 1, 0⟩ else p, ⟨entries, used⟩)

/-- Removes a key, or only one value of it where values are sorted. -/
def remove (layout : Layout) (key : Bytes) (value : Option Bytes) (h : Holding) :
    Work Holding := do
  match ← Contents.find layout h.entries key with
  | .absent _ => Work.refuse .notFound
  | .found i =>
    match layout.flags.dupSort, value with
    | true, some value =>
      match ← Contents.findIn layout (← Work.itemAt h.entries i).values value with
      | .absent _ => Work.refuse .notFound
      | .found j => return (← removeAt ⟨i, j⟩ false h).2
    | _, _ => return (← removeAt ⟨i, 0⟩ true h).2

end Holding

end CollatedStore
