import CollatedStore.Contents
import CollatedStore.CursorOp
import CollatedStore.Handle

/-!
Cursors. A cursor remembers a place in its database; after a deletion through it the place is that
of the item that followed, and the next step forward yields that item itself.
-/
namespace CollatedStore

structure Cursor where
  txn : Handle
  dbi : Dbi
  place : Option Place
  deleted : Bool
  deriving DecidableEq, Repr

/-- What a move yields: one item, or a run of values of one key. -/
inductive Fetch where
  | item (place : Place)
  | page (entry start stop : Nat)
  deriving DecidableEq, Repr

/-- The longest key that a store takes. -/
def maxKeySize : Nat := 511

def validKey (key : Bytes) : Bool := !key.isEmpty && decide (key.length ≤ maxKeySize)

namespace Cursor

def new (txn : Handle) (dbi : Dbi) : Cursor := ⟨txn, dbi, none, false⟩

/-- The cursor's place, if an item stands there. -/
def current (c : Cursor) (entries : Contents) : Option Place := c.place.filter entries.holds

def firstItem (entries : Contents) : Work Place :=
  if entries.isEmpty then Work.refuse .notFound else pure ⟨0, 0⟩

def lastItem (entries : Contents) : Work Place :=
  match entries.length with
  | 0 => Work.refuse .notFound
  | n + 1 => return ⟨n, ← entries.lastValue n⟩

/-- The first item of entry `i`. -/
def headOf (entries : Contents) (i : Nat) : Work Place :=
  if i < entries.length then pure ⟨i, 0⟩ else Work.refuse .notFound

/-- The last item of the entry before `i`, as long as `i` is not past the end. -/
def tailBefore (entries : Contents) (i : Nat) : Work Place :=
  match i with
  | 0 => Work.refuse .notFound
  | k + 1 =>
    if k < entries.length then return ⟨k, ← entries.lastValue k⟩ else Work.refuse .notFound

/-- The place of an item that is still there: a cursor never moved is misused, one whose item is
gone finds nothing. -/
def positioned (c : Cursor) (entries : Contents) : Work Place :=
  match c.place with
  | none => Work.refuse .invalid
  | some p => if entries.holds p then pure p else Work.refuse .notFound

def next (c : Cursor) (entries : Contents) : Work Place :=
  match c.place with
  | none => firstItem entries
  | some p =>
    if entries.holds p then
      if c.deleted then pure p
      else do
        if p.value < (← entries.lastValue p.entry) then return ⟨p.entry, p.value + 1⟩
        else headOf entries (p.entry + 1)
    else Work.refuse .notFound

/-- Steps back without asking whether an item stands there. -/
def prev (c : Cursor) (entries : Contents) : Work Place :=
  match c.place with
  | none => lastItem entries
  | some ⟨i, 0⟩ => tailBefore entries i
  | some ⟨i, j + 1⟩ => if i < entries.length then pure ⟨i, j⟩ else tailBefore entries i

def nextKey (c : Cursor) (entries : Contents) : Work Place :=
  match c.place with
  | none => firstItem entries
  | some p =>
    if c.deleted && p.value == 0 && entries.holds p then pure p
    else headOf entries (p.entry + 1)

def prevKey (c : Cursor) (entries : Contents) : Work Place :=
  match c.place with
  | none => lastItem entries
  | some p => tailBefore entries p.entry

def nextValue (c : Cursor) (layout : Layout) (entries : Contents) : Work Place := do
  let p ← positioned c entries
  if layout.flags.dupSort then
    if p.value < (← entries.lastValue p.entry) then return ⟨p.entry, p.value + 1⟩
    else Work.refuse .notFound
  else Work.refuse .notFound

def prevValue (c : Cursor) (layout : Layout) (entries : Contents) : Work Place := do
  let p ← positioned c entries
  if layout.flags.dupSort && decide (0 < p.value) then return ⟨p.entry, p.value - 1⟩
  else Work.refuse .notFound

def checkKey (key : Bytes) : Work Unit :=
  if validKey key then pure () else Work.refuse .badValSize

def needs (condition : Bool) : Work Unit :=
  if condition then pure () else Work.refuse .incompatible

/-- The first item of an equal key. -/
def seekKey (layout : Layout) (entries : Contents) (key : Bytes) : Work Place := do
  checkKey key
  match ← entries.find layout key with
  | .found i => return ⟨i, 0⟩
  | .absent _ => Work.refuse .notFound

/-- The first item of the first key that is not less. -/
def seekRange (layout : Layout) (entries : Contents) (key : Bytes) : Work Place := do
  checkKey key
  match ← entries.find layout key with
  | .found i => headOf entries i
  | .absent i => headOf entries i

/-- An equal value of an equal key; with `nearest`, the first value that is not less. -/
def seekPair (layout : Layout) (entries : Contents) (nearest : Bool) (key value : Bytes) :
    Work Place := do
  checkKey key
  needs layout.flags.dupSort
  match ← entries.find layout key with
  | .absent _ => Work.refuse .notFound
  | .found i =>
    let e ← Work.itemAt entries i
    match ← Contents.findIn layout e.values value with
    | .found j => return ⟨i, j⟩
    | .absent j =>
      if nearest && decide (j < e.values.length) then return ⟨i, j⟩
      else Work.refuse .notFound

/-- The run of values of entry `i` from `start` on. -/
def pageFrom (entries : Contents) (i start : Nat) : Work Fetch := do
  return .page i start (← Work.itemAt entries i).values.length

def nextPage (c : Cursor) (entries : Contents) : Work Fetch :=
  match c.place with
  | none => do pageFrom entries (← firstItem entries).entry 0
  | some p =>
    if entries.holds p then do
      if p.value < (← entries.lastValue p.entry) then pageFrom entries p.entry (p.value + 1)
      else pageFrom entries (← headOf entries (p.entry + 1)).entry 0
    else Work.refuse .notFound

def prevPage (c : Cursor) (entries : Contents) : Work Fetch := do
  let p ← positioned c entries
  if 0 < p.value then return .page p.entry 0 p.value
  else if 0 < p.entry then pageFrom entries (p.entry - 1) 0
  else Work.refuse .notFound

/-- Where `op` leads from the cursor's place. -/
def target (c : Cursor) (layout : Layout) (entries : Contents) (op : CursorOp)
    (key data : Bytes) : Work Fetch :=
  match op with
  | .first => .item <$> firstItem entries
  | .last => .item <$> lastItem entries
  | .next => .item <$> c.next entries
  | .prev => .item <$> c.prev entries
  | .nextNoDup => .item <$> c.nextKey entries
  | .prevNoDup => .item <$> c.prevKey entries
  | .getCurrent => .item <$> c.positioned entries
  | .firstDup => do
    needs layout.flags.dupSort
    return .item ⟨(← c.positioned entries).entry, 0⟩
  | .lastDup => do
    needs layout.flags.dupSort
    let p ← c.positioned entries
    return .item ⟨p.entry, ← entries.lastValue p.entry⟩
  | .nextDup => .item <$> c.nextValue layout entries
  | .prevDup => .item <$> c.prevValue layout entries
  | .set => .item <$> seekKey layout entries key
  | .setKey => .item <$> seekKey layout entries key
  | .setRange => .item <$> seekRange layout entries key
  | .getBoth => .item <$> seekPair layout entries false key data
  | .getBothRange => .item <$> seekPair layout entries true key data
  | .getMultiple => do
    needs layout.flags.fixed
    let p ← c.positioned entries
    pageFrom entries p.entry p.value
  | .nextMultiple => do
    needs layout.flags.fixed
    c.nextPage entries
  | .prevMultiple => do
    needs layout.flags.fixed
    c.prevPage entries

/-- The last item of what was fetched, where the cursor comes to stand. -/
def resting : Fetch → Work Place
  | .item p => pure p
  | .page i _ stop => return ⟨i, ← Work.minus stop 1⟩

/-- Moves the cursor, and tells what it yields. -/
def move (c : Cursor) (layout : Layout) (entries : Contents) (op : CursorOp) (key data : Bytes) :
    Work (Fetch × Cursor) := do
  let fetch ← c.target layout entries op key data
  return (fetch, { c with place := some (← resting fetch), deleted := false })

end Cursor

namespace Fetch

/-- The key of what was fetched. -/
def key (entries : Contents) : Fetch → Work Bytes
  | .item p => return (← Work.itemAt entries p.entry).key
  | .page i _ _ => return (← Work.itemAt entries i).key

/-- The bytes of what was fetched: one value, or the run of values joined. -/
def value (entries : Contents) : Fetch → Work Bytes
  | .item p => entries.valueAt p
  | .page i start stop => do
    return (← Work.slice (← Work.itemAt entries i).values start stop).flatten

end Fetch

end CollatedStore
