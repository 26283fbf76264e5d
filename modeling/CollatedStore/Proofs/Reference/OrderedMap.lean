import CollatedStore.Proofs.Reference.Basic
import CollatedStore.Proofs.Sorted

/-!
Ordered maps, which plain databases stand for. Keys that are equal in their order are one key, with
the bytes first stored and the value last stored.
-/
namespace CollatedStore

open Search (Ascending)

structure OrderedMap (order : Order) where
  items : List (Bytes × Bytes)
  ascending : Ascending order Prod.fst items

namespace OrderedMap

variable {order : Order}

def empty : OrderedMap order := ⟨[], .nil⟩

def find (m : OrderedMap order) (key : Bytes) : Option (Bytes × Bytes) :=
  Sorted.pick (fun x => order x.1 key) m.items

/-- Is no key greater? -/
def isLast (m : OrderedMap order) (key : Bytes) : Bool :=
  Sorted.atEnd (fun x => order x.1 key) m.items

def add [Std.TransCmp order] (m : OrderedMap order) (key value : Bytes) : OrderedMap order where
  items := Sorted.add (fun x => order x.1 key) (key, value) m.items
  ascending := Sorted.add_ascending m.ascending (key, value)

/-- Gives a key that is there another value. -/
def assign (m : OrderedMap order) (key value : Bytes) : OrderedMap order where
  items := Sorted.alter (fun x => order x.1 key) (fun x => (x.1, value)) m.items
  ascending := Sorted.alter_ascending m.ascending fun _ => rfl

def erase (m : OrderedMap order) (key : Bytes) : OrderedMap order where
  items := Sorted.drop (fun x => order x.1 key) m.items
  ascending := Sorted.drop_ascending m.ascending

theorem add_items [Std.TransCmp order] (m : OrderedMap order) (key value : Bytes) :
    (m.add key value).items = Sorted.add (fun x => order x.1 key) (key, value) m.items := rfl

theorem assign_items (m : OrderedMap order) (key value : Bytes) :
    (m.assign key value).items =
      Sorted.alter (fun x => order x.1 key) (fun x => (x.1, value)) m.items := rfl

theorem erase_items (m : OrderedMap order) (key : Bytes) :
    (m.erase key).items = Sorted.drop (fun x => order x.1 key) m.items := rfl

/-! ## What becomes of a list cut at the key -/

section
variable {m : OrderedMap order} {key value : Bytes} {before after : List (Bytes × Bytes)}
  {x : Bytes × Bytes}

theorem find_found (whole : m.items = before ++ x :: after)
    (less : ∀ y ∈ before, order y.1 key = .lt) (equal : order x.1 key = .eq) :
    m.find key = some x := by
  rw [find, whole, Sorted.pick_found less equal]

theorem find_absent (whole : m.items = before ++ after)
    (less : ∀ y ∈ before, order y.1 key = .lt) (greater : ∀ y ∈ after, order y.1 key = .gt) :
    m.find key = none := by
  rw [find, whole, Sorted.pick_absent less greater]

theorem isLast_absent (whole : m.items = before ++ after)
    (less : ∀ y ∈ before, order y.1 key = .lt) (greater : ∀ y ∈ after, order y.1 key = .gt) :
    m.isLast key = after.isEmpty := by
  rw [isLast, whole, Sorted.atEnd_absent less greater]

theorem add_absent [Std.TransCmp order] (whole : m.items = before ++ after)
    (less : ∀ y ∈ before, order y.1 key = .lt) (greater : ∀ y ∈ after, order y.1 key = .gt)
    (value : Bytes) : (m.add key value).items = before ++ (key, value) :: after := by
  rw [add_items, whole, Sorted.add_absent less greater]

theorem assign_found (whole : m.items = before ++ x :: after)
    (less : ∀ y ∈ before, order y.1 key = .lt) (equal : order x.1 key = .eq)
    (greater : ∀ y ∈ after, order y.1 key = .gt) (value : Bytes) :
    (m.assign key value).items = before ++ (x.1, value) :: after := by
  rw [assign_items, whole, Sorted.alter_found less equal greater]

theorem erase_found (whole : m.items = before ++ x :: after)
    (less : ∀ y ∈ before, order y.1 key = .lt) (equal : order x.1 key = .eq)
    (greater : ∀ y ∈ after, order y.1 key = .gt) : (m.erase key).items = before ++ after := by
  rw [erase_items, whole, Sorted.drop_found less equal greater]

end

/-! ## Writes -/

/-- Stores a pair as `rule` allows; the rules for sorted values do not count. -/
def put [Std.TransCmp order] (m : OrderedMap order) (rule : PutRule) (key value : Bytes) :
    Except Answer (OrderedMap order) :=
  match m.find key with
  | none =>
    if rule.append && !m.isLast key then .error ⟨.keyExist, none⟩ else .ok (m.add key value)
  | some x =>
    if rule.noOverwrite then .error ⟨.keyExist, some x.2⟩
    else if rule.append then .error ⟨.keyExist, none⟩
    else .ok (m.assign key value)

/-- Removes a key. A value that is given does not count. -/
def remove (m : OrderedMap order) (key : Bytes) (_ : Option Bytes) :
    Option (OrderedMap order) :=
  match m.find key with
  | none => none
  | some _ => some (m.erase key)

def entry (x : Bytes × Bytes) : Entry := ⟨x.1, [x.2]⟩

def contents (m : OrderedMap order) : Contents := m.items.map entry

theorem contents_found {m : OrderedMap order} {before after : List (Bytes × Bytes)}
    {x : Bytes × Bytes} (whole : m.items = before ++ x :: after) :
    m.contents = before.map entry ++ entry x :: after.map entry := by
  simp [contents, whole]

theorem contents_absent {m : OrderedMap order} {before after : List (Bytes × Bytes)}
    (whole : m.items = before ++ after) : m.contents = before.map entry ++ after.map entry := by
  simp [contents, whole]

theorem inhabited (m : OrderedMap order) : ∀ e ∈ m.contents, e.values ≠ [] := by
  intro e he
  obtain ⟨x, _, rfl⟩ := List.mem_map.mp he
  exact nofun

theorem contents_items (m : OrderedMap order) : m.contents.items = m.items := by
  unfold contents
  generalize m.items = items
  induction items with
  | nil => rfl
  | cons x xs ih =>
    rw [List.map_cons, Contents.items, List.flatMap_cons, ← Contents.items, ih]
    rfl

def reference [Std.TransCmp order] : Reference (OrderedMap order) where
  contents := contents
  get m key := (m.find key).map Prod.snd
  put := put
  remove := remove

@[simp] theorem reference_contents [Std.TransCmp order] (m : OrderedMap order) :
    reference.contents m = m.contents := rfl

theorem reference_holding [Std.TransCmp order] (rest : Nat) (m : OrderedMap order) :
    reference.holding rest m = ⟨m.contents, rest + m.contents.size⟩ := rfl

end OrderedMap

end CollatedStore
