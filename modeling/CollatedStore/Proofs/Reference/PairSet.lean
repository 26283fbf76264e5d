import CollatedStore.Proofs.Reference.Basic
import CollatedStore.Proofs.Sorted

/-!
Sorted sets of pairs, which databases with sorted values stand for. Keys that are equal in their
order are one key, with the bytes first stored; so are values.
-/
namespace CollatedStore

open Search (Ascending)

/-- Keys in strict order, and under each its values in strict order, at least one. -/
structure PairSet (keys values : Order) where
  entries : Contents
  ascending : Ascending keys Entry.key entries
  sorted : ∀ e ∈ entries, Ascending values id e.values
  inhabited : ∀ e ∈ entries, e.values ≠ []

namespace PairSet

variable {keys values : Order}

def empty : PairSet keys values := ⟨[], .nil, nofun, nofun⟩

def items (m : PairSet keys values) : List (Bytes × Bytes) := m.entries.items

def find (m : PairSet keys values) (key : Bytes) : Option Entry :=
  Sorted.pick (fun e => keys e.key key) m.entries

/-- Is no key greater? -/
def isLast (m : PairSet keys values) (key : Bytes) : Bool :=
  Sorted.atEnd (fun e => keys e.key key) m.entries

/-- Removes a key with all its values. -/
def dropKey (m : PairSet keys values) (key : Bytes) : PairSet keys values where
  entries := Sorted.drop (fun e => keys e.key key) m.entries
  ascending := Sorted.drop_ascending m.ascending
  sorted e he := m.sorted e (List.mem_filter.mp he).1
  inhabited e he := m.inhabited e (List.mem_filter.mp he).1

def withoutValue (values : Order) (value : Bytes) (e : Entry) : Entry :=
  { e with values := Sorted.drop (fun v => values v value) e.values }

theorem mem_alter {against : Entry → Ordering} {f : Entry → Entry} {xs : Contents} {e : Entry}
    (h : e ∈ Sorted.alter against f xs) : e ∈ xs ∨ ∃ d ∈ xs, e = f d := by
  obtain ⟨d, hd, rfl⟩ := List.mem_map.mp h
  split
  · exact .inr ⟨d, hd, rfl⟩
  · exact .inl hd

/-- Removes a pair, and its key if no other value is left. -/
def dropPair (m : PairSet keys values) (key value : Bytes) : PairSet keys values where
  entries := (Sorted.alter (fun e => keys e.key key) (withoutValue values value) m.entries).filter
    fun e => !e.values.isEmpty
  ascending := List.Pairwise.filter _ (Sorted.alter_ascending m.ascending fun _ => rfl)
  sorted e he := by
    obtain he | ⟨d, hd, rfl⟩ := mem_alter (List.mem_filter.mp he).1
    · exact m.sorted e he
    · exact Sorted.drop_ascending (m.sorted d hd)
  inhabited e he := by simpa using (List.mem_filter.mp he).2

theorem dropKey_entries (m : PairSet keys values) (key : Bytes) :
    (m.dropKey key).entries = Sorted.drop (fun e => keys e.key key) m.entries := rfl

theorem dropPair_entries (m : PairSet keys values) (key value : Bytes) :
    (m.dropPair key value).entries =
      (Sorted.alter (fun e => keys e.key key) (withoutValue values value) m.entries).filter
        fun e => !e.values.isEmpty := rfl

section
variable [Std.TransCmp keys]

def addKey (m : PairSet keys values) (key value : Bytes) : PairSet keys values where
  entries := Sorted.add (fun e => keys e.key key) ⟨key, [value]⟩ m.entries
  ascending := Sorted.add_ascending m.ascending ⟨key, [value]⟩
  sorted e he := by
    obtain rfl | he := Sorted.mem_add he
    · exact List.pairwise_singleton _ _
    · exact m.sorted e he
  inhabited e he := by
    obtain rfl | he := Sorted.mem_add he
    · exact nofun
    · exact m.inhabited e he

theorem addKey_entries (m : PairSet keys values) (key value : Bytes) :
    (m.addKey key value).entries =
      Sorted.add (fun e => keys e.key key) ⟨key, [value]⟩ m.entries := rfl

end

def withValue (values : Order) (value : Bytes) (e : Entry) : Entry :=
  { e with values := Sorted.add (fun v => values v value) value e.values }

/-- Adds a value to a key that is there. -/
def addValue [Std.TransCmp values] (m : PairSet keys values) (key value : Bytes) :
    PairSet keys values where
  entries := Sorted.alter (fun e => keys e.key key) (withValue values value) m.entries
  ascending := Sorted.alter_ascending m.ascending fun _ => rfl
  sorted e he := by
    obtain he | ⟨d, hd, rfl⟩ := mem_alter he
    · exact m.sorted e he
    · exact Sorted.add_ascending (m.sorted d hd) value
  inhabited e he := by
    obtain he | ⟨d, hd, rfl⟩ := mem_alter he
    · exact m.inhabited e he
    · exact Sorted.add_ne_nil _ _ _

theorem addValue_entries [Std.TransCmp values] (m : PairSet keys values) (key value : Bytes) :
    (m.addValue key value).entries =
      Sorted.alter (fun e => keys e.key key) (withValue values value) m.entries := rfl

/-! ## What becomes of a list cut at the key -/

section
variable {m : PairSet keys values} {key value : Bytes} {before after : Contents} {e : Entry}

theorem find_found (whole : m.entries = before ++ e :: after)
    (less : ∀ d ∈ before, keys d.key key = .lt) (equal : keys e.key key = .eq) :
    m.find key = some e := by
  rw [find, whole, Sorted.pick_found less equal]

theorem find_absent (whole : m.entries = before ++ after)
    (less : ∀ d ∈ before, keys d.key key = .lt) (greater : ∀ d ∈ after, keys d.key key = .gt) :
    m.find key = none := by
  rw [find, whole, Sorted.pick_absent less greater]

theorem isLast_found (whole : m.entries = before ++ e :: after)
    (less : ∀ d ∈ before, keys d.key key = .lt) (equal : keys e.key key = .eq)
    (greater : ∀ d ∈ after, keys d.key key = .gt) : m.isLast key = after.isEmpty := by
  rw [isLast, whole, Sorted.atEnd_found less equal greater]

theorem isLast_absent (whole : m.entries = before ++ after)
    (less : ∀ d ∈ before, keys d.key key = .lt) (greater : ∀ d ∈ after, keys d.key key = .gt) :
    m.isLast key = after.isEmpty := by
  rw [isLast, whole, Sorted.atEnd_absent less greater]

theorem addKey_absent [Std.TransCmp keys] (whole : m.entries = before ++ after)
    (less : ∀ d ∈ before, keys d.key key = .lt) (greater : ∀ d ∈ after, keys d.key key = .gt)
    (value : Bytes) : (m.addKey key value).entries = before ++ ⟨key, [value]⟩ :: after := by
  rw [addKey_entries, whole, Sorted.add_absent less greater]

theorem addValue_found [Std.TransCmp values] (whole : m.entries = before ++ e :: after)
    (less : ∀ d ∈ before, keys d.key key = .lt) (equal : keys e.key key = .eq)
    (greater : ∀ d ∈ after, keys d.key key = .gt) {smaller larger : List Bytes}
    (among : e.values = smaller ++ larger) (below : ∀ v ∈ smaller, values v value = .lt)
    (above : ∀ v ∈ larger, values v value = .gt) :
    (m.addValue key value).entries =
      before ++ { e with values := smaller ++ value :: larger } :: after := by
  rw [addValue_entries, whole, Sorted.alter_found less equal greater, withValue, among,
    Sorted.add_absent below above]

theorem dropKey_found (whole : m.entries = before ++ e :: after)
    (less : ∀ d ∈ before, keys d.key key = .lt) (equal : keys e.key key = .eq)
    (greater : ∀ d ∈ after, keys d.key key = .gt) : (m.dropKey key).entries = before ++ after := by
  rw [dropKey_entries, whole, Sorted.drop_found less equal greater]

/-- Only the key of the pair can be left without a value. -/
theorem dropPair_found (whole : m.entries = before ++ e :: after)
    (less : ∀ d ∈ before, keys d.key key = .lt) (equal : keys e.key key = .eq)
    (greater : ∀ d ∈ after, keys d.key key = .gt) {smaller larger : List Bytes} {v : Bytes}
    (among : e.values = smaller ++ v :: larger) (below : ∀ v ∈ smaller, values v value = .lt)
    (same : values v value = .eq) (above : ∀ v ∈ larger, values v value = .gt) :
    (m.dropPair key value).entries =
      before ++ (if smaller ++ larger = [] then after
        else { e with values := smaller ++ larger } :: after) := by
  have kept : ∀ xs : Contents, (∀ d ∈ xs, d ∈ m.entries) →
      xs.filter (fun d => !d.values.isEmpty) = xs := by
    intro xs inside
    exact List.filter_eq_self.mpr fun d hd => by simpa using m.inhabited d (inside d hd)
  rw [dropPair_entries, whole, Sorted.alter_found less equal greater, List.filter_append,
    kept before (by simp +contextual [whole]), withoutValue, among,
    Sorted.drop_found below same above]
  split
  · rename_i none_left
    rw [List.filter_cons_of_neg (by simp [none_left]), kept after (by simp +contextual [whole])]
  · rename_i some_left
    rw [List.filter_cons_of_pos (by simpa using some_left),
      kept after (by simp +contextual [whole])]

end

/-! ## Writes -/

/-- Adds a value to the key of `e` as `rule` allows. An equal value stays as it is. With `fixed`,
all values of a key have the length of its first. -/
def putValue [Std.TransCmp values] (fixed : Bool) (m : PairSet keys values) (rule : PutRule)
    (key value : Bytes) (e : Entry) : Except Answer (PairSet keys values) :=
  if fixed && e.values.head?.map List.length != some value.length then .error ⟨.badValSize, none⟩
  else
    match Sorted.pick (fun v => values v value) e.values with
    | some v => if rule.noDupData then .error ⟨.keyExist, some v⟩ else .ok m
    | none =>
      if rule.appendDup && !Sorted.atEnd (fun v => values v value) e.values then
        .error ⟨.keyExist, e.values.getLast?⟩
      else .ok (m.addValue key value)

/-- Adds a pair as `rule` allows. -/
def put [Std.TransCmp keys] [Std.TransCmp values] (fixed : Bool) (m : PairSet keys values)
    (rule : PutRule) (key value : Bytes) : Except Answer (PairSet keys values) :=
  match m.find key with
  | none =>
    if rule.append && !m.isLast key then .error ⟨.keyExist, none⟩ else .ok (m.addKey key value)
  | some e =>
    if rule.noOverwrite then .error ⟨.keyExist, e.values.head?⟩
    else if rule.append && !m.isLast key then .error ⟨.keyExist, none⟩
    else m.putValue fixed rule key value e

/-- Removes a pair, or without a value the whole key. -/
def remove (m : PairSet keys values) (key : Bytes) (value : Option Bytes) :
    Option (PairSet keys values) :=
  match m.find key, value with
  | none, _ => none
  | some _, none => some (m.dropKey key)
  | some e, some value =>
    match Sorted.pick (fun v => values v value) e.values with
    | none => none
    | some _ => some (m.dropPair key value)

def reference [Std.TransCmp keys] [Std.TransCmp values] (fixed : Bool) :
    Reference (PairSet keys values) where
  contents := entries
  get m key := (m.find key).bind fun e => e.values.head?
  put := put fixed
  remove := remove

@[simp] theorem reference_contents [Std.TransCmp keys] [Std.TransCmp values] (fixed : Bool)
    (m : PairSet keys values) : (reference fixed).contents m = m.entries := rfl

theorem reference_holding [Std.TransCmp keys] [Std.TransCmp values] (fixed : Bool) (rest : Nat)
    (m : PairSet keys values) :
    (reference fixed).holding rest m = ⟨m.entries, rest + m.entries.size⟩ := rfl

end PairSet

end CollatedStore
