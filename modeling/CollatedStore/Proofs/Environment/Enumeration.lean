import CollatedStore.Proofs.Environment.Repetition
import CollatedStore.Proofs.Environment.Resumption

/-!
Walks from one end of a database to the other. The steps forward and back go through the items in
order, each the way back of the other; the steps by key touch the first, or the last, value of each
key.
-/
namespace CollatedStore

theorem Entry.length_items (e : Entry) : e.items.length = e.values.length := List.length_map _

namespace Contents

/-- The item at the second place stands right behind that at the first. -/
inductive Follows (entries : Contents) : Place → Place → Prop
  | value {i j : Nat} {e : Entry} (stood : entries[i]? = some e) (more : j + 1 < e.values.length) :
      Follows entries ⟨i, j⟩ ⟨i, j + 1⟩
  | key {i j : Nat} {d e : Entry} (stood : entries[i]? = some d) (last : j + 1 = d.values.length)
      (next : entries[i + 1]? = some e) (inhabited : e.values ≠ []) :
      Follows entries ⟨i, j⟩ ⟨i + 1, 0⟩

/-- All that `list` makes of the items before `p`, where it makes one thing of each item. -/
def before {α : Type} (list : Entry → List α) (entries : Contents) (p : Place) : List α :=
  (entries.take p.entry).flatMap list ++
    match entries[p.entry]? with
    | some e => (list e).take p.value
    | none => []

/-- The first value of each key. -/
def firsts (entries : Contents) : List (Bytes × Bytes) :=
  entries.filterMap fun e => e.values.head?.map fun v => (e.key, v)

/-- The last value of each key. -/
def lasts (entries : Contents) : List (Bytes × Bytes) :=
  entries.filterMap fun e => e.values.getLast?.map fun v => (e.key, v)

/-- The key is less, or the value of the same key is. -/
def Precedes (keys values : Order) (x y : Bytes × Bytes) : Prop :=
  keys x.1 y.1 = .lt ∨ x.1 = y.1 ∧ values x.2 y.2 = .lt

section
variable {entries : Contents} {p q : Place} {e : Entry} {x : Bytes × Bytes} {c : Cursor} {i : Nat}

theorem item?_eq_some_iff : entries.item? p = some x ↔
    ∃ e, entries[p.entry]? = some e ∧ e.values[p.value]? = some x.2 ∧ e.key = x.1 := by
  obtain ⟨k, v⟩ := x
  constructor
  · intro there
    cases stood : entries[p.entry]? with
    | none => simp [item?, stood] at there
    | some e =>
      rw [item?_eq stood, Option.map_eq_some_iff] at there
      obtain ⟨w, was, same⟩ := there
      cases same
      exact ⟨e, rfl, was, rfl⟩
  · rintro ⟨e, stood, was, rfl⟩
    rw [item?_eq stood, was]
    rfl

theorem item?_head {v : Bytes} (stood : entries[i]? = some e) (first : e.values.head? = some v) :
    entries.item? ⟨i, 0⟩ = some (e.key, v) :=
  item?_eq_some_iff.mpr ⟨e, stood, List.head?_eq_getElem? ▸ first, rfl⟩

theorem item?_last {v : Bytes} (stood : entries[i]? = some e) (last : e.values.getLast? = some v) :
    entries.item? ⟨i, e.values.length - 1⟩ = some (e.key, v) :=
  item?_eq_some_iff.mpr ⟨e, stood, List.getLast?_eq_getElem? ▸ last, rfl⟩

theorem item?_of_holds (holds : entries.holds p = true) : ∃ x, entries.item? p = some x := by
  obtain ⟨e, stood, inside⟩ := holds_iff.mp holds
  have was := List.getElem?_eq_getElem inside
  exact ⟨(e.key, _), item?_eq_some_iff.mpr ⟨e, stood, was, rfl⟩⟩

theorem lands_item (there : entries.item? p = some x) :
    entries.Lands (some (p, x)) (Fetch.item <$> pure p) := by
  obtain ⟨e, stood, was, own⟩ := item?_eq_some_iff.mp there
  have lands := Lands.item stood was
  rw [own] at lands
  exact lands

/-! ## Neighbours -/

theorem Follows.holds_right (follows : entries.Follows p q) : entries.holds q = true := by
  cases follows with
  | value stood more => exact holds_iff.mpr ⟨_, stood, more⟩
  | key _ _ next inhabited => exact holds_iff.mpr ⟨_, next, List.length_pos_iff.mpr inhabited⟩

theorem Follows.holds_left (follows : entries.Follows p q) : entries.holds p = true := by
  cases follows with
  | value stood more => exact holds_iff.mpr ⟨_, stood, Nat.lt_of_succ_lt more⟩
  | key stood last => exact holds_iff.mpr ⟨_, stood, by dsimp only; omega⟩

/-- An item is followed by another, or it is the last one. -/
theorem follows_or_last (inhabited : ∀ e ∈ entries, e.values ≠ [])
    (holds : entries.holds p = true) :
    (∃ q, entries.Follows p q) ∨ entries.itemsAfter p = [] := by
  obtain ⟨e, stood, inside⟩ := holds_iff.mp holds
  by_cases more : p.value + 1 < e.values.length
  · exact .inl ⟨_, .value stood more⟩
  · by_cases further : p.entry + 1 < entries.length
    · have next := List.getElem?_eq_getElem further
      exact .inl ⟨_, .key stood (by omega) next (inhabited _ (List.getElem_mem further))⟩
    · have none_left : e.items.drop (p.value + 1) = [] :=
        List.drop_eq_nil_of_le (by rw [Entry.items, List.length_map]; omega)
      right
      rw [itemsAfter, stood, List.drop_eq_nil_of_le (by omega)]
      exact (List.append_nil _).trans none_left

/-- An item follows another, or it is the first one. -/
theorem follows_or_first (inhabited : ∀ e ∈ entries, e.values ≠ [])
    (holds : entries.holds q = true) : (∃ p, entries.Follows p q) ∨ q = ⟨0, 0⟩ := by
  obtain ⟨e, stood, inside⟩ := holds_iff.mp holds
  obtain ⟨i, j⟩ := q
  dsimp only at stood inside
  cases j with
  | succ j => exact .inl ⟨⟨i, j⟩, .value stood inside⟩
  | zero =>
    cases i with
    | zero => exact .inr rfl
    | succ i =>
      have before : i < entries.length :=
        Nat.lt_of_succ_lt (List.getElem?_eq_some_iff.mp stood).1
      have some_value := List.length_pos_iff.mpr (inhabited entries[i] (List.getElem_mem before))
      exact .inl ⟨⟨i, entries[i].values.length - 1⟩, .key (List.getElem?_eq_getElem before)
        (by omega) stood (List.length_pos_iff.mp inside)⟩

theorem map_before {α β : Type} (f : α → β) (list : Entry → List α) (entries : Contents)
    (p : Place) : (before list entries p).map f = before (fun e => (list e).map f) entries p := by
  unfold before
  rw [List.map_append, List.map_flatMap]
  cases entries[p.entry]? with
  | none => rfl
  | some e => rw [List.map_take]

/-- Up to the item behind there is one thing more. -/
theorem before_follows {α : Type} {list : Entry → List α}
    (each : ∀ e, (list e).length = e.values.length) (follows : entries.Follows p q) :
    ∃ e a, entries[p.entry]? = some e ∧ (list e)[p.value]? = some a ∧
      before list entries q = before list entries p ++ [a] := by
  cases follows with
  | @value i j e stood more =>
    have inside : j < (list e).length := by rw [each]; omega
    refine ⟨e, (list e)[j], stood, List.getElem?_eq_getElem inside, ?_⟩
    simp only [before, stood, List.append_assoc, List.take_append_getElem inside]
  | @key i j d e stood last next inhabited =>
    have inside : j < (list d).length := by rw [each]; omega
    refine ⟨d, (list d)[j], stood, List.getElem?_eq_getElem inside, ?_⟩
    have whole : (list d).take (j + 1) = list d := List.take_of_length_le (by rw [each]; omega)
    simp only [before, stood, next, List.append_assoc, List.take_append_getElem inside, whole,
      List.take_zero, List.append_nil, List.take_add_one, List.flatMap_append, Option.toList_some,
      List.flatMap_singleton]

theorem itemsBefore_follows (follows : entries.Follows p q) (there : entries.item? p = some x) :
    entries.itemsBefore q = entries.itemsBefore p ++ [x] := by
  obtain ⟨e, y, stood, was, longer⟩ := before_follows Entry.length_items follows
  have same : y = x := by
    obtain ⟨e', stood', was', own⟩ := item?_eq_some_iff.mp there
    cases stood.symm.trans stood'
    simp only [Entry.items, List.getElem?_map, was', Option.map_some, own] at was
    exact (Option.some.inj was).symm
  rw [← same]
  exact longer

theorem itemsBefore_first : entries.itemsBefore ⟨0, 0⟩ = [] := by
  cases entries <;> rfl

/-! ## Steps -/

theorem next_of_follows (follows : entries.Follows p q) (place : c.place = some p)
    (unmarked : c.deleted = false) : c.next entries = pure q := by
  have holds := follows.holds_left
  simp only [Cursor.next, place, holds, if_true, unmarked, Bool.false_eq_true, if_false]
  cases follows with
  | value stood more =>
    rw [lastValue_eq stood (by omega), pure_bind, if_pos (by dsimp only; omega)]
  | key stood last next inhabited =>
    rw [lastValue_eq stood (by omega), pure_bind, if_neg (by dsimp only; omega)]
    exact if_pos (List.getElem?_eq_some_iff.mp next).1

theorem prev_of_follows (follows : entries.Follows p q) (place : c.place = some q) :
    c.prev entries = pure p := by
  unfold Cursor.prev
  rw [place]
  cases follows with
  | value stood more => exact if_pos (List.getElem?_eq_some_iff.mp stood).1
  | @key i j d e stood last next inhabited =>
    have inside := (List.getElem?_eq_some_iff.mp stood).1
    have same : d.values.length - 1 = j := by omega
    dsimp only [Cursor.tailBefore]
    rw [if_pos inside, lastValue_eq stood (by omega), pure_bind, same]

/-- From the last item there is no step forward. -/
theorem next_of_last (inhabited : ∀ e ∈ entries, e.values ≠ []) (holds : entries.holds p = true)
    (last : entries.itemsAfter p = []) (place : c.place = some p) (unmarked : c.deleted = false) :
    c.next entries = Work.refuse .notFound := by
  obtain ⟨e, stood, inside⟩ := holds_iff.mp holds
  have leads := next_leads inhabited place unmarked stood (List.getElem?_eq_getElem inside)
  rw [last] at leads
  generalize c.next entries = step at leads
  cases leads
  rfl

theorem headOf_cases (inhabited : ∀ e ∈ entries, e.values ≠ []) (i : Nat) :
    entries.length ≤ i ∧ Cursor.headOf entries i = Work.refuse .notFound ∨
      ∃ e v, entries[i]? = some e ∧ e.values.head? = some v ∧
        Cursor.headOf entries i = pure ⟨i, 0⟩ := by
  by_cases inside : i < entries.length
  · have some_value := inhabited entries[i] (List.getElem_mem inside)
    exact .inr ⟨_, _, List.getElem?_eq_getElem inside, List.head?_eq_some_head some_value,
      if_pos inside⟩
  · exact .inl ⟨Nat.le_of_not_lt inside, if_neg inside⟩

theorem tailBefore_cases (inhabited : ∀ e ∈ entries, e.values ≠ []) (inside : i ≤ entries.length) :
    i = 0 ∧ Cursor.tailBefore entries i = Work.refuse .notFound ∨
      ∃ k e v, i = k + 1 ∧ entries[k]? = some e ∧ e.values.getLast? = some v ∧
        Cursor.tailBefore entries i = pure ⟨k, e.values.length - 1⟩ := by
  cases i with
  | zero => exact .inl ⟨rfl, rfl⟩
  | succ k =>
    have stood := List.getElem?_eq_getElem inside
    have some_value := inhabited entries[k] (List.getElem_mem inside)
    refine .inr ⟨k, _, _, rfl, stood, List.getLast?_eq_some_getLast some_value, ?_⟩
    refine (if_pos inside).trans ?_
    rw [lastValue_eq stood (List.length_pos_iff.mpr some_value), pure_bind]

theorem firstItem_eq (entries : Contents) : Cursor.firstItem entries = Cursor.headOf entries 0 := by
  cases entries <;> rfl

theorem lastItem_eq (entries : Contents) :
    Cursor.lastItem entries = Cursor.tailBefore entries entries.length := by
  unfold Cursor.lastItem Cursor.tailBefore
  split
  · rfl
  · rename_i n length
    rw [length]
    exact (if_pos (by omega)).symm

/-! ## Walks -/

theorem Leads.serves {xs : List (Bytes × Bytes)} {step : Work Place}
    (leads : entries.Leads xs step) :
    entries.Serves entries.itemsAfter xs (Fetch.item <$> step) := by
  cases leads with
  | item stood was => exact .item (.item stood was)
  | nothing => exact .nothing .nothing

theorem next_serves (inhabited : ∀ e ∈ entries, e.values ≠ []) (holds : entries.holds p = true)
    (place : c.place = some p) (unmarked : c.deleted = false) :
    entries.Serves entries.itemsAfter (entries.itemsAfter p) (Fetch.item <$> c.next entries) := by
  obtain ⟨e, stood, inside⟩ := holds_iff.mp holds
  exact (next_leads inhabited place unmarked stood (List.getElem?_eq_getElem inside)).serves

theorem tailBefore_serves (inhabited : ∀ e ∈ entries, e.values ≠ []) (inside : i ≤ entries.length) :
    entries.Serves (fun p => (entries.itemsBefore p).reverse) (items (entries.take i)).reverse
      (Fetch.item <$> Cursor.tailBefore entries i) := by
  obtain ⟨rfl, none_there⟩ | ⟨k, e, v, rfl, stood, last, tail⟩ := tailBefore_cases inhabited inside
  · rw [none_there]
    exact .nothing .nothing
  · have own : e.items.take (e.values.length - 1) ++ [(e.key, v)] = e.items := by
      have cut : e.items.dropLast ++ [(e.key, v)] = e.items :=
        List.dropLast_append_getLast? _ (by simp [Entry.items, last])
      rwa [List.dropLast_eq_take, e.length_items] at cut
    have whole : items (entries.take (k + 1)) =
        entries.itemsBefore ⟨k, e.values.length - 1⟩ ++ [(e.key, v)] := by
      simp only [itemsBefore, stood, List.append_assoc, own, List.take_add_one, items_append,
        Option.toList_some, items_cons, items_nil, List.append_nil]
    rw [tail, whole, List.reverse_append]
    exact .item (lands_item (item?_last stood last))

theorem prev_serves (inhabited : ∀ e ∈ entries, e.values ≠ []) (holds : entries.holds q = true)
    (place : c.place = some q) :
    entries.Serves (fun p => (entries.itemsBefore p).reverse) (entries.itemsBefore q).reverse
      (Fetch.item <$> c.prev entries) := by
  obtain ⟨p, follows⟩ | rfl := follows_or_first inhabited holds
  · obtain ⟨x, there⟩ := item?_of_holds follows.holds_left
    rw [itemsBefore_follows follows there, List.reverse_append, prev_of_follows follows place]
    exact .item (lands_item there)
  · rw [itemsBefore_first, Cursor.prev, place]
    exact .nothing .nothing

theorem headOf_serves (inhabited : ∀ e ∈ entries, e.values ≠ []) (i : Nat) :
    entries.Serves (fun p => firsts (entries.drop (p.entry + 1))) (firsts (entries.drop i))
      (Fetch.item <$> Cursor.headOf entries i) := by
  obtain ⟨past, none_there⟩ | ⟨e, v, stood, first, head⟩ := headOf_cases inhabited i
  · rw [none_there, List.drop_eq_nil_of_le past]
    exact .nothing .nothing
  · have cut : firsts (entries.drop i) = (e.key, v) :: firsts (entries.drop (i + 1)) := by
      obtain ⟨inside, rfl⟩ := List.getElem?_eq_some_iff.mp stood
      rw [List.drop_eq_getElem_cons inside, firsts, List.filterMap_cons, first]
      rfl
    rw [head, cut]
    exact .item (lands_item (item?_head stood first))

theorem tailBefore_serves_keys (inhabited : ∀ e ∈ entries, e.values ≠ [])
    (inside : i ≤ entries.length) :
    entries.Serves (fun p => (lasts (entries.take p.entry)).reverse)
      (lasts (entries.take i)).reverse (Fetch.item <$> Cursor.tailBefore entries i) := by
  obtain ⟨rfl, none_there⟩ | ⟨k, e, v, rfl, stood, last, tail⟩ := tailBefore_cases inhabited inside
  · rw [none_there]
    exact .nothing .nothing
  · have whole : lasts (entries.take (k + 1)) = lasts (entries.take k) ++ [(e.key, v)] := by
      rw [List.take_add_one, stood, lasts, List.filterMap_append]
      simp [last, lasts]
    rw [tail, whole, List.reverse_append]
    exact .item (lands_item (item?_last stood last))

/-- Items in order precede one another. -/
theorem InOrder.precedes {keys values : Order} (inOrder : InOrder keys values entries) :
    entries.items.Pairwise (Precedes keys values) := by
  refine List.pairwise_flatMap.mpr ⟨fun e stored => ?_, inOrder.keys.imp fun less x hx y hy => ?_⟩
  · exact List.pairwise_map.mpr ((inOrder.values e stored).imp fun less => .inr ⟨rfl, less⟩)
  · obtain ⟨_, _, rfl⟩ := List.mem_map.mp hx
    obtain ⟨_, _, rfl⟩ := List.mem_map.mp hy
    exact .inl less

end

end Contents

namespace Environment

/-- Whenever the first of these moves gets through, the second hands out this item, and leaves
everything as it was before the two. -/
def Returns (env : Environment) (cursor : Handle) (op back : CursorOp) (x : Bytes × Bytes) : Prop :=
  ∀ {key data out env'}, (env.cursorGet cursor key data op.code).Yields ⟨.ok .success, out, env'⟩ →
    ∀ key data, ∃ env'', Unchanged none env env'' ∧
      env'.cursorGet cursor key data back.code = .done (moveFound key data env'' (some x))

/-- What the walks through a database come to, where these are its entries. -/
structure Enumerates (env : Environment) (txn : Handle) (dbi : Dbi) (entries : Contents)
    (layout : Layout) : Prop where
  /-- From a new cursor on, the steps forward find every item in turn, and the steps back find them
  the other way round. -/
  forward : ∀ {cursor}, env.cursors.get? cursor = some (.new txn dbi) →
    env.Repeats cursor .next entries.items
  backward : ∀ {cursor}, env.cursors.get? cursor = some (.new txn dbi) →
    env.Repeats cursor .prev entries.items.reverse
  /-- The steps by key find the first value of each key, or the last. -/
  forward_by_key : ∀ {cursor}, env.cursors.get? cursor = some (.new txn dbi) →
    env.Repeats cursor .nextNoDup entries.firsts
  backward_by_key : ∀ {cursor}, env.cursors.get? cursor = some (.new txn dbi) →
    env.Repeats cursor .prevNoDup entries.lasts.reverse
  /-- From any item, a step there and a step back lead to that item again. -/
  there_and_back : ∀ {cursor c p e v}, env.On cursor c layout entries p e v → c.deleted = false →
      env.Returns cursor .next .prev (e.key, v) ∧ env.Returns cursor .prev .next (e.key, v)
  /-- Where keys and values stand in order, so do the items, none of them twice. -/
  ordered : ∀ {keys values : Order}, entries.InOrder keys values →
    entries.items.Pairwise (Contents.Precedes keys values)

section
variable {env : Environment} {cursor : Handle} {c : Cursor} {txn : Handle} {dbi : Dbi}
  {entries : Contents} {layout : Layout} {p q : Place} {e : Entry} {v : Bytes} {x : Bytes × Bytes}
  {op back : CursorOp}

theorem unchanged_reset (here : env.cursors.get? cursor = some c) (other : Cursor) :
    Unchanged none env ((env.setCursor cursor other).setCursor cursor c) := by
  have same : ∀ k, ((env.setCursor cursor other).setCursor cursor c).cursors.get? k =
      env.cursors.get? k := by
    intro k
    by_cases own : k = cursor
    · subst own
      rw [here]
      exact Table.get?_insert_self _ _ _
    · simp [Environment.setCursor, own]
  exact ⟨rfl, fun k => by rw [same], fun k _ => same k⟩

/-- If the one move is refused, or leads to a place from which the other leads back, they return. -/
theorem returns_of_lands (on : env.On cursor c layout entries p e v) (unmarked : c.deleted = false)
    (known : CursorOp.ofCode? op.code = some op) (known' : CursorOp.ofCode? back.code = some back)
    (steps : (∃ q y,
        (∀ key data, entries.Lands (some (q, y)) (c.target layout entries op key data)) ∧
        ∀ c' : Cursor, c'.place = some q → c'.deleted = false → ∀ key data,
          entries.Lands (some (p, x)) (c'.target layout entries back key data)) ∨
      ∀ key data, entries.Lands none (c.target layout entries op key data)) :
    env.Returns cursor op back x := by
  intro key data out env' made key' data'
  obtain ⟨q, y, lands, returns⟩ | nowhere := steps
  · rw [cursorGet_lands on.here on.readable known (lands _ _)] at made
    cases made
    have again : (c.landed (some (q, y))).landed (some (p, x)) = c := by
      cases c
      cases on.place
      cases unmarked
      rfl
    refine ⟨_, unchanged_reset on.here (c.landed (some (q, y))), ?_⟩
    have placed : (env.setCursor cursor (c.landed (some (q, y)))).cursors.get? cursor =
        some (c.landed (some (q, y))) := Table.get?_insert_self _ _ _
    rw [cursorGet_lands placed on.readable known' (returns _ rfl rfl _ _), again]
    rfl
  · rw [cursorGet_lands on.here on.readable known (nowhere _ _)] at made
    cases made

theorem On.holds (on : env.On cursor c layout entries p e v) : entries.holds p = true :=
  Contents.holds_iff.mpr ⟨e, on.stood, (List.getElem?_eq_some_iff.mp on.was).1⟩

theorem On.item? (on : env.On cursor c layout entries p e v) :
    entries.item? p = some (e.key, v) :=
  Contents.item?_eq_some_iff.mpr ⟨e, on.stood, on.was, rfl⟩

/-- The steps forward from an item come to all that stands behind it. -/
theorem On.walks_on (on : env.On cursor c layout entries p e v) (unmarked : c.deleted = false)
    (inhabited : ∀ e ∈ entries, e.values ≠ []) :
    env.Repeats cursor .next (entries.itemsAfter p) := by
  have same : ({ c with deleted := false } : Cursor) = c := by rw [← unmarked]
  exact repeats_of_serves rfl on.here on.readable (fun _ _ => by rw [same])
    (fun place unmarked holds _ _ => Contents.next_serves inhabited holds place unmarked)
    fun _ _ => Contents.next_serves inhabited on.holds on.place unmarked

theorem On.next_prev (on : env.On cursor c layout entries p e v) (unmarked : c.deleted = false)
    (inhabited : ∀ e ∈ entries, e.values ≠ []) : env.Returns cursor .next .prev (e.key, v) := by
  refine returns_of_lands on unmarked rfl rfl ?_
  obtain ⟨q, follows⟩ | last := Contents.follows_or_last inhabited on.holds
  · obtain ⟨y, there⟩ := Contents.item?_of_holds follows.holds_right
    refine .inl ⟨q, y, fun _ _ => ?_, fun c' place _ _ _ => ?_⟩
    · rw [Cursor.target, Contents.next_of_follows follows on.place unmarked]
      exact Contents.lands_item there
    · rw [Cursor.target, Contents.prev_of_follows follows place]
      exact Contents.lands_item on.item?
  · refine .inr fun _ _ => ?_
    rw [Cursor.target, Contents.next_of_last inhabited on.holds last on.place unmarked]
    exact .nothing

theorem On.prev_next (on : env.On cursor c layout entries p e v) (unmarked : c.deleted = false)
    (inhabited : ∀ e ∈ entries, e.values ≠ []) : env.Returns cursor .prev .next (e.key, v) := by
  refine returns_of_lands on unmarked rfl rfl ?_
  obtain ⟨q, follows⟩ | rfl := Contents.follows_or_first inhabited on.holds
  · obtain ⟨y, there⟩ := Contents.item?_of_holds follows.holds_left
    refine .inl ⟨q, y, fun _ _ => ?_, fun c' place unmarked _ _ => ?_⟩
    · rw [Cursor.target, Contents.prev_of_follows follows on.place]
      exact Contents.lands_item there
    · rw [Cursor.target, Contents.next_of_follows follows place unmarked]
      exact Contents.lands_item on.item?
  · refine .inr fun _ _ => ?_
    rw [Cursor.target, Cursor.prev, on.place]
    exact .nothing

/-- **Walks enumerate the database**, whatever it holds. -/
theorem walks_enumerate_the_items (reached : Reachable env)
    (readable : env.readable txn dbi = .ok (entries, layout)) :
    Enumerates env txn dbi entries layout := by
  have inhabited := readable_inhabited (reachable_balanced reached) readable
  constructor
  case forward =>
    intro cursor fresh
    exact repeats_of_serves rfl fresh readable (fun _ _ => rfl)
      (fun place unmarked holds _ _ => Contents.next_serves inhabited holds place unmarked)
      fun _ _ => (Contents.first_leads inhabited).serves
  case backward =>
    intro cursor fresh
    have last := Contents.tailBefore_serves inhabited (Nat.le_refl entries.length)
    rw [← Contents.lastItem_eq, List.take_length] at last
    exact repeats_of_serves rfl fresh readable (fun _ _ => rfl)
      (fun place _ holds _ _ => Contents.prev_serves inhabited holds place) fun _ _ => last
  case forward_by_key =>
    intro cursor fresh
    have first := Contents.headOf_serves inhabited 0
    rw [← Contents.firstItem_eq] at first
    refine repeats_of_serves rfl fresh readable (fun _ _ => rfl)
      (fun {c' p} place unmarked _ _ _ => ?_) fun _ _ => first
    have step : c'.nextKey entries = Cursor.headOf entries (p.entry + 1) := by
      simp [Cursor.nextKey, place, unmarked]
    rw [Cursor.target, step]
    exact Contents.headOf_serves inhabited (p.entry + 1)
  case backward_by_key =>
    intro cursor fresh
    have last := Contents.tailBefore_serves_keys inhabited (Nat.le_refl entries.length)
    rw [← Contents.lastItem_eq, List.take_length] at last
    refine repeats_of_serves rfl fresh readable (fun _ _ => rfl)
      (fun place _ holds _ _ => ?_) fun _ _ => last
    rw [Cursor.target, Cursor.prevKey, place]
    have within := Nat.le_of_lt (Contents.entry_lt_of_holds holds)
    exact Contents.tailBefore_serves_keys inhabited within
  case there_and_back =>
    intro cursor c p e v on unmarked
    exact ⟨on.next_prev unmarked inhabited, on.prev_next unmarked inhabited⟩
  case ordered =>
    intro keys values inOrder
    exact inOrder.precedes

/-- A cursor that has not moved, one on the second item, and one on the last. -/
theorem four_items_three_cursors :
    ∃ env c d layout, Reachable env ∧ env.readable 1 2 = .ok (fourItems, layout) ∧
      layout.flags.fixed = true ∧ env.cursors.get? 2 = some (.new 1 2) ∧
      On env 3 c layout fourItems ⟨0, 1⟩ ⟨[1], [[5], [6], [7]]⟩ [6] ∧ c.deleted = false ∧
      On env 4 d layout fourItems ⟨1, 0⟩ ⟨[2], [[8]]⟩ [8] ∧ d.deleted = false := by
  have start : Reachable (Environment.new 1 "" {}) := ⟨1, "", {}, 0, .start⟩
  have begun := start.next (.txnBegin none 0) ⟨_, .done _⟩
  have opened := begun.next
    (.dbiOpen 1 (some "values") (Flags.dupSort ||| Flags.dupFixed ||| Flags.create)) ⟨_, .done _⟩
  have first := opened.next (.put 1 2 (some (.filled [1])) (some (.filled [5])) 0) ⟨_, .done _⟩
  have second := first.next (.put 1 2 (some (.filled [1])) (some (.filled [6])) 0) ⟨_, .done _⟩
  have third := second.next (.put 1 2 (some (.filled [1])) (some (.filled [7])) 0) ⟨_, .done _⟩
  have fourth := third.next (.put 1 2 (some (.filled [2])) (some (.filled [8])) 0) ⟨_, .done _⟩
  have unmoved := fourth.next (.cursorOpen 1 2) ⟨_, .done _⟩
  have middle := unmoved.next (.cursorOpen 1 2) ⟨_, .done _⟩
  have end' := middle.next (.cursorOpen 1 2) ⟨_, .done _⟩
  have moved := end'.next (.cursorGet 3 none none CursorOp.first.code) ⟨_, .done _⟩
  have again := moved.next (.cursorGet 3 none none CursorOp.next.code) ⟨_, .done _⟩
  have last := again.next (.cursorGet 4 none none CursorOp.last.code) ⟨_, .done _⟩
  exact ⟨_, _, _, _, last, rfl, rfl, rfl, ⟨rfl, rfl, rfl, rfl, rfl⟩, rfl,
    ⟨rfl, rfl, rfl, rfl, rfl⟩, rfl⟩

/-- Over a key with three values and a key with one. -/
theorem walks_enumerate_four_items :
    ∃ env c layout e, Reachable env ∧ env.readable 1 2 = .ok (fourItems, layout) ∧
      env.cursors.get? 2 = some (.new 1 2) ∧ On env 3 c layout fourItems ⟨0, 1⟩ e [6] ∧
      Enumerates env 1 2 fourItems layout ∧
      env.Repeats 2 .next [([1], [5]), ([1], [6]), ([1], [7]), ([2], [8])] ∧
      env.Repeats 2 .prevNoDup [([2], [8]), ([1], [7])] ∧
      env.Returns 3 .next .prev ([1], [6]) ∧
      fourItems.items.Pairwise (Contents.Precedes .baseline .baseline) := by
  obtain ⟨env, c, _, layout, reached, readable, _, fresh, on, unmarked, -⟩ :=
    four_items_three_cursors
  have walks := walks_enumerate_the_items reached readable
  have inOrder : fourItems.InOrder .baseline .baseline := by
    refine ⟨?_, ?_⟩ <;> unfold Search.Ascending <;> decide
  exact ⟨env, c, layout, _, reached, readable, fresh, on, walks, walks.forward fresh,
    walks.backward_by_key fresh, (walks.there_and_back on unmarked).1, walks.ordered inOrder⟩

end

end Environment

end CollatedStore
