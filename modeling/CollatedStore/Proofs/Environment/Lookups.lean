import CollatedStore.Proofs.Environment.Enumeration
import CollatedStore.Proofs.Environment.Requests

/-!
Lookups by key. Where keys and values stand in order, a lookup finds the least of the items it asks
for, and nothing if none of them is stored.
-/
namespace CollatedStore

namespace Contents

/-- Of the items that are wanted, the one that precedes all others; or nothing, where none of them
is stored. -/
inductive Foremost (keys values : Order) (entries : Contents) (wanted : Bytes × Bytes → Prop) :
    Option (Bytes × Bytes) → Prop
  | item {x : Bytes × Bytes} (stored : x ∈ entries.items) (fits : wanted x)
      (least : ∀ y ∈ entries.items, wanted y → y = x ∨ Precedes keys values x y) :
      Foremost keys values entries wanted (some x)
  | nothing (unmet : ∀ y ∈ entries.items, ¬wanted y) : Foremost keys values entries wanted none

/-- A search that ends on an item, or finds nothing. -/
inductive Ends (entries : Contents) : Option (Place × Bytes × Bytes) → Except Stop Place → Prop
  | item {p : Place} {e : Entry} {v : Bytes} (stood : entries[p.entry]? = some e)
      (was : e.values[p.value]? = some v) : Ends entries (some (p, e.key, v)) (.ok p)
  | nothing : Ends entries none (.error (.status .notFound))

/-- Under these answers, the search ends on the foremost of the items that are wanted. -/
def Seeks (answer : Question → Ordering) (keys values : Order) (entries : Contents)
    (wanted : Bytes × Bytes → Prop) (search : Work Place) : Prop :=
  ∃ found, Ends entries found (search.eval answer) ∧
    Foremost keys values entries wanted (found.map Prod.snd)

section
variable {answer : Question → Ordering} {keys values : Order} {entries : Contents}
  {wanted : Bytes × Bytes → Prop} {search : Work Place} {p : Place} {e : Entry} {v : Bytes}

theorem Foremost.eq_none_iff {found : Option (Bytes × Bytes)}
    (foremost : Foremost keys values entries wanted found) :
    found = none ↔ ∀ y ∈ entries.items, ¬wanted y := by
  cases foremost with
  | item stored fits least => exact ⟨nofun, fun unmet => absurd fits (unmet _ stored)⟩
  | nothing unmet => exact ⟨fun _ => unmet, fun _ => rfl⟩

/-- The first item that is wanted precedes all others that are. -/
theorem seeks_item (inOrder : entries.InOrder keys values) (stood : entries[p.entry]? = some e)
    (was : e.values[p.value]? = some v) (fits : wanted (e.key, v))
    (others : ∀ y ∈ entries.itemsBefore p, ¬wanted y)
    (led : search.eval answer = .ok p) : Seeks answer keys values entries wanted search := by
  have whole : entries.items = entries.itemsBefore p ++ (e.key, v) :: entries.itemsAfter p := by
    rw [← itemsFrom_cons stood was, before_from]
  refine ⟨some (p, e.key, v), led ▸ .item stood was, .item ?_ fits fun y stored own => ?_⟩
  · rw [whole]
    exact List.mem_append_right _ List.mem_cons_self
  · have precedes := inOrder.precedes
    rw [whole] at precedes stored
    obtain ⟨-, tail, -⟩ := List.pairwise_append.mp precedes
    obtain earlier | later := List.mem_append.mp stored
    · exact absurd own (others y earlier)
    · obtain rfl | later := List.mem_cons.mp later
      · exact .inl rfl
      · exact .inr ((List.pairwise_cons.mp tail).1 y later)

theorem seeks_nothing (unmet : ∀ y ∈ entries.items, ¬wanted y)
    (led : search.eval answer = .error (.status .notFound)) :
    Seeks answer keys values entries wanted search :=
  ⟨none, led ▸ .nothing, .nothing unmet⟩

/-- An item is stored under the key of its entry. -/
theorem forall_items {es : Contents} {may : Bytes × Bytes → Prop} :
    (∀ y ∈ es.items, may y) ↔ ∀ e ∈ es, ∀ v ∈ e.values, may (e.key, v) := by
  simp only [items, List.forall_mem_flatMap, Entry.items, List.forall_mem_map]

end

/-! ## The searches -/

section
variable {answer : Question → Ordering} {layout : Layout} {entries : Contents} {key value : Bytes}
  {spot : Spot}

theorem eval_seekKey (valid : validKey key = true)
    (located : (find layout entries key).eval answer = .ok spot) :
    (Cursor.seekKey layout entries key).eval answer = match spot with
      | .found i => .ok ⟨i, 0⟩
      | .absent _ => .error (.status .notFound) := by
  simp only [Cursor.seekKey, Cursor.checkKey, valid, if_true, Work.eval_bind, Work.eval_pure,
    ok_bind, located]
  cases spot <;> rfl

theorem eval_seekRange (valid : validKey key = true)
    (located : (find layout entries key).eval answer = .ok spot) :
    (Cursor.seekRange layout entries key).eval answer = match spot with
      | .found i => (Cursor.headOf entries i).eval answer
      | .absent i => (Cursor.headOf entries i).eval answer := by
  simp only [Cursor.seekRange, Cursor.checkKey, valid, if_true, Work.eval_bind, Work.eval_pure,
    ok_bind, located]
  cases spot <;> rfl

theorem eval_seekPair_absent {i : Nat} {nearest : Bool} (valid : validKey key = true)
    (sorted : layout.flags.dupSort = true)
    (located : (find layout entries key).eval answer = .ok (.absent i)) :
    (Cursor.seekPair layout entries nearest key value).eval answer =
      .error (.status .notFound) := by
  simp only [Cursor.seekPair, Cursor.checkKey, valid, Cursor.needs, sorted, if_true,
    Work.eval_bind, Work.eval_pure, ok_bind, located, Work.eval_refuse]

theorem eval_seekPair_found {i : Nat} {e : Entry} (nearest : Bool) (valid : validKey key = true)
    (sorted : layout.flags.dupSort = true)
    (located : (find layout entries key).eval answer = .ok (.found i))
    (stood : entries[i]? = some e)
    (among : (findIn layout e.values value).eval answer = .ok spot) :
    (Cursor.seekPair layout entries nearest key value).eval answer = match spot with
      | .found j => .ok ⟨i, j⟩
      | .absent j => if nearest && decide (j < e.values.length) then .ok ⟨i, j⟩
          else .error (.status .notFound) := by
  simp only [Cursor.seekPair, Cursor.checkKey, valid, Cursor.needs, sorted, if_true,
    Work.eval_bind, Work.eval_pure, ok_bind, located, Work.eval_itemAt answer stood, among]
  cases spot with
  | found j => rfl
  | absent j =>
    dsimp only
    split <;> rfl

variable [Std.TransCmp (layout.keys answer)]

theorem seekKey_seeks (inOrder : entries.InOrder (layout.keys answer) (layout.values answer))
    (inhabited : ∀ e ∈ entries, e.values ≠ []) (valid : validKey key = true) :
    Seeks answer (layout.keys answer) (layout.values answer) entries
      (fun y => layout.keys answer y.1 key = .eq) (Cursor.seekKey layout entries key) := by
  obtain ⟨spot, located, cut⟩ := find_cuts inOrder.keys key
  have led := eval_seekKey valid located
  cases cut with
  | @found before after e whole less equal greater =>
    subst whole
    obtain ⟨v, vs, first⟩ := List.exists_cons_of_ne_nil (inhabited e (by simp))
    refine seeks_item inOrder (p := ⟨before.length, 0⟩) (e := e) (v := v) (by simp)
      (by simp [first]) equal ?_ led
    rw [itemsBefore_cut, List.take_zero, List.append_nil, forall_items]
    intro d earlier v _
    simp [less d earlier]
  | absent whole less greater =>
    exact seeks_nothing (forall_items.mpr fun d stored v _ =>
      (Search.Cut.absent whole less greater).differ d stored) led

theorem seekRange_seeks (inOrder : entries.InOrder (layout.keys answer) (layout.values answer))
    (inhabited : ∀ e ∈ entries, e.values ≠ []) (valid : validKey key = true) :
    Seeks answer (layout.keys answer) (layout.values answer) entries
      (fun y => layout.keys answer y.1 key ≠ .lt) (Cursor.seekRange layout entries key) := by
  obtain ⟨spot, located, cut⟩ := find_cuts inOrder.keys key
  -- Whether the key is there or not, all that stand before the spot are less, and no others are.
  obtain ⟨before, rest, rfl, less, others, led⟩ : ∃ before rest, entries = before ++ rest ∧
      (∀ e ∈ before, layout.keys answer e.key key = .lt) ∧
      (∀ e ∈ rest, layout.keys answer e.key key ≠ .lt) ∧
      (Cursor.seekRange layout entries key).eval answer =
        (Cursor.headOf entries before.length).eval answer := by
    have led := eval_seekRange valid located
    cases cut with
    | @found before after e whole less equal greater =>
      refine ⟨before, e :: after, whole, less, fun d later => ?_, led⟩
      obtain rfl | later := List.mem_cons.mp later
      · simp [equal]
      · simp [greater d later]
    | absent whole less greater =>
      exact ⟨_, _, whole, less, fun d later => by simp [greater d later], led⟩
  have early : ∀ y ∈ before.items, ¬layout.keys answer y.1 key ≠ .lt :=
    forall_items.mpr fun d earlier v _ => by simp [less d earlier]
  cases rest with
  | nil =>
    rw [List.append_nil] at *
    exact seeks_nothing early (led.trans (by simp [Cursor.headOf]))
  | cons e after =>
    obtain ⟨v, vs, first⟩ := List.exists_cons_of_ne_nil (inhabited e (by simp))
    exact seeks_item inOrder (p := ⟨before.length, 0⟩) (e := e) (v := v) (by simp)
      (by simp [first]) (others e List.mem_cons_self) (by simpa using early)
      (led.trans (by simp [Cursor.headOf]))

variable [Std.TransCmp (layout.values answer)]

/-- An equal value of an equal key is wanted; with `nearest`, a greater value will do. -/
theorem seekPair_seeks (nearest : Bool) (value : Bytes)
    (inOrder : entries.InOrder (layout.keys answer) (layout.values answer))
    (sorted : layout.flags.dupSort = true) (valid : validKey key = true) :
    Seeks answer (layout.keys answer) (layout.values answer) entries
      (fun y => layout.keys answer y.1 key = .eq ∧ (layout.values answer y.2 value = .eq ∨
        nearest = true ∧ layout.values answer y.2 value = .gt))
      (Cursor.seekPair layout entries nearest key value) := by
  obtain ⟨spot, located, cut⟩ := find_cuts inOrder.keys key
  cases cut with
  | absent whole less greater =>
    refine seeks_nothing (forall_items.mpr fun d stored v _ wanted => ?_)
      (eval_seekPair_absent valid sorted located)
    exact (Search.Cut.absent whole less greater).differ d stored wanted.1
  | @found before after e whole less equal greater =>
    subst whole
    have stood : (before ++ e :: after)[before.length]? = some e := by simp
    obtain ⟨spot, among, cut⟩ := findIn_cuts (inOrder.values e (by simp)) value
    have led := eval_seekPair_found nearest valid sorted located stood among
    -- Nothing under another key is wanted, and nothing that is less.
    have early : ∀ {smaller : List Bytes},
        (∀ v ∈ smaller, layout.values answer v value = .lt) →
        ∀ y ∈ items before ++ smaller.map fun v => (e.key, v),
          ¬(layout.keys answer y.1 key = .eq ∧ (layout.values answer y.2 value = .eq ∨
            nearest = true ∧ layout.values answer y.2 value = .gt)) := by
      intro smaller below
      refine List.forall_mem_append.mpr ⟨forall_items.mpr fun d earlier v _ => ?_,
        List.forall_mem_map.mpr fun v there => ?_⟩
      · simp [less d earlier]
      · simp [below v there]
    cases cut with
    | @found smaller larger v values below same above =>
      refine seeks_item inOrder (p := ⟨before.length, smaller.length⟩) stood (by simp [values])
        ⟨equal, .inl same⟩ ?_ led
      rw [itemsBefore_cut]
      simpa [Entry.items, values] using early below
    | @absent smaller larger values below above =>
      by_cases next : nearest = true ∧ larger ≠ []
      · obtain ⟨rfl, more⟩ := next
        obtain ⟨v, others, rfl⟩ := List.exists_cons_of_ne_nil more
        refine seeks_item inOrder (p := ⟨before.length, smaller.length⟩) stood (by simp [values])
          ⟨equal, .inr ⟨rfl, above v List.mem_cons_self⟩⟩ ?_ (led.trans (by simp [values]))
        rw [itemsBefore_cut]
        simpa [Entry.items, values] using early below
      · refine seeks_nothing ?_ (led.trans (if_neg ?_))
        · rw [items_append, items_cons, Entry.items, values, List.map_append, List.append_assoc,
            ← List.append_assoc]
          refine List.forall_mem_append.mpr ⟨early below, List.forall_mem_append.mpr
            ⟨List.forall_mem_map.mpr fun v there wanted => ?_,
              forall_items.mpr fun d later v _ => by simp [greater d later]⟩⟩
          have more : nearest = true := by simpa [above v there] using wanted.2
          exact next ⟨more, List.ne_nil_of_mem there⟩
        · simpa [values, List.length_pos_iff] using next

end

end Contents

namespace Environment

/-- Under these answers, the move hands out this, or finds nothing. -/
def FindsBy (answer : Question → Ordering) (env : Environment) (cursor : Handle) (op : CursorOp)
    (key data : Option Descriptor) (found : Option (Bytes × Bytes)) : Prop :=
  ∃ store, (env.cursorGet cursor key data op.code).eval answer = moveFound key data store found

/-- How a get ends that finds this. -/
def getFound (data : Descriptor) (env : Environment) :
    Option (Bytes × Bytes) → Reply Outcome Environment (Option Descriptor)
  | some x => ⟨.ok .success, some (.filled x.2), env⟩
  | none => ⟨.ok .notFound, some data, env⟩

/-- What the lookups of a key come to in a database with these entries, in these orders. -/
structure LooksUp (answer : Question → Ordering) (keys values : Order) (env : Environment)
    (txn : Handle) (dbi : Dbi) (sorted : Bool) (entries : Contents) (key : Descriptor) :
    Prop where
  /-- A range begins with the first value of the smallest key that is not less. -/
  range : ∃ found, entries.Foremost keys values (fun y => keys y.1 key.bytes ≠ .lt) found ∧
    (found = none ↔ ∀ e ∈ entries, keys e.key key.bytes = .lt) ∧
    ∀ {cursor} data, env.Stands cursor txn dbi →
      env.FindsBy answer cursor .setRange (some key) data found
  /-- Every lookup of the key itself finds the first value of the key that is equal. -/
  exact : ∃ found, entries.Foremost keys values (fun y => keys y.1 key.bytes = .eq) found ∧
    (found.isSome ↔ ∃ e ∈ entries, keys e.key key.bytes = .eq) ∧
    (∀ {cursor} data, env.Stands cursor txn dbi →
      env.FindsBy answer cursor .set (some key) data found ∧
        env.FindsBy answer cursor .setKey (some key) data found) ∧
    ∀ data, (env.get txn dbi (some key) (some data)).eval answer = getFound data env found
  /-- A pair is found if the key has an equal value. -/
  pair : sorted = true → ∀ {cursor} data, env.Stands cursor txn dbi →
    ∃ found, entries.Foremost keys values
        (fun y => keys y.1 key.bytes = .eq ∧ values y.2 (Descriptor.bytesOf data) = .eq) found ∧
      env.FindsBy answer cursor .getBoth (some key) data found
  /-- In a range of pairs, it is the smallest value of the key that is not less. -/
  pairRange : sorted = true → ∀ {cursor} data, env.Stands cursor txn dbi →
    ∃ found, entries.Foremost keys values
        (fun y => keys y.1 key.bytes = .eq ∧ values y.2 (Descriptor.bytesOf data) ≠ .lt) found ∧
      env.FindsBy answer cursor .getBothRange (some key) data found

section
variable {answer : Question → Ordering} {env : Environment} {txn cursor : Handle} {dbi : Dbi}
  {entries : Contents} {layout : Layout} {found : Option (Place × Bytes × Bytes)}
  {search : Work Place}

/-- Where the search ends decides what the call hands out. -/
theorem findsBy_of_ends {op : CursorOp} {key data : Option Descriptor}
    (stands : env.Stands cursor txn dbi) (readable : env.readable txn dbi = .ok (entries, layout))
    (known : CursorOp.ofCode? op.code = some op)
    (target : ∀ c : Cursor, c.target layout entries op (Descriptor.bytesOf key)
      (Descriptor.bytesOf data) = Fetch.item <$> search)
    (ends : entries.Ends found (search.eval answer)) :
    env.FindsBy answer cursor op key data (found.map Prod.snd) := by
  obtain ⟨c, here, rfl, rfl⟩ := stands
  generalize ended : search.eval answer = result at ends
  have answered : (c.target layout entries op (Descriptor.bytesOf key)
      (Descriptor.bytesOf data)).eval answer = result.map Fetch.item := by
    rw [target c, Work.eval_map, ended]
  cases ends with
  | @item p e v stood was =>
    exact ⟨_, eval_cursorGet_lands here readable known (.item stood was) answered⟩
  | nothing => exact ⟨_, eval_cursorGet_lands here readable known .nothing answered⟩

theorem get_of_ends {key data : Descriptor}
    (readable : env.readable txn dbi = .ok (entries, layout)) (valid : validKey key.bytes = true)
    (ends : entries.Ends found ((Cursor.seekKey layout entries key.bytes).eval answer)) :
    (env.get txn dbi (some key) (some data)).eval answer =
      getFound data env (found.map Prod.snd) := by
  rw [eval_get readable valid, Work.eval_bind]
  generalize (Cursor.seekKey layout entries key.bytes).eval answer = result at ends
  cases ends with
  | item stood was =>
    rw [ok_bind, Contents.eval_valueAt answer stood was]
    rfl
  | nothing => rfl

/-- **Lookups find the true lower bound.** Where keys and values stand in order, a lookup by key or
by pair finds the least item of those it asks for, and nothing exactly if there is none. -/
theorem lookups_find_the_foremost [Std.TransCmp (layout.keys answer)]
    [Std.TransCmp (layout.values answer)] (reached : Reachable env)
    (readable : env.readable txn dbi = .ok (entries, layout))
    (inOrder : entries.InOrder (layout.keys answer) (layout.values answer)) {key : Descriptor}
    (valid : validKey key.bytes = true) :
    LooksUp answer (layout.keys answer) (layout.values answer) env txn dbi layout.flags.dupSort
      entries key := by
  have inhabited := readable_inhabited (reachable_balanced reached) readable
  -- Every key stored has an item.
  have keyed : ∀ may : Bytes → Prop,
      (∀ y ∈ entries.items, may y.1) ↔ ∀ e ∈ entries, may e.key := by
    intro may
    refine Contents.forall_items.trans ⟨fun all e stored => ?_, fun all e stored _ _ => all e stored⟩
    obtain ⟨v, value⟩ := List.exists_mem_of_ne_nil _ (inhabited e stored)
    exact all e stored v value
  constructor
  case range =>
    obtain ⟨found, ends, foremost⟩ := Contents.seekRange_seeks inOrder inhabited valid
    refine ⟨found.map Prod.snd, foremost, ?_, fun data stands =>
      findsBy_of_ends stands readable rfl (fun _ => rfl) ends⟩
    rw [foremost.eq_none_iff, ← keyed fun k => layout.keys answer k key.bytes = .lt]
    simp only [ne_eq, not_not]
  case exact =>
    obtain ⟨found, ends, foremost⟩ := Contents.seekKey_seeks inOrder inhabited valid
    refine ⟨found.map Prod.snd, foremost, ?_, fun data stands =>
      ⟨findsBy_of_ends stands readable rfl (fun _ => rfl) ends,
        findsBy_of_ends stands readable rfl (fun _ => rfl) ends⟩,
      fun data => get_of_ends readable valid ends⟩
    rw [Option.isSome_iff_ne_none, ne_eq, foremost.eq_none_iff,
      keyed fun k => ¬layout.keys answer k key.bytes = .eq]
    simp only [not_forall, not_not, exists_prop]
  case pair =>
    intro sorted cursor data stands
    obtain ⟨found, ends, foremost⟩ :=
      Contents.seekPair_seeks false (Descriptor.bytesOf data) inOrder sorted valid
    refine ⟨found.map Prod.snd, ?_, findsBy_of_ends stands readable rfl (fun _ => rfl) ends⟩
    simpa using foremost
  case pairRange =>
    intro sorted cursor data stands
    obtain ⟨found, ends, foremost⟩ :=
      Contents.seekPair_seeks true (Descriptor.bytesOf data) inOrder sorted valid
    refine ⟨found.map Prod.snd, ?_, findsBy_of_ends stands readable rfl (fun _ => rfl) ends⟩
    have either : ∀ o : Ordering, (o = .eq ∨ True ∧ o = .gt) ↔ o ≠ .lt := by
      intro o
      cases o <;> simp
    simpa only [either] using foremost

/-- Between two keys, and between two values of a key. -/
theorem lookups_find_the_foremost_of_three_items :
    ∃ env answer layout, Reachable env ∧ env.Stands 2 1 2 ∧
      env.readable 1 2 = .ok ([⟨[1], [[5], [7]]⟩, ⟨[3], [[8]]⟩], layout) ∧
      LooksUp answer .baseline .baseline env 1 2 true [⟨[1], [[5], [7]]⟩, ⟨[3], [[8]]⟩]
        (.filled [2]) ∧
      env.FindsBy answer 2 .setRange (some (.filled [2])) none (some ([3], [8])) ∧
      LooksUp answer .baseline .baseline env 1 2 true [⟨[1], [[5], [7]]⟩, ⟨[3], [[8]]⟩]
        (.filled [1]) ∧
      env.FindsBy answer 2 .getBothRange (some (.filled [1])) (some (.filled [6]))
        (some ([1], [7])) := by
  let layout : Layout := ⟨none, none, ⟨true, false⟩⟩
  let answer : Question → Ordering := fun _ => .eq
  obtain ⟨env, reached, stands, readable, range, pairRange⟩ :
      ∃ env, Reachable env ∧ env.Stands 2 1 2 ∧
        env.readable 1 2 = .ok ([⟨[1], [[5], [7]]⟩, ⟨[3], [[8]]⟩], layout) ∧
        env.FindsBy answer 2 .setRange (some (.filled [2])) none (some ([3], [8])) ∧
        env.FindsBy answer 2 .getBothRange (some (.filled [1])) (some (.filled [6]))
          (some ([1], [7])) := by
    have start : Reachable (Environment.new 1 "" {}) := ⟨1, "", {}, 0, .start⟩
    have begun := start.next (.txnBegin none 0) ⟨_, .done _⟩
    have opened := begun.next (.dbiOpen 1 (some "values") (Flags.dupSort ||| Flags.create))
      ⟨_, .done _⟩
    have first := opened.next (.put 1 2 (some (.filled [1])) (some (.filled [5])) 0) ⟨_, .done _⟩
    have second := first.next (.put 1 2 (some (.filled [1])) (some (.filled [7])) 0) ⟨_, .done _⟩
    have third := second.next (.put 1 2 (some (.filled [3])) (some (.filled [8])) 0) ⟨_, .done _⟩
    have reached := third.next (.cursorOpen 1 2) ⟨_, .done _⟩
    exact ⟨_, reached, ⟨_, rfl, rfl, rfl⟩, rfl, ⟨_, rfl⟩, ⟨_, rfl⟩⟩
  have keys : Std.TransCmp (layout.keys answer) := inferInstanceAs (Std.TransCmp Order.baseline)
  have values : Std.TransCmp (layout.values answer) :=
    inferInstanceAs (Std.TransCmp Order.baseline)
  have inOrder : Contents.InOrder (layout.keys answer) (layout.values answer)
      [⟨[1], [[5], [7]]⟩, ⟨[3], [[8]]⟩] := by
    refine ⟨?_, ?_⟩ <;> unfold Search.Ascending <;> decide
  exact ⟨env, answer, layout, reached, stands, readable,
    lookups_find_the_foremost reached readable inOrder (by decide), range,
    lookups_find_the_foremost reached readable inOrder (by decide), pairRange⟩

end

end Environment

end CollatedStore
