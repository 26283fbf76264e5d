import CollatedStore.Client
import CollatedStore.Proofs.Environment.Effects
import CollatedStore.Proofs.Environment.Landing
import CollatedStore.Proofs.Holding

/-!
Walking through a database. From its first move to its last, a cursor yields every item once, in the
order in which the items stand, and then finds nothing.
-/
namespace CollatedStore

namespace Contents

/-- The items that stand behind `p`. -/
def itemsAfter (entries : Contents) (p : Place) : List (Bytes × Bytes) :=
  (match entries[p.entry]? with
    | some e => (e.items).drop (p.value + 1)
    | none => []) ++ items (entries.drop (p.entry + 1))

/-- A step of a cursor, with `left` still to come: it leads to the first of these items, or finds
nothing if there are none. -/
inductive Leads (entries : Contents) : List (Bytes × Bytes) → Work Place → Prop
  | item {p : Place} {e : Entry} {v : Bytes} (he : entries[p.entry]? = some e)
      (hv : e.values[p.value]? = some v) :
      Leads entries ((e.key, v) :: entries.itemsAfter p) (pure p)
  | nothing : Leads entries [] (Work.refuse .notFound)

theorem head_leads {entries : Contents} (inhabited : ∀ e ∈ entries, e.values ≠ []) (i : Nat) :
    Leads entries (items (entries.drop i)) (Cursor.headOf entries i) := by
  unfold Cursor.headOf
  by_cases inside : i < entries.length
  · obtain ⟨v, vs, values⟩ :=
      List.exists_cons_of_ne_nil (inhabited entries[i] (List.getElem_mem inside))
    have here := List.getElem?_eq_getElem inside
    have led : Leads entries ((entries[i].key, v) :: entries.itemsAfter ⟨i, 0⟩) (pure ⟨i, 0⟩) :=
      .item here (by simp [values])
    have split : items (entries.drop i) = (entries[i].key, v) :: entries.itemsAfter ⟨i, 0⟩ := by
      rw [List.drop_eq_getElem_cons inside, items, List.flatMap_cons, ← items]
      simp only [itemsAfter, here, Entry.items, values, List.map_cons, List.drop_succ_cons,
        List.drop_zero, List.cons_append]
    rw [if_pos inside, split]
    exact led
  · rw [if_neg inside, List.drop_eq_nil_of_le (by omega)]
    exact .nothing

theorem first_leads {entries : Contents} (inhabited : ∀ e ∈ entries, e.values ≠ []) :
    Leads entries entries.items (Cursor.firstItem entries) := by
  have led := head_leads inhabited 0
  have same : Cursor.firstItem entries = Cursor.headOf entries 0 := by
    cases entries <;> rfl
  rwa [← same] at led

theorem next_leads {entries : Contents} (inhabited : ∀ e ∈ entries, e.values ≠ []) {c : Cursor}
    {p : Place} {e : Entry} {v : Bytes} (place : c.place = some p) (moved : c.deleted = false)
    (he : entries[p.entry]? = some e) (hv : e.values[p.value]? = some v) :
    Leads entries (entries.itemsAfter p) (c.next entries) := by
  obtain ⟨inside, rfl⟩ := List.getElem?_eq_some_iff.mp hv
  have holds : entries.holds p = true := by simp [Contents.holds, he, inside]
  have last := lastValue_eq he (Nat.zero_lt_of_lt inside)
  simp only [Cursor.next, place, holds, if_true, moved, Bool.false_eq_true, if_false, last,
    pure_bind]
  split
  · have more : p.value + 1 < e.values.length := by omega
    have led : Leads entries
        ((e.key, e.values[p.value + 1]) :: entries.itemsAfter ⟨p.entry, p.value + 1⟩)
        (pure ⟨p.entry, p.value + 1⟩) :=
      .item he (List.getElem?_eq_getElem more)
    have split : entries.itemsAfter p =
        (e.key, e.values[p.value + 1]) :: entries.itemsAfter ⟨p.entry, p.value + 1⟩ := by
      simp only [itemsAfter, he, Entry.items]
      rw [List.drop_eq_getElem_cons (by simpa using more)]
      simp
    rw [split]
    exact led
  · have none_left : e.items.drop (p.value + 1) = [] :=
      List.drop_eq_nil_of_le (by simp [Entry.items]; omega)
    simp only [itemsAfter, he, none_left, List.nil_append]
    exact head_leads inhabited (p.entry + 1)

end Contents

namespace Environment

variable {env : Environment} {cursor : Handle} {c : Cursor} {entries : Contents} {layout : Layout}

theorem cursorGet_item (here : env.cursors.get? cursor = some c)
    (readable : env.readable c.txn c.dbi = .ok (entries, layout)) {op : CursorOp} {code : UInt32}
    (known : CursorOp.ofCode? code = some op) {p : Place} {e : Entry} {v : Bytes}
    (target : c.target layout entries op [] [] = Fetch.item <$> pure p)
    (he : entries[p.entry]? = some e) (hv : e.values[p.value]? = some v) :
    env.cursorGet cursor (some .empty) (some .empty) code =
      .done ⟨.ok .success, (some (.filled e.key), some (.filled v)),
        env.setCursor cursor { c with place := some p, deleted := false }⟩ := by
  have bytes : Descriptor.bytesOf (some .empty) = [] := rfl
  have lands : entries.Lands (some (p, e.key, v)) (Fetch.item <$> pure p) := .item he hv
  rw [← target, ← bytes] at lands
  rw [cursorGet_lands here readable known lands]
  rfl

theorem cursorGet_nothing (here : env.cursors.get? cursor = some c)
    (readable : env.readable c.txn c.dbi = .ok (entries, layout)) {op : CursorOp} {code : UInt32}
    (known : CursorOp.ofCode? code = some op)
    (target : c.target layout entries op [] [] = Fetch.item <$> Work.refuse .notFound) :
    env.cursorGet cursor (some .empty) (some .empty) code =
      .done ⟨.ok .notFound, (some .empty, some .empty),
        env.setCursor cursor { c with deleted := false }⟩ := by
  have bytes : Descriptor.bytesOf (some .empty) = [] := rfl
  have lands : entries.Lands none (Fetch.item <$> Work.refuse .notFound) := .nothing
  rw [← target, ← bytes] at lands
  rw [cursorGet_lands here readable known lands]
  rfl

end Environment

namespace Client

/-- An item as it is handed out. -/
def described (x : Bytes × Bytes) : Descriptor × Descriptor := (.filled x.1, .filled x.2)

variable {env : Environment} {cursor : Handle} {c : Cursor} {entries : Contents} {layout : Layout}

theorem cursorGet_item (here : env.cursors.get? cursor = some c)
    (readable : env.readable c.txn c.dbi = .ok (entries, layout)) {op : CursorOp}
    (known : CursorOp.ofCode? op.code = some op) {p : Place} {e : Entry} {v : Bytes}
    (target : c.target layout entries op [] [] = Fetch.item <$> pure p)
    (he : entries[p.entry]? = some e) (hv : e.values[p.value]? = some v) (host : Host) :
    cursorGet env cursor [] [] op.code host =
      some ((.ok (described (e.key, v)),
        env.setCursor cursor { c with place := some p, deleted := false }),
        { host with parked := none }) := by
  have yielded := Environment.cursorGet_item here readable known target he hv
  simp only [cursorGet, List.isEmpty_nil, if_true, Buffers.cursorGet, Store.cursorGet, yielded]
  rfl

theorem cursorGet_nothing (here : env.cursors.get? cursor = some c)
    (readable : env.readable c.txn c.dbi = .ok (entries, layout)) {op : CursorOp}
    (known : CursorOp.ofCode? op.code = some op)
    (target : c.target layout entries op [] [] = Fetch.item <$> Work.refuse .notFound)
    (host : Host) :
    cursorGet env cursor [] [] op.code host =
      some ((.error (.error (.store "mdb_cursor_get" .notFound)),
        env.setCursor cursor { c with deleted := false }), { host with parked := none }) := by
  have yielded := Environment.cursorGet_nothing here readable known target
  simp only [cursorGet, List.isEmpty_nil, if_true, Buffers.cursorGet, Store.cursorGet, yielded]
  rfl

/-- A walk that has all of `left` still to come yields it and then finds nothing. -/
theorem walk_left (inhabited : ∀ e ∈ entries, e.values ≠ []) (limit : Nat)
    {left : List (Bytes × Bytes)} (enough : left.length < limit)
    (here : env.cursors.get? cursor = some c)
    (readable : env.readable c.txn c.dbi = .ok (entries, layout)) {op : CursorOp}
    (known : CursorOp.ofCode? op.code = some op) {step : Work Place}
    (target : c.target layout entries op [] [] = Fetch.item <$> step)
    (leads : Contents.Leads entries left step) (host : Host) :
    ∃ env', walk env cursor limit op host =
      some ((left.map described, some (.error (.store "mdb_cursor_get" .notFound)), env'),
        { host with parked := none }) := by
  induction limit generalizing env c left op step host with
  | zero => omega
  | succ limit ih =>
    cases leads with
    | nothing =>
      refine ⟨env.setCursor cursor { c with deleted := false }, ?_⟩
      rw [walk, Session.bind_apply, cursorGet_nothing here readable known target]
      rfl
    | @item p e v he hv =>
      have stepped := cursorGet_item here readable known target he hv host
      have placed : (env.setCursor cursor { c with place := some p, deleted := false }).cursors.get?
          cursor = some { c with place := some p, deleted := false } :=
        Table.get?_insert_self _ _ _
      obtain ⟨env', followed⟩ := ih (by simpa using enough) placed readable
        (rfl : CursorOp.ofCode? CursorOp.next.code = some .next) rfl
        (Contents.next_leads inhabited rfl rfl he hv) { host with parked := none }
      refine ⟨env', ?_⟩
      rw [walk, Session.bind_apply, stepped, Option.bind_some]
      dsimp only
      rw [Session.bind_apply, followed]
      rfl

/-- From its first move on, a cursor yields every item and then finds nothing. -/
theorem walk_items (inhabited : ∀ e ∈ entries, e.values ≠ []) {limit : Nat}
    (enough : entries.items.length < limit) (here : env.cursors.get? cursor = some c)
    (readable : env.readable c.txn c.dbi = .ok (entries, layout)) (host : Host) :
    ∃ env', walk env cursor limit .first host =
      some ((entries.items.map described, some (.error (.store "mdb_cursor_get" .notFound)), env'),
        { host with parked := none }) :=
  walk_left inhabited limit enough here readable rfl rfl (Contents.first_leads inhabited) host

end Client

namespace Environment

/-- A new cursor on the database walks through exactly these items. -/
def Walks (env : Environment) (txn : Handle) (dbi : Dbi) (items : List (Bytes × Bytes)) : Prop :=
  (env.cursorOpen txn dbi).ended = .success ∧
    ∀ (host : Host) (limit : Nat), items.length < limit →
      ∃ env', Client.walk (env.cursorOpen txn dbi).store (env.cursorOpen txn dbi).out limit .first
        host = some ((items.map Client.described,
          some (.error (.store "mdb_cursor_get" .notFound)), env'), { host with parked := none })

theorem readable_walks {env : Environment} {txn : Handle} {dbi : Dbi} {entries : Contents}
    {layout : Layout} (readable : env.readable txn dbi = .ok (entries, layout))
    (inhabited : ∀ e ∈ entries, e.values ≠ []) : env.Walks txn dbi entries.items := by
  have opened : env.cursorOpen txn dbi = ⟨.success, env.lastHandle + 1, { env with
      lastHandle := env.lastHandle + 1
      cursors := env.cursors.insert (env.lastHandle + 1) (.new txn dbi) }⟩ := by
    rw [cursorOpen, readable]
  unfold Walks
  rw [opened]
  refine ⟨rfl, fun host limit enough => ?_⟩
  have placed := Table.get?_insert_self env.cursors (env.lastHandle + 1) (.new txn dbi)
  exact Client.walk_items inhabited enough placed readable host

end Environment

end CollatedStore
