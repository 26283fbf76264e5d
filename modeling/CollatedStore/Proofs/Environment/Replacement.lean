import CollatedStore.Proofs.Environment.Standing
import CollatedStore.Proofs.Replacing

/-!
Replacing the item that a cursor is on. One value of the key gives way to another, which comes to
stand where it belongs; where an equal one stands already, the two are one from then on.
-/
namespace CollatedStore

open scoped List

namespace Contents

/-- In `entries'` the item `(e.key, v)` has given way to one whose value is equal to `w`, which
stands at `p'`. -/
structure Exchanged (keys values : Order) (entries : Contents) (p : Place) (e : Entry) (v w : Bytes)
    (entries' : Contents) (p' : Place) : Prop where
  /-- The key and all other entries stand where they stood. -/
  elsewhere : ∃ others, entries' = entries.set p.entry { e with values := others }
  added : (∀ u ∈ e.values.eraseIdx p.value, values u w ≠ .eq) →
    ((e.key, v) :: entries'.items).Perm ((e.key, w) :: entries.items)
  merged : (∃ u ∈ e.values.eraseIdx p.value, values u w = .eq) →
    ((e.key, v) :: entries'.items).Perm entries.items
  inOrder : entries'.InOrder keys values
  item : ∃ u, entries'.item? p' = some (e.key, u) ∧ values u w = .eq

section
variable {entries : Contents} {i : Nat} {e : Entry}

/-- What leaves the values of an entry and what comes to them leaves and comes to the items. -/
theorem items_set_perm (stood : entries[i]? = some e) {others : List Bytes}
    (gone come : List Bytes)
    (exchange : (gone ++ others).Perm (come ++ e.values)) :
    ((gone.map fun v => (e.key, v)) ++
      items (entries.set i { e with values := others })).Perm
        ((come.map fun v => (e.key, v)) ++ entries.items) := by
  obtain ⟨before, after, rfl, here⟩ := exists_cut stood
  subst here
  have moved := (exchange.map fun v => (e.key, v)).append_right (items after)
  have inside := moved.append_left (items before)
  simp only [List.map_append, List.append_assoc] at inside
  rw [List.set_append_right _ _ (Nat.le_refl _), Nat.sub_self, List.set_cons_zero, items_append,
    items_cons, items_append, items_cons]
  exact (List.perm_append_comm_assoc _ _ _).trans
    (inside.trans (List.perm_append_comm_assoc _ _ _))

theorem item?_set (inside : i < entries.length) {others : List Bytes} {j : Nat} {u : Bytes}
    (stands : others[j]? = some u) :
    item? (entries.set i { e with values := others }) ⟨i, j⟩ = some (e.key, u) :=
  item?_eq_some_iff.mpr ⟨_, List.getElem?_set_self inside, stands, rfl⟩

end

end Contents

namespace Holding

variable {keys values : Order} [Std.TransCmp values] {h : Holding} {p : Place} {e : Entry}
  {v w : Bytes} {spot : Spot}

theorem exchange_exchanged (inOrder : h.entries.InOrder keys values)
    (stood : h.entries[p.entry]? = some e) (was : e.values[p.value]? = some v)
    (cut : Search.Cut (fun u => values u w) (e.values.eraseIdx p.value) spot) :
    Contents.Exchanged keys values h.entries p e v w (h.exchange p e v w spot).2.entries
      (h.exchange p e v w spot).1 := by
  obtain ⟨inside, -⟩ := List.getElem?_eq_some_iff.mp stood
  obtain ⟨there, own⟩ := List.getElem?_eq_some_iff.mp was
  have left := (inOrder.values e (List.mem_of_getElem? stood)).eraseIdx p.value
  have removed : (v :: e.values.eraseIdx p.value).Perm e.values := by
    rw [← own]
    exact List.getElem_cons_eraseIdx_perm there
  cases cut with
  | @found smaller larger u others less equal greater =>
    have among : u ∈ e.values.eraseIdx p.value := others ▸ by simp
    constructor
    case elsewhere => exact ⟨_, rfl⟩
    case added => exact fun apart => absurd equal (apart u among)
    case merged => exact fun _ => Contents.items_set_perm stood [v] [] removed
    case inOrder => exact inOrder.set stood left
    case item => exact ⟨u, Contents.item?_set inside (by simp [others]), equal⟩
  | @absent smaller larger others less greater =>
    have upTo : smaller.length ≤ (e.values.eraseIdx p.value).length := by simp [others]
    constructor
    case elsewhere => exact ⟨_, rfl⟩
    case added =>
      intro _
      refine Contents.items_set_perm stood [v] [w] ?_
      calc v :: (e.values.eraseIdx p.value).insertIdx smaller.length w
        _ ~ v :: w :: e.values.eraseIdx p.value := .cons v (List.perm_insertIdx w _ upTo)
        _ ~ w :: v :: e.values.eraseIdx p.value := .swap w v _
        _ ~ w :: e.values := .cons w removed
    case merged =>
      rintro ⟨u, among, equal⟩
      exact absurd equal ((Search.Cut.absent others less greater).differ u among)
    case inOrder => exact inOrder.set stood (left.insertIdx (.absent others less greater))
    case item =>
      exact ⟨w, Contents.item?_set inside (List.getElem?_insertIdx_self.trans (if_pos upTo)),
        Std.ReflCmp.compare_self⟩

end Holding

namespace Environment

/-- Why a call does not replace `v` by `w`. -/
inductive Declines (env : Environment) (db : Opened) (v w : Bytes) (flags : UInt32) :
    Status → Prop
  | flags (unknown : Flags.within flags (Flags.put ||| Flags.current) = false) :
      Declines env db v w flags .invalid
  | length (fixed : db.layout.flags.fixed = true) (differ : v.length ≠ w.length) :
      Declines env db v w flags .badValSize
  | room (full : env.config.mapSize < db.snapshot.used - v.length + w.length) :
      Declines env db v w flags .mapFull

/-- What a call leaves that has replaced `v` by `w` in a database, where its cursor now stands at
`p'`. -/
structure Replaced (keys values : Order) (env : Environment) (cursor : Handle) (c : Cursor)
    (db : Opened) (p : Place) (e : Entry) (v w : Bytes) (env' : Environment) (entries' : Contents)
    (p' : Place) : Prop where
  readable : env'.readable c.txn c.dbi = .ok (entries', db.layout)
  exchanged : db.entries.Exchanged keys values p e v w entries' p'
  /-- Nothing else that is stored has changed. -/
  others : ∀ txn dbi, (txn, dbi) ≠ c.home → env'.view txn dbi = env.view txn dbi
  committed : env'.committed = env.committed
  /-- The bytes in use are those of all keys and values that the writer finds now. -/
  used : ∃ s, env'.txns.get? c.txn = some (.writer s) ∧ s.used = s.dbs.sum Contents.size
  current : env'.Finds cursor .getCurrent (entries'.item? p')

/-- How the call ends where the key is equal: it leaves everything as it was and says why, or it has
replaced the value. -/
inductive ReplacementEnds (keys values : Order) (env : Environment) (cursor : Handle) (c : Cursor)
    (db : Opened) (p : Place) (e : Entry) (v : Bytes) (data : Descriptor) (flags : UInt32) :
    Reply Outcome Environment (Option Descriptor) → Prop
  | refused {s : Status} {env' : Environment} (why : Declines env db v data.bytes flags s)
      (same : Unchanged (some cursor) env env') :
      ReplacementEnds keys values env cursor c db p e v data flags ⟨.ok s, some data, env'⟩
  | replaced {env' : Environment} {entries' : Contents} {p' : Place}
      (replaced : Replaced keys values env cursor c db p e v data.bytes env' entries' p') :
      ReplacementEnds keys values env cursor c db p e v data flags ⟨.ok .success, some data, env'⟩

section
variable {answer : Question → Ordering} {env : Environment} {cursor : Handle} {c : Cursor}
  {db : Opened} {p : Place} {e : Entry} {v : Bytes} {key data : Descriptor} {flags : UInt32}

/-- What cannot be asked of one pair is refused, before anything is written. -/
theorem cursorPut_unknown_flags (here : env.cursors.get? cursor = some c)
    (writable : env.writable c.txn c.dbi = .ok db) (valid : validKey key.bytes = true)
    (unknown : Flags.within flags (Flags.put ||| Flags.current) = false) :
    ∃ env', (env.cursorPut cursor (some key) (some data) flags).eval answer =
      ⟨.ok .invalid, some data, env'⟩ ∧ Unchanged (some cursor) env env' := by
  have start := Unchanged.refl (some cursor) env
  cases within : Flags.within flags Flags.cursorPut with
  | false =>
    have refused : env.admitCursorPut cursor (some key) (some data) flags = .error .invalid := by
      simp [admitCursorPut, present, checkFlags, within]
    exact ⟨env, by rw [cursorPut, refused]; rfl, start⟩
  | true =>
    have many : Flags.has flags Flags.multiple = true := by
      simpa [Flags.within_single, within] using unknown
    rw [eval_cursorPut_of_within here writable valid within, writePair_multiple many]
    exact ⟨env.setCursor cursor { c with deleted := false }, rfl, start.setCursor here rfl⟩

theorem eval_replaceCurrent {limit : Nat} {k w : Bytes} (place : c.place = some p)
    (stood : db.entries[p.entry]? = some e) (was : e.values[p.value]? = some v) :
    (replaceCurrent c db limit k w).eval answer =
      if db.layout.keys answer e.key k = .eq then
        (db.holding.replaceAt db.layout limit p w).eval answer
      else .error (.status .invalid) := by
  obtain ⟨among, -⟩ := List.getElem?_eq_some_iff.mp was
  have stands : c.current db.entries = some p := by
    simp [Cursor.current, place, Contents.holds_iff.mpr ⟨e, stood, among⟩]
  rw [replaceCurrent, stands]
  dsimp only
  rw [Work.eval_bind, Work.eval_itemAt answer stood, ok_bind, Work.eval_bind, Work.eval_compare,
    ok_bind, ← Layout.keys]
  cases db.layout.keys answer e.key k <;> rfl

theorem replaced_of_keep {keys values : Order} {w : Bytes} {holding : Holding} {p' : Place}
    (writable : env.writable c.txn c.dbi = .ok db)
    (later : Reachable ((env.keep db holding).setCursor cursor
      { c with place := some p', deleted := false }))
    (exchanged : db.entries.Exchanged keys values p e v w holding.entries p') :
    Replaced keys values env cursor c db p e v w ((env.keep db holding).setCursor cursor
      { c with place := some p', deleted := false }) holding.entries p' := by
  have readable := readable_keep writable holding
  constructor
  case readable => exact readable
  case exchanged => exact exchanged
  case others =>
    intro txn dbi other
    have view := keep_view writable holding txn dbi
    rw [if_neg fun same => other (Prod.ext same.1 same.2)] at view
    exact view
  case committed => rfl
  case used =>
    obtain ⟨snapshot, record, entries, _, _, _, rfl⟩ := writable_eq_ok.mp writable
    have live := Table.get?_insert_self env.txns c.txn (.writer { snapshot with
      dbs := snapshot.dbs.insert c.dbi holding.entries, used := holding.used })
    exact ⟨_, live, ((reachable_balanced later).live live).used⟩
  case current =>
    exact finds_of_reaches (Table.get?_insert_self _ _ _) readable rfl
      fun _ _ => Contents.positioned_reaches rfl

/-- **A put that replaces takes out the cursor's item and no other**, and puts the new one in where
it belongs, unless an equal value is there; or it is refused and changes nothing. -/
theorem current_replaces_one_item [Std.TransCmp (db.layout.keys answer)]
    [Std.TransCmp (db.layout.values answer)] (reached : Reachable env)
    (writable : env.writable c.txn c.dbi = .ok db)
    (on : env.On cursor c db.layout db.entries p e v)
    (inOrder : db.entries.InOrder (db.layout.keys answer) (db.layout.values answer))
    (key data : Descriptor) (valid : validKey key.bytes = true)
    (asked : Flags.has flags Flags.current = true) :
    (db.layout.keys answer e.key key.bytes = .eq →
      ReplacementEnds (db.layout.keys answer) (db.layout.values answer) env cursor c db p e v data
        flags ((env.cursorPut cursor (some key) (some data) flags).eval answer)) ∧
    (db.layout.keys answer e.key key.bytes ≠ .eq →
      ∃ env', (env.cursorPut cursor (some key) (some data) flags).eval answer =
        ⟨.ok .invalid, some data, env'⟩ ∧ Unchanged (some cursor) env env') := by
  have start := Unchanged.refl (some cursor) env
  have met := Inquiry.yields_eval answer (env.cursorPut cursor (some key) (some data) flags)
  cases within : Flags.within flags (Flags.put ||| Flags.current) with
  | false =>
    obtain ⟨env', refused, same⟩ := cursorPut_unknown_flags on.here writable valid within
    rw [refused]
    exact ⟨fun _ => .refused (.flags within) same, fun _ => ⟨env', rfl, same⟩⟩
  | true =>
    have same : Unchanged (some cursor) env (env.setCursor cursor { c with deleted := false }) :=
      start.setCursor on.here rfl
    rw [Flags.within_single, Bool.and_eq_true, Bool.not_eq_true'] at within
    obtain ⟨within, single⟩ := within
    rw [eval_cursorPut_of_within on.here writable valid within, writePair_current single asked,
      eval_replaceCurrent on.place on.stood on.was] at met ⊢
    refine ⟨fun equal => ?_, fun differ => ⟨_, by rw [if_neg differ]; rfl, same⟩⟩
    rw [if_pos equal] at met ⊢
    have ok := writable_accounted (reachable_balanced reached) (writable_self writable)
    have proper := ok.entries e (List.mem_of_getElem? on.stood)
    have ascending := (inOrder.values e (List.mem_of_getElem? on.stood)).eraseIdx p.value
    obtain ⟨spot, located, cut⟩ := Contents.findIn_cuts ascending data.bytes
    rw [Holding.eval_replaceAt on.stood on.was proper.single (ok.value_within on.stood on.was)
      located] at met ⊢
    by_cases wrong : db.layout.flags.fixed = true ∧ v.length ≠ data.bytes.length
    · rw [if_pos wrong]
      exact .refused (.length wrong.1 wrong.2) same
    · rw [if_neg wrong] at met ⊢
      by_cases full : env.config.mapSize < db.holding.used - v.length + data.bytes.length
      · rw [if_pos full]
        exact .refused (.room full) same
      · rw [if_neg full] at met ⊢
        have exchanged := Holding.exchange_exchanged (h := db.holding) inOrder on.stood on.was cut
        generalize db.holding.exchange p e v data.bytes spot = stored at met exchanged ⊢
        obtain ⟨p', holding⟩ := stored
        have later : Reachable ((env.keep db holding).setCursor cursor
            { c with place := some p', deleted := false }) :=
          reached.next (.cursorPut cursor (some key) (some data) flags)
            ⟨_, Inquiry.yields_map.mpr ⟨_, met, rfl⟩⟩
        exact .replaced (replaced_of_keep writable later exchanged)

/-- The smaller of two values grows past the other, and the cursor follows it. -/
theorem current_replaces_the_smaller_of_two_values :
    ∃ env c db answer, Reachable env ∧ env.writable c.txn c.dbi = .ok db ∧
      env.On 2 c db.layout [⟨[1], [[5], [7]]⟩] ⟨0, 0⟩ ⟨[1], [[5], [7]]⟩ [5] ∧
      ReplacementEnds (db.layout.keys answer) (db.layout.values answer) env 2 c db ⟨0, 0⟩
        ⟨[1], [[5], [7]]⟩ [5] (.filled [9]) Flags.current
        ((env.cursorPut 2 (some (.filled [1])) (some (.filled [9])) Flags.current).eval answer) ∧
      ((env.cursorPut 2 (some (.filled [1])) (some (.filled [9])) Flags.current).eval
        answer).store.readable c.txn c.dbi = .ok ([⟨[1], [[7], [9]]⟩], db.layout) ∧
      (((env.cursorPut 2 (some (.filled [1])) (some (.filled [9])) Flags.current).eval
        answer).store.cursors.get? 2).bind Cursor.place = some ⟨0, 1⟩ := by
  let answer : Question → Ordering := fun _ => .eq
  obtain ⟨env, c, db, reached, writable, entries, layout, on, left, stands⟩ :
      ∃ env c db, Reachable env ∧ env.writable c.txn c.dbi = .ok db ∧
        db.entries = [⟨[1], [[5], [7]]⟩] ∧ db.layout = ⟨none, none, ⟨true, false⟩⟩ ∧
        env.On 2 c db.layout [⟨[1], [[5], [7]]⟩] ⟨0, 0⟩ ⟨[1], [[5], [7]]⟩ [5] ∧
        ((env.cursorPut 2 (some (.filled [1])) (some (.filled [9])) Flags.current).eval
          answer).store.readable c.txn c.dbi = .ok ([⟨[1], [[7], [9]]⟩], db.layout) ∧
        (((env.cursorPut 2 (some (.filled [1])) (some (.filled [9])) Flags.current).eval
          answer).store.cursors.get? 2).bind Cursor.place = some ⟨0, 1⟩ := by
    have start : Reachable (Environment.new 1 "" {}) := ⟨1, "", {}, 0, .start⟩
    have begun := start.next (.txnBegin none 0) ⟨_, .done _⟩
    have opened := begun.next (.dbiOpen 1 (some "values") (Flags.dupSort ||| Flags.create))
      ⟨_, .done _⟩
    have first := opened.next (.put 1 2 (some (.filled [1])) (some (.filled [5])) 0) ⟨_, .done _⟩
    have second := first.next (.put 1 2 (some (.filled [1])) (some (.filled [7])) 0) ⟨_, .done _⟩
    have cursor := second.next (.cursorOpen 1 2) ⟨_, .done _⟩
    have moved := cursor.next (.cursorGet 2 none none CursorOp.first.code) ⟨_, .done _⟩
    exact ⟨_, _, _, moved, rfl, rfl, rfl, ⟨rfl, rfl, rfl, rfl, rfl⟩, rfl, rfl⟩
  have keys : Std.TransCmp (db.layout.keys answer) := by
    rw [layout]
    exact inferInstanceAs (Std.TransCmp Order.baseline)
  have values : Std.TransCmp (db.layout.values answer) := by
    rw [layout]
    exact inferInstanceAs (Std.TransCmp Order.baseline)
  have inOrder : db.entries.InOrder (db.layout.keys answer) (db.layout.values answer) := by
    rw [entries, layout]
    refine ⟨?_, ?_⟩ <;> unfold Search.Ascending <;> decide
  have same : db.layout.keys answer [1] [1] = .eq := Std.ReflCmp.compare_self
  rw [← entries] at on
  have asked : Flags.has Flags.current Flags.current = true := by decide
  have ended := (current_replaces_one_item reached writable on inOrder (.filled [1]) (.filled [9])
    (by decide) asked).1 same
  rw [entries] at on
  exact ⟨env, c, db, answer, reached, writable, on, ended, left, stands⟩

end

end Environment

end CollatedStore
