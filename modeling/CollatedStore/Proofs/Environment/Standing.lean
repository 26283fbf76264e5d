import CollatedStore.Proofs.Environment.Enumeration
import CollatedStore.Proofs.Environment.StepBack

/-!
Cursors while others write. A cursor keeps its place, which is the number of a key and the number of
a value; whatever is called elsewhere does not move it, and the item that it is on from then on is
the one that has come to stand there.
-/
namespace CollatedStore

/-- In strict order, an item stands behind as many others as are less. -/
theorem Search.Ascending.countP_less {α β : Type} {order : β → β → Ordering} [Std.TransCmp order]
    {key : α → β} {xs : List α} {i : Nat} {x : α} (ascending : Search.Ascending order key xs)
    (stood : xs[i]? = some x) : xs.countP (fun y => order (key y) (key x) == .lt) = i := by
  obtain ⟨before, after, rfl, here⟩ := exists_cut stood
  obtain ⟨-, tail, below⟩ := List.pairwise_append.mp ascending
  have less : before.countP (fun y => order (key y) (key x) == .lt) = before.length :=
    List.countP_eq_length.mpr fun y there => by simp [below y there x List.mem_cons_self]
  have self : order (key x) (key x) = .eq := Std.ReflCmp.compare_self
  have greater : after.countP (fun y => order (key y) (key x) == .lt) = 0 :=
    List.countP_eq_zero.mpr fun y there => by
      simp [Std.OrientedCmp.gt_of_lt ((List.pairwise_cons.mp tail).1 y there)]
  rw [List.countP_append, List.countP_cons, less, greater, here, self]
  rfl

/-- The move hands out one item, and no page. -/
def CursorOp.single : CursorOp → Bool
  | .getMultiple | .nextMultiple | .prevMultiple => false
  | _ => true

/-- The call goes through another cursor or through none, and leaves this one open. -/
def Call.Spares (h txn : Handle) : Call → Prop
  | .txnCommit t => t ≠ txn
  | .txnAbort t => t ≠ txn
  | .cursorClose k => k ≠ h
  | call => call.cursor ≠ some h

theorem Call.Spares.other {h txn : Handle} {call : Call} (spares : call.Spares h txn) :
    call.cursor ≠ some h := by
  cases call with
  | txnCommit | txnAbort | cursorClose => exact nofun
  | _ => exact spares

namespace Contents

/-- How many keys are less than that of an item, and how many values of its key are less. -/
def rank (keys values : Order) (entries : Contents) (x : Bytes × Bytes) : Place :=
  ⟨entries.countP fun e => keys e.key x.1 == .lt,
    entries.items.countP fun y => keys y.1 x.1 == .eq && values y.2 x.2 == .lt⟩

section
variable {entries : Contents} {p : Place} {x : Bytes × Bytes} {keys values : Order} {c : Cursor}

theorem mem_items_iff : x ∈ entries.items ↔ ∃ p, entries.item? p = some x := by
  constructor
  · intro there
    obtain ⟨e, stored, own⟩ := List.mem_flatMap.mp there
    obtain ⟨v, value, rfl⟩ := List.mem_map.mp own
    obtain ⟨i, stood⟩ := List.mem_iff_getElem?.mp stored
    obtain ⟨j, was⟩ := List.mem_iff_getElem?.mp value
    exact ⟨⟨i, j⟩, item?_eq_some_iff.mpr ⟨e, stood, was, rfl⟩⟩
  · rintro ⟨p, there⟩
    obtain ⟨e, stood, was, own⟩ := item?_eq_some_iff.mp there
    obtain ⟨k, v⟩ := x
    obtain rfl : e.key = k := own
    exact mem_items (List.mem_of_getElem? stood) (List.mem_of_getElem? was)

/-- In order, the place of an item is its rank. -/
theorem rank_eq [Std.TransCmp keys] [Std.TransCmp values] (inOrder : entries.InOrder keys values)
    (there : entries.item? p = some x) : entries.rank keys values x = p := by
  obtain ⟨e, stood, was, own⟩ := item?_eq_some_iff.mp there
  obtain ⟨k, v⟩ := x
  obtain rfl : e.key = k := own
  have entry := inOrder.keys.countP_less stood
  have value := (inOrder.values e (List.mem_of_getElem? stood)).countP_less was
  suffices same : entries.items.countP (fun y => keys y.1 e.key == .eq && values y.2 v == .lt) =
      e.values.countP fun w => values w v == .lt by
    obtain ⟨i, j⟩ := p
    exact congrArg₂ Place.mk entry (same.trans value)
  -- Only the values of the one entry stand under its key.
  obtain ⟨before, after, rfl, -⟩ := exists_cut stood
  obtain ⟨-, tail, below⟩ := List.pairwise_append.mp inOrder.keys
  have self : keys e.key e.key = .eq := Std.ReflCmp.compare_self
  have others : ∀ es : Contents, (∀ d ∈ es, keys d.key e.key ≠ .eq) →
      es.items.countP (fun y => keys y.1 e.key == .eq && values y.2 v == .lt) = 0 := by
    intro es apart
    refine List.countP_eq_zero.mpr fun y item => ?_
    obtain ⟨d, stored, own⟩ := List.mem_flatMap.mp item
    obtain ⟨w, _, rfl⟩ := List.mem_map.mp own
    simp [apart d stored]
  have smaller := others before fun d stored => by simp [below d stored e List.mem_cons_self]
  have larger := others after fun d stored => by
    simp [Std.OrientedCmp.gt_of_lt ((List.pairwise_cons.mp tail).1 d stored)]
  rw [items_append, items_cons, List.countP_append, List.countP_append, smaller, larger,
    Entry.items, List.countP_map]
  simp [Function.comp_def, self]

/-- An item still stands at its place exactly if it is stored and its rank is what it was. -/
theorem item?_iff_rank [Std.TransCmp keys] [Std.TransCmp values] {entries' : Contents}
    (stood : entries.item? p = some x) (inOrder : entries.InOrder keys values)
    (inOrder' : entries'.InOrder keys values) :
    entries'.item? p = some x ↔
      x ∈ entries'.items ∧ entries'.rank keys values x = entries.rank keys values x := by
  have was := rank_eq inOrder stood
  constructor
  · intro stands
    exact ⟨mem_items_iff.mpr ⟨p, stands⟩, (rank_eq inOrder' stands).trans was.symm⟩
  · rintro ⟨stored, same⟩
    obtain ⟨q, stands⟩ := mem_items_iff.mp stored
    obtain rfl : q = p := (rank_eq inOrder' stands).symm.trans (same.trans was)
    exact stands

theorem positioned_reaches (place : c.place = some p) :
    Reaches entries (entries.item? p) (Fetch.item <$> c.positioned entries) := by
  by_cases holds : entries.holds p = true
  · obtain ⟨e, stood, inside⟩ := holds_iff.mp holds
    rw [Cursor.positioned_of_holds place holds]
    exact reaches_item stood (List.getElem?_eq_getElem inside)
  · rw [Cursor.positioned_of_gone place holds, item?_past holds (Nat.le_refl p.value)]
    exact .nothing

end

end Contents

namespace Environment

/-- Calls that spare the cursor, whatever they come to. -/
abbrev Elsewhere (h txn : Handle) : Environment → Environment → Prop :=
  Relation.ReflTransGen fun env env' => ∃ call : Call, call.Spares h txn ∧ Step call env env'

section
variable {env env' : Environment} {h : Handle} {c : Cursor} {call : Call}

theorem Attempted.spared {may : Question → Ordering → Prop} {outcome : Outcome}
    (attempt : Attempted may env call outcome env') (other : call.cursor ≠ some h) :
    env'.cursors.get? h = env.cursors.get? h := by
  induction attempt with
  | refused => rfl
  | wrote => rfl
  | stopped => rfl
  | @moved _ _ k _ _ _ own _ _ _ _ same =>
    have apart : h ≠ k := fun same => other (same ▸ own)
    exact (Table.get?_insert_of_ne _ _ apart).trans same

theorem BatchEnded.spared {may : Question → Ordering → Prop} {k : Handle}
    {key : Option Descriptor} {page : Bytes} {count stride : Nat} {flags : UInt32}
    {reply : Reply Outcome Environment Nat}
    (ended : BatchEnded may env k key page count stride flags reply) (other : h ≠ k) :
    reply.store.cursors.get? h = env.cursors.get? h := by
  cases ended with
  | refused => rfl
  | unfit => exact Table.get?_insert_of_ne _ _ other
  | made => exact Table.get?_insert_of_ne _ _ other

theorem finish_spared {t : Handle} {ended : Txn} (finished : env.finish t = some (ended, env'))
    (here : env.cursors.get? h = some c) (other : t ≠ c.txn) : env'.cursors.get? h = some c := by
  obtain ⟨u, _, same⟩ := Option.map_eq_some_iff.mp finished
  cases same
  exact (Table.get?_filter_eq_some_iff _ _ _ _).mpr ⟨here, by simpa using other.symm⟩

/-- A call that spares the cursor leaves it where it is. -/
theorem step_spares (reached : Reachable env) (here : env.cursors.get? h = some c)
    (spares : call.Spares h c.txn) (step : Step call env env') : env'.cursors.get? h = some c := by
  obtain ⟨outcome, ended⟩ := step_ended step
  cases ended with
  | txnBegin parent flags thread =>
    obtain ⟨_, _, same⟩ | ⟨_, _, _, _, begun⟩ | ⟨_, _, begun⟩ :=
      txnBegin_cases env parent flags thread
    · rw [same]; exact here
    · rw [begun]; exact here
    · rw [begun]; exact here
  | txnCommit t =>
    unfold txnCommit
    split
    · exact here
    · rename_i finished
      exact finish_spared finished here spares
    · rename_i finished
      have kept := finish_spared finished here spares
      exact kept
  | txnAbort t =>
    unfold txnAbort
    split
    · exact here
    · rename_i finished
      exact finish_spared finished here spares
  | dbiOpen txn name flags =>
    obtain same | ⟨snapshot, wanted, _, unknown, opened⟩ := dbiOpen_cases env txn name flags
    · rw [same]; exact here
    · rw [opened]
      obtain same | ⟨_, _, created, _⟩ := createDb_cases unknown txn wanted
      · rw [same]; exact here
      · rw [created]; exact here
  | setOrder role txn dbi fn =>
    unfold setOrder
    split <;> exact here
  | cursorOpen txn dbi =>
    obtain ⟨_, _, same⟩ | ⟨_, _, opened⟩ := cursorOpen_cases env txn dbi
    · rw [same]; exact here
    · rw [opened]
      -- The new cursor has a handle that no cursor had.
      have old := (reachable_handled reached).cursors here
      exact (Table.get?_insert_of_ne _ _ (Nat.ne_of_lt (Nat.lt_succ_of_le old))).trans here
  | cursorClose k => exact (Table.get?_erase_of_ne _ (Ne.symm spares)).trans here
  | read _ => exact here
  | attempted _ attempt => exact (attempt.spared spares.other).trans here
  | batch ended => exact (ended.spared fun same => spares (congrArg some same.symm)).trans here
  | moved ended =>
    exact (ended.unchanged.others h fun same => spares same.symm).trans here

theorem Elsewhere.spares (reached : Reachable env) (here : env.cursors.get? h = some c)
    (run : Elsewhere h c.txn env env') : Reachable env' ∧ env'.cursors.get? h = some c := by
  induction run with
  | refl => exact ⟨reached, here⟩
  | tail _ step ih =>
    obtain ⟨reached, here⟩ := ih
    obtain ⟨call, spares, step⟩ := step
    exact ⟨reached.next call step, step_spares reached here spares step⟩

end

/-! ## The item found -/

section
variable {c c' : Cursor} {layout : Layout} {entries : Contents} {op : CursorOp} {k v : Bytes}
  {fetch : Fetch} {p : Place}

/-- A move that hands out one item leads to that item. -/
theorem target_single (single : op.single = true) {key data : Bytes}
    (led : (c.target layout entries op key data).run.Yields (.ok fetch)) :
    ∃ p, fetch = .item p := by
  have item : ∀ {x : Work Place}, (Fetch.item <$> x).run.Yields (.ok fetch) →
      ∃ p, fetch = .item p := fun led => by
    obtain ⟨p, _, same⟩ := Work.yieldsBy_map_ok.mp (Inquiry.yields_iff.mp led)
    exact ⟨p, same⟩
  cases op with
  | firstDup =>
    obtain ⟨_, _, led⟩ := Work.yields_bind.mp led
    obtain ⟨p, _, led⟩ := Work.yields_bind.mp led
    exact ⟨_, Work.yields_pure.mp led⟩
  | lastDup =>
    obtain ⟨_, _, led⟩ := Work.yields_bind.mp led
    obtain ⟨p, _, led⟩ := Work.yields_bind.mp led
    obtain ⟨last, _, led⟩ := Work.yields_bind.mp led
    exact ⟨_, Work.yields_pure.mp led⟩
  | getMultiple | nextMultiple | prevMultiple => cases single
  | _ => exact item led

theorem move_single (single : op.single = true) {key data : Bytes}
    (moved : (c.move layout entries op key data).run.Yields (.ok (fetch, c'))) :
    ∃ p, fetch = .item p ∧ c' = { c with place := some p, deleted := false } := by
  obtain ⟨fetch', led, moved⟩ := Work.yields_bind.mp moved
  obtain ⟨p, rfl⟩ := target_single single led
  obtain ⟨q, rests, moved⟩ := Work.yields_bind.mp moved
  obtain rfl := Work.yields_pure.mp rests
  obtain ⟨rfl, rfl⟩ := Prod.mk.inj (Work.yields_pure.mp moved)
  exact ⟨q, rfl, rfl⟩

/-- What is handed out of an item is stored there. -/
theorem handOut_item {key data : Option Descriptor}
    (read : (handOut entries (.item p) key data).run.Yields
      (.ok (some (.filled k), some (.filled v)))) :
    ∃ e, entries[p.entry]? = some e ∧ e.values[p.value]? = some v ∧ e.key = k := by
  obtain ⟨k', own, read⟩ := Work.yields_bind.mp read
  obtain ⟨e, stood, own⟩ := Work.yields_bind.mp own
  have stood := Work.yields_itemAt.mp stood
  obtain rfl := Work.yields_pure.mp own
  obtain ⟨out, filled, read⟩ := Work.yields_bind.mp read
  obtain ⟨keys, rfl⟩ := Prod.mk.inj (Work.yields_pure.mp read)
  have same : e.key = k := by
    cases key with
    | none => cases keys
    | some d => exact (Descriptor.filled.inj (Option.some.inj keys)).symm
  cases data with
  | none => cases filled
  | some d =>
    rw [Option.mapM_some] at filled
    obtain ⟨w, filled, inner⟩ := Work.yieldsBy_map_ok.mp (Inquiry.yields_iff.mp filled)
    obtain ⟨v', value, outer⟩ := Work.yieldsBy_map_ok.mp filled
    cases inner
    cases outer
    obtain ⟨e', stood', was⟩ := Work.yields_bind.mp value.yields
    have stood' := Work.yields_itemAt.mp stood'
    cases stood.symm.trans stood'
    exact ⟨e, stood, Work.yields_itemAt.mp was, same⟩

/-- A cursor with which one item was found is on that item. -/
theorem on_of_found {env : Environment} {cursor : Handle} {code : UInt32}
    {key data : Option Descriptor}
    {reply : Reply Outcome Environment (Option Descriptor × Option Descriptor)}
    (balanced : Balanced env) (known : CursorOp.ofCode? code = some op) (single : op.single = true)
    (found : (env.cursorGet cursor key data code).Yields reply)
    (succeeded : reply.ended = .ok .success)
    (handed : reply.out = (some (.filled k), some (.filled v))) :
    ∃ c layout entries p e, reply.store.On cursor c layout entries p e v ∧ e.key = k ∧
      c.deleted = false := by
  cases cursorGet_ended (Inquiry.yields_iff.mp found) with
  | refused denied => exact absurd (Except.ok.inj succeeded) (denies_admitMove env cursor _ denied)
  | unknown => cases succeeded
  | stuck admitted _ moved =>
    obtain ⟨s, ended, failed⟩ := (move_checked balanced admitted).unbroken moved.yields
    exact absurd (Except.ok.inj (ended.symm.trans succeeded)) failed
  | unread _ _ _ read =>
    obtain ⟨b, broken⟩ := unrefused_handOut _ _ _ _ _ read.yields
    rw [broken] at succeeded
    cases succeeded
  | yielded admitted named moved read =>
    obtain ⟨here, readable⟩ := admitMove_eq_ok.mp admitted
    cases known.symm.trans named
    cases handed
    obtain ⟨p, rfl, rfl⟩ := move_single single moved.yields
    obtain ⟨e, stood, was, own⟩ := handOut_item read.yields
    exact ⟨_, _, _, p, e, ⟨Table.get?_insert_self _ _ _, readable, rfl, stood, was⟩, own, rfl⟩

end

/-- What a cursor that was left on an item is good for, where these entries have come to stand. -/
structure KeepsPlace (env : Environment) (cursor : Handle) (c : Cursor) (layout : Layout)
    (entries : Contents) (p : Place) : Prop where
  here : env.cursors.get? cursor = some c
  readable : env.readable c.txn c.dbi = .ok (entries, layout)
  /-- The item that stands at its place by now is the current one. -/
  current : env.Finds cursor .getCurrent (entries.item? p)
  /-- It is this one that a deletion takes out, and no other. -/
  deletes : ∀ {env'}, (env.perform (.cursorDel cursor 0)).Yields (.ok .success, env') →
    ∃ x entries', entries.item? p = some x ∧
      entries.items = entries.itemsBefore p ++ x :: entries.itemsAfter p ∧
      env'.readable c.txn c.dbi = .ok (entries', layout) ∧
      entries'.items = entries.itemsBefore p ++ entries.itemsAfter p

section
variable {env env₀ env' : Environment} {cursor : Handle} {c : Cursor} {layout : Layout}
  {entries : Contents} {p : Place} {e : Entry} {v : Bytes}

/-- A deletion gets through only on an item. -/
theorem on_of_deleted (here : env.cursors.get? cursor = some c)
    (readable : env.readable c.txn c.dbi = .ok (entries, layout)) (place : c.place = some p)
    (deleted : (env.perform (.cursorDel cursor 0)).Yields (.ok .success, env')) :
    ∃ e v, env.On cursor c layout entries p e v := by
  obtain ⟨c', q, db, admitted⟩ := admitted_of_deleted deleted
  obtain ⟨here', writable, stands⟩ := admitCursorDel_eq_ok.mp admitted
  cases here.symm.trans here'
  have same := (readable_of_writable writable).symm.trans readable
  obtain ⟨rfl, rfl⟩ := Prod.mk.inj (Except.ok.inj same)
  obtain ⟨stood, holds⟩ := Option.filter_eq_some_iff.mp stands
  cases place.symm.trans stood
  obtain ⟨e, stood, inside⟩ := Contents.holds_iff.mp holds
  exact ⟨e, _, here, readable, place, stood, List.getElem?_eq_getElem inside⟩

theorem keeps_place (reached : Reachable env) (here : env.cursors.get? cursor = some c)
    (place : c.place = some p) :
    ∃ entries layout, KeepsPlace env cursor c layout entries p := by
  obtain ⟨entries, layout, readable⟩ := open_readable reached here
  refine ⟨entries, layout, ?_⟩
  constructor
  case here => exact here
  case readable => exact readable
  case current =>
    exact finds_of_reaches here readable rfl fun _ _ => Contents.positioned_reaches place
  case deletes =>
    intro env' deleted
    obtain ⟨e, v, on⟩ := on_of_deleted here readable place deleted
    obtain ⟨db, p', holding, writable, rfl, rfl, removal, rfl⟩ :=
      on.deleted (reachable_balanced reached) deleted
    have conforms := readable_conforms reached readable
    have one : takesKey db.layout 0 = false ∨ e.values.length = 1 := by
      cases sorted : db.layout.flags.dupSort with
      | true =>
        left
        rw [takesKey, sorted]
        rfl
      | false => exact .inr ((conforms e (List.mem_of_getElem? on.stood)).single sorted)
    obtain ⟨before, after⟩ := removal.parts on.stood on.was one
    refine ⟨(e.key, v), holding.entries, on.item?, ?_, readable_keep writable holding, ?_⟩
    · rw [← Contents.before_from db.entries p, Contents.itemsFrom_cons on.stood on.was]
    · rw [← Contents.before_from holding.entries p', before, after]
      rfl

/-- A cursor is on the only item; a key is put behind that, or one before it. -/
theorem one_item_two_puts :
    ∃ env₀ env behind before left c layout, Reachable env₀ ∧
      (env₀.cursorGet 2 (some .empty) (some .empty) CursorOp.first.code).Yields
        ⟨.ok .success, (some (.filled [2]), some (.filled [6])), env⟩ ∧
      On env 2 c layout [⟨[2], [[6]]⟩] ⟨0, 0⟩ ⟨[2], [[6]]⟩ [6] ∧
      Elsewhere 2 c.txn env behind ∧
      behind.readable c.txn c.dbi = .ok ([⟨[2], [[6]]⟩, ⟨[3], [[7]]⟩], layout) ∧
      Elsewhere 2 c.txn env before ∧
      before.readable c.txn c.dbi = .ok ([⟨[1], [[5]]⟩, ⟨[2], [[6]]⟩], layout) ∧
      (before.perform (.cursorDel 2 0)).Yields (.ok .success, left) ∧
      left.readable c.txn c.dbi = .ok ([⟨[2], [[6]]⟩], layout) := by
  have start : Reachable (Environment.new 1 "" {}) := ⟨1, "", {}, 0, .start⟩
  have begun := start.next (.txnBegin none 0) ⟨_, .done _⟩
  have one := begun.next (.put 1 1 (some (.filled [2])) (some (.filled [6])) 0) ⟨_, .done _⟩
  have reached := one.next (.cursorOpen 1 1) ⟨_, .done _⟩
  exact ⟨_, _, _, _, _, _, _, reached, .done _, ⟨rfl, rfl, rfl, rfl, rfl⟩,
    .single ⟨.put 1 1 (some (.filled [3])) (some (.filled [7])) 0, nofun, _, .done _⟩, rfl,
    .single ⟨.put 1 1 (some (.filled [1])) (some (.filled [5])) 0, nofun, _, .done _⟩, rfl,
    .done _, rfl⟩

/-- **A cursor keeps its place**, whatever is called elsewhere. The item that it is on stays the one
that it was left on for as long as that is stored with as many keys before its own, and as many
values of its key before it. -/
theorem cursor_keeps_its_place {code : UInt32} {op : CursorOp} {key data : Option Descriptor}
    {k : Bytes} (reached : Reachable env₀) (known : CursorOp.ofCode? code = some op)
    (single : op.single = true)
    (found : (env₀.cursorGet cursor key data code).Yields
      ⟨.ok .success, (some (.filled k), some (.filled v)), env⟩) :
    ∃ c layout entries p e, env.On cursor c layout entries p e v ∧ e.key = k ∧ c.deleted = false ∧
      ∀ {env'}, Elsewhere cursor c.txn env env' →
        ∃ entries' layout', KeepsPlace env' cursor c layout' entries' p ∧
          ∀ {keys values : Order} [Std.TransCmp keys] [Std.TransCmp values],
            entries.InOrder keys values → entries'.InOrder keys values →
            (entries'.item? p = some (k, v) ↔ (k, v) ∈ entries'.items ∧
              entries'.rank keys values (k, v) = entries.rank keys values (k, v)) := by
  obtain ⟨c, layout, entries, p, e, on, own, unmarked⟩ :=
    on_of_found (reachable_balanced reached) known single found rfl rfl
  refine ⟨c, layout, entries, p, e, on, own, unmarked, fun run => ?_⟩
  have moved : Reachable env := reached.next (.cursorGet cursor key data code)
    ⟨_, Inquiry.yields_map.mpr ⟨_, found, rfl⟩⟩
  obtain ⟨later, here⟩ := run.spares moved on.here
  obtain ⟨entries', layout', kept⟩ := keeps_place later here on.place
  refine ⟨entries', layout', kept, fun inOrder inOrder' => ?_⟩
  subst own
  exact Contents.item?_iff_rank on.item? inOrder inOrder'

/-- With a key put behind its own. -/
theorem cursor_keeps_its_place_before_another :
    ∃ env₀ env env' c e layout, Reachable env₀ ∧
      (env₀.cursorGet 2 (some .empty) (some .empty) CursorOp.first.code).Yields
        ⟨.ok .success, (some (.filled [2]), some (.filled [6])), env⟩ ∧
      On env 2 c layout [⟨[2], [[6]]⟩] ⟨0, 0⟩ e [6] ∧ Elsewhere 2 c.txn env env' ∧
      KeepsPlace env' 2 c layout [⟨[2], [[6]]⟩, ⟨[3], [[7]]⟩] ⟨0, 0⟩ ∧
      env'.Finds 2 .getCurrent (some ([2], [6])) := by
  obtain ⟨env₀, env, env', -, -, c, layout, reached, found, on, put, behind, -⟩ := one_item_two_puts
  obtain ⟨c', layout', entries, p, e, on', own, unmarked, keeps⟩ :=
    cursor_keeps_its_place reached rfl rfl found
  cases on.here.symm.trans on'.here
  cases on.place.symm.trans on'.place
  obtain ⟨rfl, rfl⟩ := Prod.mk.inj (Except.ok.inj (on.readable.symm.trans on'.readable))
  obtain ⟨entries', layout', kept, stays⟩ := keeps put
  obtain ⟨rfl, rfl⟩ := Prod.mk.inj (Except.ok.inj (behind.symm.trans kept.readable))
  have inOrder : Contents.InOrder .baseline .baseline [⟨[2], [[6]]⟩] := by
    refine ⟨?_, ?_⟩ <;> unfold Search.Ascending <;> decide
  have inOrder' : Contents.InOrder .baseline .baseline [⟨[2], [[6]]⟩, ⟨[3], [[7]]⟩] := by
    refine ⟨?_, ?_⟩ <;> unfold Search.Ascending <;> decide
  have same := (stays inOrder inOrder').mpr (by decide)
  exact ⟨env₀, env, env', c, e, layout, reached, found, on', put, kept, same ▸ kept.current⟩

/-- With one put before it, the cursor is on that one, and takes that one out. -/
theorem cursor_loses_its_item :
    ∃ env₀ env env' left c entries layout, Reachable env₀ ∧
      (env₀.cursorGet 2 (some .empty) (some .empty) CursorOp.first.code).Yields
        ⟨.ok .success, (some (.filled [2]), some (.filled [6])), env⟩ ∧
      Elsewhere 2 c.txn env env' ∧ env'.cursors.get? 2 = some c ∧
      env'.readable c.txn c.dbi = .ok (entries, layout) ∧ ([2], [6]) ∈ entries.items ∧
      env'.Finds 2 .getCurrent (some ([1], [5])) ∧
      (env'.perform (.cursorDel 2 0)).Yields (.ok .success, left) ∧
      left.readable c.txn c.dbi = .ok ([⟨[2], [[6]]⟩], layout) := by
  obtain ⟨env₀, env, -, env', left, c, layout, reached, found, on, -, -, put, before, deleted,
    rest⟩ := one_item_two_puts
  have moved : Reachable env := reached.next (.cursorGet 2 (some .empty) (some .empty) _)
    ⟨_, Inquiry.yields_map.mpr ⟨_, found, rfl⟩⟩
  obtain ⟨later, here⟩ := put.spares moved on.here
  obtain ⟨entries, layout', kept⟩ := keeps_place later here on.place
  obtain ⟨rfl, rfl⟩ := Prod.mk.inj (Except.ok.inj (before.symm.trans kept.readable))
  exact ⟨env₀, env, env', left, c, _, layout, reached, found, put, here, before, by decide,
    kept.current, deleted, rest⟩

end

end Environment

end CollatedStore
