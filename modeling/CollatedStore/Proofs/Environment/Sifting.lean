import CollatedStore.Proofs.Environment.Batches
import CollatedStore.Proofs.Environment.Checks
import CollatedStore.Proofs.Environment.Deletion

/-!
Deleting while walking. A loop that steps forward and deletes some of what it finds visits every item
once, in the order in which the items stood, and leaves those that it did not delete.
-/
namespace CollatedStore

namespace Contents

variable {entries : Contents} {c : Cursor} {p : Place}

/-- After a deletion the next step leads to the items from the cursor's own place on. -/
theorem marked_leads (place : c.place = some p) (marked : c.deleted = true)
    (stands : entries.holds p = true ∨ entries.length ≤ p.entry) :
    Leads entries (entries.itemsFrom p) (c.next entries) := by
  unfold Cursor.next
  rw [place]
  dsimp only
  by_cases holds : entries.holds p = true
  · obtain ⟨e, stood, inside⟩ := holds_iff.mp holds
    have was := List.getElem?_eq_getElem inside
    rw [if_pos holds, if_pos marked, itemsFrom_cons stood was]
    exact .item stood was
  · rw [if_neg holds, itemsFrom_past (stands.resolve_left holds)]
    exact .nothing

/-- The items that are not picked, counted from `n`. -/
def unpicked (picks : Nat → Bytes × Bytes → Bool) (n : Nat) (items : List (Bytes × Bytes)) :
    List (Bytes × Bytes) :=
  ((items.zipIdx n).filter fun x => !picks x.2 x.1).map Prod.fst

section
variable {picks : Nat → Bytes × Bytes → Bool} {n : Nat} {x : Bytes × Bytes}
  {rest : List (Bytes × Bytes)}

theorem unpicked_picked (picked : picks n x = true) :
    unpicked picks n (x :: rest) = unpicked picks (n + 1) rest := by
  simp [unpicked, List.zipIdx_cons, picked]

theorem unpicked_kept (kept : picks n x = false) :
    unpicked picks n (x :: rest) = x :: unpicked picks (n + 1) rest := by
  simp [unpicked, List.zipIdx_cons, kept]

end

end Contents

namespace Environment

/-- Deletes the cursor's item if it is picked. -/
def deleteIf (env : Environment) (cursor : Handle) (picked : Bool) :
    Inquiry (Reply Outcome Environment Unit) :=
  if picked then env.cursorDel cursor 0 else return ⟨.ok .success, (), env⟩

/-- Steps forward until a call does not succeed, and deletes each item that is picked, by its number
and by what it is. Hands out all items found. Ends without an outcome if `limit` steps are not
enough. -/
def sift (env : Environment) (cursor : Handle) (picks : Nat → Bytes × Bytes → Bool) (n : Nat) :
    Nat → Inquiry (Reply (Option Outcome) Environment (List (Bytes × Bytes)))
  | 0 => return ⟨none, [], env⟩
  | limit + 1 => do
    let found ← env.cursorGet cursor (some .empty) (some .empty) CursorOp.next.code
    if found.ended.toOption = some .success then
      let x := (Descriptor.bytesOf found.out.1, Descriptor.bytesOf found.out.2)
      let turned ← found.store.deleteIf cursor (picks n x)
      if turned.ended.toOption = some .success then
        let later ← turned.store.sift cursor picks (n + 1) limit
        return { later with out := x :: later.out }
      else return ⟨some turned.ended, [x], turned.store⟩
    else return ⟨some found.ended, [], found.store⟩

/-- The loop has left the items `kept` behind it, and has `left` still to come. -/
structure Sifting (env : Environment) (cursor : Handle) (c : Cursor) (db : Opened)
    (kept left : List (Bytes × Bytes)) : Prop where
  reached : Reachable env
  here : env.cursors.get? cursor = some c
  writable : env.writable c.txn c.dbi = .ok db
  items : db.entries.items = kept ++ left
  leads : Contents.Leads db.entries left (c.next db.entries)

/-- What one turn of the loop leaves, with `kept` behind it and `left` to come. -/
structure Turned (env env' : Environment) (cursor : Handle) (c c' : Cursor) (db db' : Opened)
    (kept left : List (Bytes × Bytes)) : Prop where
  sifting : env'.Sifting cursor c' db' kept left
  txn : c'.txn = c.txn
  dbi : c'.dbi = c.dbi
  layout : db'.layout = db.layout
  keys : (db'.entries.map Entry.key).Sublist (db.entries.map Entry.key)
  used : db'.snapshot.used + db.entries.size = db.snapshot.used + db'.entries.size
  /-- What is kept after it takes the place of what it kept. -/
  data : ∀ last, SameData (env'.keep db' last) (env.keep db last)

/-- What the loop comes to, which visits these items and leaves those. -/
structure Sifted (env : Environment) (txn : Handle) (dbi : Dbi) (db : Opened)
    (visited left : List (Bytes × Bytes))
    (reply : Reply (Option Outcome) Environment (List (Bytes × Bytes))) (holding : Holding) :
    Prop where
  /-- It ends with the step that finds nothing more. -/
  ended : reply.ended = some (.ok .notFound)
  visited : reply.out = visited
  left : holding.entries.items = left
  keys : (holding.entries.map Entry.key).Sublist (db.entries.map Entry.key)
  inhabited : ∀ e ∈ holding.entries, e.values ≠ []
  /-- The bytes in use fall by those of the values deleted, and of the keys left without a value. -/
  used : holding.used + db.entries.size = db.snapshot.used + holding.entries.size
  serves : reply.store.Serves txn dbi db.layout holding
  /-- Nothing else changes. -/
  data : SameData reply.store (env.keep db holding)

section
variable {env env₁ env₂ : Environment} {cursor : Handle} {c : Cursor} {db : Opened}
  {kept left rest : List (Bytes × Bytes)} {x : Bytes × Bytes}
  {picks : Nat → Bytes × Bytes → Bool} {n limit : Nat}

/-- A turn that gets through goes on with the next. -/
theorem sift_turned
    (found : env.cursorGet cursor (some .empty) (some .empty) CursorOp.next.code =
      .done ⟨.ok .success, (some (.filled x.1), some (.filled x.2)), env₁⟩)
    (turned : env₁.deleteIf cursor (picks n x) = .done ⟨.ok .success, (), env₂⟩) :
    env.sift cursor picks n (limit + 1) = do
      let later ← env₂.sift cursor picks (n + 1) limit
      return { later with out := x :: later.out } := by
  have through : (Except.ok Status.success : Outcome).toOption = some .success := rfl
  have item : (Descriptor.bytesOf (some (.filled x.1)), Descriptor.bytesOf (some (.filled x.2))) =
      x := rfl
  rw [sift, found, Inquiry.done_bind, if_pos through]
  dsimp only
  rw [item, turned, Inquiry.done_bind, if_pos through]

theorem Sifting.inhabited (sifting : env.Sifting cursor c db kept left) :
    ∀ e ∈ db.entries, e.values ≠ [] :=
  readable_inhabited (reachable_balanced sifting.reached) (readable_of_writable sifting.writable)

/-- With nothing left to come, the next step is the last. -/
theorem Sifting.ends (sifting : env.Sifting cursor c db kept []) :
    env.sift cursor picks n (limit + 1) = .done ⟨some (.ok .notFound), [],
      env.setCursor cursor { c with deleted := false }⟩ := by
  have target : c.target db.layout db.entries .next [] [] =
      Fetch.item <$> Work.refuse .notFound := by
    have leads := sifting.leads
    rw [Cursor.target]
    generalize c.next db.entries = step at leads
    cases leads
    rfl
  have told := cursorGet_nothing sifting.here (readable_of_writable sifting.writable)
    (rfl : CursorOp.ofCode? CursorOp.next.code = some .next) target
  have failed : ¬(Except.ok Status.notFound : Outcome).toOption = some .success := by decide
  rw [sift, told, Inquiry.done_bind, if_neg failed]
  rfl

/-- An item still to come is what the next step finds, and it leaves the cursor there. -/
theorem Sifting.finds (sifting : env.Sifting cursor c db kept (x :: rest)) :
    ∃ p e v, x = (e.key, v) ∧ db.entries[p.entry]? = some e ∧ e.values[p.value]? = some v ∧
      kept = db.entries.itemsBefore p ∧ rest = db.entries.itemsAfter p ∧
      env.cursorGet cursor (some .empty) (some .empty) CursorOp.next.code =
        .done ⟨.ok .success, (some (.filled x.1), some (.filled x.2)),
          env.setCursor cursor { c with place := some p, deleted := false }⟩ := by
  have leads := sifting.leads
  generalize step : c.next db.entries = next at leads
  cases leads with
  | @item p e v stood was =>
    have target : c.target db.layout db.entries .next [] [] = Fetch.item <$> pure p := by
      rw [Cursor.target, step]
    have told := cursorGet_item sifting.here (readable_of_writable sifting.writable)
      (rfl : CursorOp.ofCode? CursorOp.next.code = some .next) target stood was
    have split := Contents.before_from db.entries p
    rw [sifting.items, Contents.itemsFrom_cons stood was] at split
    exact ⟨p, e, v, rfl, stood, was, (List.append_cancel_right split).symm, rfl, told⟩

/-- A deletion leaves what stood before the item behind, and what stood after it to come. -/
theorem deletion_turns (reached : Reachable env) (here : env.cursors.get? cursor = some c)
    (writable : env.writable c.txn c.dbi = .ok db) {p : Place} (place : c.place = some p) {e : Entry}
    (stood : db.entries[p.entry]? = some e) {v : Bytes} (was : e.values[p.value]? = some v) :
    ∃ env' c' db', env.cursorDel cursor 0 = .done ⟨.ok .success, (), env'⟩ ∧
      Turned env env' cursor c c' db db' (db.entries.itemsBefore p) (db.entries.itemsAfter p) := by
  have balanced := reachable_balanced reached
  have accounted := writable_accounted balanced (writable_self writable)
  obtain ⟨p', holding, removal, gone⟩ :=
    cursorDel_removes balanced here writable place stood was 0
  obtain ⟨db', writable', layout, rfl⟩ := keep_serves writable holding
  -- Where a key goes as a whole, it has no value but this one.
  have one : takesKey db.layout 0 = false ∨ e.values.length = 1 := by
    cases sorted : db.layout.flags.dupSort with
    | true => exact .inl (by simp [takesKey, sorted, Flags.has])
    | false => exact .inr ((accounted.entries e (List.mem_of_getElem? stood)).single sorted)
  obtain ⟨before, behind⟩ := removal.parts stood was one
  have reached' := reached.next (.cursorDel cursor 0) ⟨_, by rw [perform, gone]; exact .done _⟩
  have inhabited : ∀ e ∈ db'.entries, e.values ≠ [] :=
    readable_inhabited (reachable_balanced reached') (readable_of_writable writable')
  refine ⟨_, { c with place := some p', deleted := true }, db', gone, ?_⟩
  constructor
  case sifting =>
    refine ⟨reached', Table.get?_insert_self _ _ _, writable', ?_, ?_⟩
    · rw [← Contents.before_from db'.entries p']
      exact congrArg₂ (· ++ ·) before behind
    · have leads := Contents.marked_leads (c := { c with place := some p', deleted := true }) rfl rfl
        (removal.stands stood inhabited)
      rwa [behind] at leads
  case txn => rfl
  case dbi => rfl
  case layout => exact layout
  case keys => exact removal.keys stood
  case used => exact removal.used stood was (accounted.entry_within stood)
  case data =>
    intro last
    have unmoved : SameData (((env.keep db db'.holding).keep db' last).setCursor cursor
        { c with place := some p', deleted := true }) ((env.keep db db'.holding).keep db' last) :=
      setCursor_sameData cursor _
    exact unmoved.trans (keep_again writable db'.holding writable' last)

/-- One turn leaves the item behind or deletes it; the other items stay, in their order. -/
theorem Sifting.turns (sifting : env.Sifting cursor c db kept (x :: rest)) (picked : Bool) :
    ∃ env₁ env₂ c' db',
      env.cursorGet cursor (some .empty) (some .empty) CursorOp.next.code =
        .done ⟨.ok .success, (some (.filled x.1), some (.filled x.2)), env₁⟩ ∧
      env₁.deleteIf cursor picked = .done ⟨.ok .success, (), env₂⟩ ∧
      Turned env env₂ cursor c c' db db' (if picked then kept else kept ++ [x]) rest := by
  obtain ⟨p, e, v, rfl, stood, was, rfl, rfl, found⟩ := sifting.finds
  have reached : Reachable (env.setCursor cursor { c with place := some p, deleted := false }) :=
    sifting.reached.next (.cursorGet cursor (some .empty) (some .empty) CursorOp.next.code)
      ⟨_, by rw [perform, found]; exact .done _⟩
  have here := Table.get?_insert_self env.cursors cursor
    { c with place := some p, deleted := false }
  have unmoved : ∀ last, SameData ((env.setCursor cursor
      { c with place := some p, deleted := false }).keep db last) (env.keep db last) :=
    fun last => ⟨fun _ _ => rfl, fun _ => rfl, rfl⟩
  cases picked with
  | false =>
    refine ⟨_, _, { c with place := some p, deleted := false }, db, found, rfl, ?_⟩
    refine ⟨⟨reached, here, sifting.writable, ?_, ?_⟩, rfl, rfl, rfl, .refl _, rfl, unmoved⟩
    · rw [← Contents.before_from db.entries p, Contents.itemsFrom_cons stood was]
      simp
    · exact Contents.next_leads sifting.inhabited rfl rfl stood was
  | true =>
    obtain ⟨env₂, c', db', gone, turned⟩ :=
      deletion_turns reached here sifting.writable rfl stood was
    refine ⟨_, env₂, c', db', found, gone, turned.sifting, turned.txn, turned.dbi, turned.layout,
      turned.keys, turned.used, fun last => (turned.data last).trans (unmoved last)⟩

/-- A whole run, from any of its turns on. -/
theorem Sifting.runs (sifting : env.Sifting cursor c db kept left) (enough : left.length < limit) :
    ∃ reply holding, env.sift cursor picks n limit = .done reply ∧
      Sifted env c.txn c.dbi db left (kept ++ Contents.unpicked picks n left) reply holding := by
  -- A turn takes one item off `left`, and changes all else that the invariant is about.
  induction left generalizing env c db kept n limit with
  | nil =>
    obtain ⟨fewer, rfl⟩ : ∃ fewer, limit = fewer + 1 := Nat.exists_eq_add_one.mpr enough
    refine ⟨_, db.holding, sifting.ends, ?_⟩
    constructor
    case ended => rfl
    case visited => rfl
    case left => exact sifting.items
    case keys => exact .refl _
    case inhabited => exact sifting.inhabited
    case used => rfl
    case serves => exact ⟨db, sifting.writable, rfl, rfl⟩
    case data => exact (setCursor_sameData cursor _).trans (keep_held sifting.writable)
  | cons x rest ih =>
    obtain ⟨fewer, rfl⟩ : ∃ fewer, limit = fewer + 1 :=
      Nat.exists_eq_add_one.mpr (Nat.zero_lt_of_lt enough)
    obtain ⟨env₁, env₂, c', db', found, gone, turned⟩ := sifting.turns (picks n x)
    have enough : rest.length < fewer := by simpa using enough
    obtain ⟨later, holding, went, sifted⟩ := ih turned.sifting (n := n + 1) enough
    rw [turned.txn, turned.dbi] at sifted
    refine ⟨{ later with out := x :: later.out }, holding, ?_, ?_⟩
    · rw [sift_turned found gone, went]
      rfl
    · constructor
      case ended => exact sifted.ended
      case visited => exact congrArg (x :: ·) sifted.visited
      case left =>
        rw [sifted.left]
        cases picked : picks n x with
        | false => simp [Contents.unpicked_kept picked]
        | true => simp [Contents.unpicked_picked picked]
      case keys => exact sifted.keys.trans turned.keys
      case inhabited => exact sifted.inhabited
      case used =>
        have here := turned.used
        have further := sifted.used
        omega
      case serves => exact turned.layout ▸ sifted.serves
      case data => exact sifted.data.trans (turned.data holding)

/-- **Deleting what is picked while walking leaves the rest**: from a new cursor of a writer the loop
visits every item once, in order, and ends. -/
theorem sifting_leaves_the_unpicked (reached : Reachable env) {txn : Handle} {dbi : Dbi}
    (fresh : env.cursors.get? cursor = some (.new txn dbi))
    (writable : env.writable txn dbi = .ok db) (picks : Nat → Bytes × Bytes → Bool)
    (enough : db.entries.items.length < limit) :
    ∃ reply holding, env.sift cursor picks 0 limit = .done reply ∧
      Sifted env txn dbi db db.entries.items (Contents.unpicked picks 0 db.entries.items) reply
        holding := by
  have inhabited := readable_inhabited (reachable_balanced reached) (readable_of_writable writable)
  have sifting : env.Sifting cursor (.new txn dbi) db [] db.entries.items :=
    ⟨reached, fresh, writable, rfl, Contents.first_leads inhabited⟩
  exact sifting.runs enough

/-- Of the three values of a key all but the second are deleted, and so is the key behind it. -/
theorem sifting_leaves_the_unpicked_second_value :
    ∃ env db, Reachable env ∧ env.cursors.get? 2 = some (.new 1 2) ∧ env.writable 1 2 = .ok db ∧
      db.entries.items.length < 5 ∧ ∃ reply holding,
        env.sift 2 (fun n _ => n != 1) 0 5 = .done reply ∧
        Sifted env 1 2 db db.entries.items
          (Contents.unpicked (fun n _ => n != 1) 0 db.entries.items) reply holding ∧
        reply.out = [([1], [5]), ([1], [6]), ([1], [7]), ([2], [8])] ∧
        holding.entries.items = [([1], [6])] := by
  have start : Reachable (Environment.new 1 "" {}) := ⟨1, "", {}, 0, .start⟩
  have begun := start.next (.txnBegin none 0) ⟨_, .done _⟩
  have opened := begun.next (.dbiOpen 1 (some "values") (Flags.dupSort ||| Flags.create))
    ⟨_, .done _⟩
  have first := opened.next (.put 1 2 (some (.filled [1])) (some (.filled [5])) 0) ⟨_, .done _⟩
  have second := first.next (.put 1 2 (some (.filled [1])) (some (.filled [6])) 0) ⟨_, .done _⟩
  have third := second.next (.put 1 2 (some (.filled [1])) (some (.filled [7])) 0) ⟨_, .done _⟩
  have other := third.next (.put 1 2 (some (.filled [2])) (some (.filled [8])) 0) ⟨_, .done _⟩
  have cursor := other.next (.cursorOpen 1 2) ⟨_, .done _⟩
  obtain ⟨env, db, reached, fresh, writable, items⟩ : ∃ env db, Reachable env ∧
      env.cursors.get? 2 = some (.new 1 2) ∧ env.writable 1 2 = .ok db ∧
      db.entries.items = [([1], [5]), ([1], [6]), ([1], [7]), ([2], [8])] :=
    ⟨_, _, cursor, rfl, rfl, rfl⟩
  have enough : db.entries.items.length < 5 := by rw [items]; decide
  obtain ⟨reply, holding, ran, sifted⟩ :=
    sifting_leaves_the_unpicked reached fresh writable (fun n _ => n != 1) enough
  refine ⟨env, db, reached, fresh, writable, enough, reply, holding, ran, sifted, ?_, ?_⟩
  · rw [sifted.visited, items]
  · rw [sifted.left, items]
    rfl

end

end Environment

end CollatedStore
