import CollatedStore.Proofs.Environment.Atomicity
import CollatedStore.Proofs.Environment.Batches
import CollatedStore.Proofs.Environment.Deletion
import CollatedStore.Proofs.InOrder
import CollatedStore.Proofs.Orders

/-!
Puts that want their value last under its key. A value past all others becomes the last, and one
that would have to stand before another is refused; but a value that is there already is no matter
of order, and the put of it succeeds without doing anything.
-/
namespace CollatedStore

/-! ## The write -/

/-- What a put comes to that wants its value last among those of entry `i`. -/
inductive Holding.EndsLast (values : Order) (h : Holding) (i : Nat) (e : Entry) (value : Bytes) :
    Except Stop (Place × Holding) → Prop
  | past (less : ∀ v ∈ e.values, values v value = .lt) :
      EndsLast values h i e value (.ok (⟨i, e.values.length⟩,
        ⟨h.entries.set i { e with values := e.values ++ [value] }, h.used + value.length⟩))
  | there {j : Nat} {v : Bytes} (was : e.values[j]? = some v) (equal : values v value = .eq) :
      EndsLast values h i e value (.ok (⟨i, j⟩, h))
  | before {v last : Bytes} (stored : v ∈ e.values) (greater : values v value = .gt)
      (apart : ∀ v ∈ e.values, values v value ≠ .eq) (ends : e.values.getLast? = some last) :
      EndsLast values h i e value (.error (.existing ⟨i, e.values.length - 1⟩ last))

section
variable {answer : Question → Ordering} {layout : Layout} {limit : Nat} {h : Holding} {i : Nat}
  {e : Entry} {key value : Bytes}

theorem PutRule.ofFlags_appendDup : ofFlags Flags.appendDup = ⟨false, false, false, true⟩ := by
  decide

theorem Holding.eval_putValue_last [Std.TransCmp (layout.values answer)]
    (ascending : Search.Ascending (layout.values answer) id e.values)
    (stood : h.entries[i]? = some e) (inhabited : e.values ≠ [])
    (fits : layout.flags.fixed = true → ∀ v ∈ e.values, v.length = value.length)
    (room : h.used + value.length ≤ limit) :
    h.EndsLast (layout.values answer) i e value
      ((putValue layout limit (.ofFlags Flags.appendDup) value h i).eval answer) := by
  rw [PutRule.ofFlags_appendDup]
  obtain ⟨entries, used⟩ := h
  obtain ⟨before, after, rfl, rfl⟩ := exists_cut stood
  obtain ⟨like, others, values⟩ := List.exists_cons_of_ne_nil inhabited
  have sized : ¬(layout.flags.fixed = true ∧ like.length ≠ value.length) := by
    rintro ⟨fixed, differ⟩
    exact differ (fits fixed like (by simp [values]))
  obtain ⟨spot, located, cut⟩ := Contents.findIn_cuts ascending value
  cases cut with
  | @found smaller larger v whole less equal greater =>
    have was : e.values[smaller.length]? = some v := by simp [whole]
    rw [eval_putValue_found answer values sized located was]
    exact .there was equal
  | @absent smaller larger whole less greater =>
    by_cases more : larger = []
    · subst more
      rw [eval_putValue_added answer values sized whole located (fun _ => rfl) room]
      have all : e.values = smaller := by rw [whole, List.append_nil]
      have past := EndsLast.past (h := ⟨before ++ e :: after, used⟩) (i := before.length)
        (all ▸ less)
      rw [← all]
      simpa using past
    · obtain ⟨v, rest, rfl⟩ := List.exists_cons_of_ne_nil more
      have notLast : smaller.length ≠ e.values.length := by simp [whole]
      have ends := List.getLast?_eq_some_getLast inhabited
      rw [eval_putValue_refused answer values sized located rfl notLast ends]
      have apart := (Search.Cut.absent whole less greater).differ
      exact .before (by simp [whole]) (greater v (by simp)) apart ends

theorem Holding.eval_put_last [Std.TransCmp (layout.keys answer)]
    [Std.TransCmp (layout.values answer)] (inOrder : h.InOrder layout answer)
    (dupSort : layout.flags.dupSort = true) (stood : h.entries[i]? = some e)
    (inhabited : e.values ≠ []) (equal : layout.keys answer e.key key = .eq)
    (fits : layout.flags.fixed = true → ∀ v ∈ e.values, v.length = value.length)
    (room : h.used + value.length ≤ limit) :
    h.EndsLast (layout.values answer) i e value
      ((h.put layout limit (.ofFlags Flags.appendDup) key value).eval answer) := by
  obtain ⟨spot, located, cut⟩ := Contents.find_cuts inOrder.keys key
  cases inOrder.keys.cut_found cut stood equal
  have ascending := inOrder.values e (List.mem_of_getElem? stood)
  rw [eval_put_found located, PutRule.ofFlags_appendDup]
  simpa [dupSort, ← PutRule.ofFlags_appendDup] using
    eval_putValue_last ascending stood inhabited fits room

end

namespace Environment

/-- How a put ends that wants its value last among those of entry `i`, which it finds under its key
in a database. -/
structure EndsLast (values : Order) (env : Environment) (cursor : Option Handle) (txn : Handle)
    (dbi : Dbi) (db : Opened) (i : Nat) (e : Entry) (data : Descriptor)
    (reply : Reply Outcome Environment (Option Descriptor)) : Prop where
  /-- It succeeds if the value is past all others, and also if it is there already. -/
  accepted : reply.ended = .ok .success ↔
    (∀ v ∈ e.values, values v data.bytes = .lt) ∨ ∃ v ∈ e.values, values v data.bytes = .eq
  /-- Past all others, it becomes the last. -/
  past : (∀ v ∈ e.values, values v data.bytes = .lt) →
    reply.store.readable txn dbi =
        .ok (db.entries.set i { e with values := e.values ++ [data.bytes] }, db.layout) ∧
      ∀ t d, (t, d) ≠ (txn, dbi) → reply.store.view t d = env.view t d
  /-- A value that is there already is not stored again. -/
  there : (∃ v ∈ e.values, values v data.bytes = .eq) → SameData env reply.store
  /-- Otherwise it is refused because of the last value, and nothing changes. -/
  refused : reply.ended ≠ .ok .success → reply.ended = .ok .keyExist ∧
    (∃ last ∈ e.values, e.values.getLast? = some last ∧ reply.out = some (.filled last)) ∧
    Unchanged cursor env reply.store

section
variable {answer : Question → Ordering} {env : Environment} {cursor : Option Handle} {txn : Handle}
  {dbi : Dbi} {db : Opened} {i : Nat} {e : Entry} {key data : Descriptor} {values : Order}

/-- What the write comes to decides how the put ends, whether or not a cursor moves with it. -/
theorem endsLast_of_write (writable : env.writable txn dbi = .ok db)
    {result : Except Stop (Place × Holding)}
    (write : db.holding.EndsLast values i e data.bytes result)
    {wrote : Place → Holding → Environment} {met : Place → Environment} {left : Environment}
    (stores : ∀ p holding, SameData (env.keep db holding) (wrote p holding) ∧
      (wrote p holding).readable txn dbi = .ok (holding.entries, db.layout))
    (same : ∀ p, Unchanged cursor env (met p)) :
    EndsLast values env cursor txn dbi db i e data
      (putReply (some data) wrote met left result) := by
  cases write with
  | past less =>
    constructor
    case accepted => exact ⟨fun _ => .inl less, fun _ => rfl⟩
    case past =>
      intro _
      obtain ⟨sameData, readable⟩ := stores ⟨i, e.values.length⟩ ⟨_, _⟩
      refine ⟨readable, fun t d other => ?_⟩
      refine (sameData.view t d).symm.trans ?_
      rw [keep_view writable, if_neg fun own => other (Prod.ext own.1 own.2)]
    case there =>
      rintro ⟨v, stored, equal⟩
      rw [less v stored] at equal
      cases equal
    case refused => exact fun failed => absurd rfl failed
  | @there j v was equal =>
    have stored := List.mem_of_getElem? was
    constructor
    case accepted => exact ⟨fun _ => .inr ⟨v, stored, equal⟩, fun _ => rfl⟩
    case past =>
      intro less
      rw [less v stored] at equal
      cases equal
    case there => exact fun _ => (keep_held writable).trans (stores ⟨i, j⟩ db.holding).1
    case refused => exact fun failed => absurd rfl failed
  | @before v last stored greater apart ends =>
    constructor
    case accepted =>
      refine ⟨fun accepted => absurd (Except.ok.inj accepted) (by decide), ?_⟩
      rintro (less | ⟨w, there, equal⟩)
      · rw [less v stored] at greater
        cases greater
      · exact absurd equal (apart w there)
    case past =>
      intro less
      rw [less v stored] at greater
      cases greater
    case there =>
      rintro ⟨w, there, equal⟩
      exact absurd equal (apart w there)
    case refused => exact fun _ => ⟨rfl, ⟨last, List.mem_of_getLast? ends, ends, rfl⟩, same _⟩

/-- **A value put last is refused only where it would stand before another.** One that is there
already is accepted, wherever it stands, and nothing changes. -/
theorem last_values_are_past_or_there [Std.TransCmp (db.layout.keys answer)]
    [Std.TransCmp (db.layout.values answer)] (reached : Reachable env)
    (writable : env.writable txn dbi = .ok db) (dupSort : db.layout.flags.dupSort = true)
    (inOrder : db.entries.InOrder (db.layout.keys answer) (db.layout.values answer))
    (stood : db.entries[i]? = some e) (key data : Descriptor)
    (equal : db.layout.keys answer e.key key.bytes = .eq)
    (valid : validKey key.bytes = true)
    (fits : db.layout.flags.fixed = true → ∀ v ∈ e.values, v.length = data.bytes.length)
    (room : db.snapshot.used + data.bytes.length ≤ env.config.mapSize) :
    EndsLast (db.layout.values answer) env none txn dbi db i e data
        ((env.put txn dbi (some key) (some data) Flags.appendDup).eval answer) ∧
      ∀ cursor, env.Stands cursor txn dbi →
        EndsLast (db.layout.values answer) env (some cursor) txn dbi db i e data
          ((env.cursorPut cursor (some key) (some data) Flags.appendDup).eval answer) := by
  have ok := writable_accounted (reachable_balanced reached) (writable_self writable)
  have inhabited := (ok.entries e (List.mem_of_getElem? stood)).inhabited
  have write : db.holding.EndsLast (db.layout.values answer) i e data.bytes
      ((db.holding.put db.layout env.config.mapSize (.ofFlags Flags.appendDup) key.bytes
        data.bytes).eval answer) :=
    Holding.eval_put_last inOrder dupSort stood inhabited equal fits room
  refine ⟨?_, fun cursor stands => ?_⟩
  · rw [eval_put_of_within writable valid (by decide)]
    exact endsLast_of_write writable write
      (fun _ holding => ⟨⟨fun _ _ => rfl, fun _ => rfl, rfl⟩, readable_keep writable holding⟩)
      fun _ => .refl none env
  · obtain ⟨c, here, rfl, rfl⟩ := stands
    rw [eval_cursorPut_of_within here writable valid (by decide),
      writePair_put (by decide) (by decide)]
    exact endsLast_of_write writable write
      (fun _ holding => ⟨(setCursor_sameData _ _).symm, readable_keep writable holding⟩)
      fun _ => (Unchanged.refl (some cursor) env).setCursor here rfl

/-- With the values [5] and [7] there, [9] comes last, [6] is refused and [5] is taken. -/
theorem last_values_are_past_or_there_among_two :
    ∃ env db answer, Reachable env ∧ env.writable 1 2 = .ok db ∧
      db.entries = [⟨[1], [[5], [7]]⟩] ∧ env.Stands 2 1 2 ∧
      EndsLast (db.layout.values answer) env none 1 2 db 0 ⟨[1], [[5], [7]]⟩ (.filled [9])
        ((env.put 1 2 (some (.filled [1])) (some (.filled [9])) Flags.appendDup).eval answer) ∧
      EndsLast (db.layout.values answer) env (some 2) 1 2 db 0 ⟨[1], [[5], [7]]⟩ (.filled [6])
        ((env.cursorPut 2 (some (.filled [1])) (some (.filled [6])) Flags.appendDup).eval answer) ∧
      ((env.put 1 2 (some (.filled [1])) (some (.filled [9])) Flags.appendDup).eval
        answer).ended = .ok .success ∧
      ((env.cursorPut 2 (some (.filled [1])) (some (.filled [6])) Flags.appendDup).eval
        answer).ended = .ok .keyExist := by
  let answer : Question → Ordering := fun _ => .eq
  obtain ⟨env, db, reached, writable, entries, layout, room, stands, past, before⟩ :
      ∃ env db, Reachable env ∧ env.writable 1 2 = .ok db ∧ db.entries = [⟨[1], [[5], [7]]⟩] ∧
        db.layout = ⟨none, none, ⟨true, false⟩⟩ ∧ db.snapshot.used + 1 ≤ env.config.mapSize ∧
        env.Stands 2 1 2 ∧
        ((env.put 1 2 (some (.filled [1])) (some (.filled [9])) Flags.appendDup).eval
          answer).ended = .ok .success ∧
        ((env.cursorPut 2 (some (.filled [1])) (some (.filled [6])) Flags.appendDup).eval
          answer).ended = .ok .keyExist := by
    have start : Reachable (Environment.new 1 "" {}) := ⟨1, "", {}, 0, .start⟩
    have begun := start.next (.txnBegin none 0) ⟨_, .done _⟩
    have opened := begun.next (.dbiOpen 1 (some "values") (Flags.dupSort ||| Flags.create))
      ⟨_, .done _⟩
    have first := opened.next (.put 1 2 (some (.filled [1])) (some (.filled [5])) 0) ⟨_, .done _⟩
    have second := first.next (.put 1 2 (some (.filled [1])) (some (.filled [7])) 0) ⟨_, .done _⟩
    have cursor := second.next (.cursorOpen 1 2) ⟨_, .done _⟩
    exact ⟨_, _, cursor, rfl, rfl, rfl, by decide, ⟨_, rfl, rfl, rfl⟩, rfl, rfl⟩
  have keys : Std.TransCmp (db.layout.keys answer) := by
    rw [layout]
    exact inferInstanceAs (Std.TransCmp Order.baseline)
  have values : Std.TransCmp (db.layout.values answer) := by
    rw [layout]
    exact inferInstanceAs (Std.TransCmp Order.baseline)
  have inOrder : db.entries.InOrder (db.layout.keys answer) (db.layout.values answer) := by
    rw [entries, layout]
    refine ⟨?_, ?_⟩ <;> unfold Search.Ascending <;> decide
  have dupSort : db.layout.flags.dupSort = true := by rw [layout]
  have stood : db.entries[0]? = some ⟨[1], [[5], [7]]⟩ := by rw [entries]; rfl
  have same : db.layout.keys answer [1] [1] = .eq := Std.ReflCmp.compare_self
  have sized : db.layout.flags.fixed = true →
      ∀ data : Bytes, ∀ v ∈ ([[5], [7]] : List Bytes), v.length = data.length := by
    rw [layout]
    exact nofun
  have nine := last_values_are_past_or_there reached writable dupSort inOrder stood (.filled [1])
    (.filled [9]) same (by decide) (fun fixed => sized fixed [9]) room
  have six := last_values_are_past_or_there reached writable dupSort inOrder stood (.filled [1])
    (.filled [6]) same (by decide) (fun fixed => sized fixed [6]) room
  exact ⟨env, db, answer, reached, writable, entries, stands, nine.1, six.2 2 stands, past, before⟩

/-- The value [5] stands before [7], and a put that wants it last succeeds. -/
theorem smaller_value_is_taken_for_the_last :
    ∃ env db answer, Reachable env ∧ env.writable 1 2 = .ok db ∧
      db.layout = ⟨none, none, ⟨true, false⟩⟩ ∧ db.entries = [⟨[1], [[5], [7]]⟩] ∧
      db.snapshot.used + 1 ≤ env.config.mapSize ∧
      (¬∀ v ∈ ([[5], [7]] : List Bytes), Order.baseline v [5] = .lt) ∧
      ((env.put 1 2 (some (.filled [1])) (some (.filled [5])) Flags.appendDup).eval
        answer).ended = .ok .success := by
  have start : Reachable (Environment.new 1 "" {}) := ⟨1, "", {}, 0, .start⟩
  have begun := start.next (.txnBegin none 0) ⟨_, .done _⟩
  have opened := begun.next (.dbiOpen 1 (some "values") (Flags.dupSort ||| Flags.create))
    ⟨_, .done _⟩
  have first := opened.next (.put 1 2 (some (.filled [1])) (some (.filled [5])) 0) ⟨_, .done _⟩
  have second := first.next (.put 1 2 (some (.filled [1])) (some (.filled [7])) 0) ⟨_, .done _⟩
  exact ⟨_, _, fun _ => .eq, second, rfl, rfl, rfl, by decide, by decide, rfl⟩

end

end Environment

end CollatedStore
