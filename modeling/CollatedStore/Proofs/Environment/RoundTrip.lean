import CollatedStore.Proofs.Environment.Batches
import CollatedStore.Proofs.Environment.Lookups
import CollatedStore.Proofs.Environment.Pages
import CollatedStore.Proofs.Gathering

/-!
Records put under a new key. They are stored as sorting would arrange them, those left out that are
equal to an earlier one, and one page read from the key holds them all.
-/
namespace CollatedStore

open Search (Ascending Cut)
open Sorted (add gather arrange)

/-- The rule that refuses nothing. -/
def PutRule.free : PutRule := ⟨false, false, false, false⟩

theorem PutRule.batchWord_free : PutRule.free.batchWord = 0 ||| Flags.multiple := by decide

/-! ## The records of a key -/

/-- A key that is added where it belongs is found there. -/
theorem Contents.find_added {answer : Question → Ordering} {layout : Layout}
    [Std.TransCmp (layout.keys answer)] {before after : Contents} {key : Bytes}
    (ascending : Ascending (layout.keys answer) Entry.key (before ++ after))
    (less : ∀ e ∈ before, layout.keys answer e.key key = .lt)
    (greater : ∀ e ∈ after, layout.keys answer e.key key = .gt) (values : List Bytes) :
    (find layout (before ++ ⟨key, values⟩ :: after) key).eval answer =
      .ok (.found before.length) := by
  have added := Sorted.add_ascending ascending ⟨key, values⟩
  rw [Sorted.add_absent less greater] at added
  obtain ⟨spot, ended, cut⟩ := find_cuts added key
  have stood : (before ++ ⟨key, values⟩ :: after)[before.length]? = some ⟨key, values⟩ := by simp
  rw [ended, added.cut_found cut stood Std.ReflCmp.compare_self]

namespace Holding

section
variable {answer : Question → Ordering} {layout : Layout} [Std.TransCmp (layout.values answer)]
  {limit used : Nat} {before after : Contents} {key record : Bytes} {values records : List Bytes}

/-- A key that is there takes the record in, where none of its values is equal. -/
theorem eval_put_gathers (fixed : layout.flags.fixed = true)
    (located : (Contents.find layout (before ++ ⟨key, values⟩ :: after) key).eval answer =
      .ok (.found before.length))
    (inhabited : values ≠ []) (uniform : ∀ v ∈ values, v.length = record.length)
    (ascending : Ascending (layout.values answer) id values)
    (room : used + (add (fun v => layout.values answer v record) record values).flatten.length ≤
      limit + values.flatten.length) :
    ∃ p used', used' + values.flatten.length =
        used + (add (fun v => layout.values answer v record) record values).flatten.length ∧
      ((⟨before ++ ⟨key, values⟩ :: after, used⟩ : Holding).put layout limit .free key
        record).eval answer = .ok (p, ⟨before ++
          ⟨key, add (fun v => layout.values answer v record) record values⟩ :: after, used'⟩) := by
  have sorted : layout.flags.dupSort = true := by
    simp only [DbFlags.fixed, Bool.and_eq_true] at fixed
    exact fixed.1
  obtain ⟨like, others, cons⟩ := List.exists_cons_of_ne_nil inhabited
  have fits : ¬(layout.flags.fixed = true ∧ like.length ≠ record.length) :=
    fun wrong => wrong.2 (uniform like (by simp [cons]))
  have goes : ((⟨before ++ ⟨key, values⟩ :: after, used⟩ : Holding).put layout limit .free key
      record).eval answer = (putValue layout limit .free record
        ⟨before ++ ⟨key, values⟩ :: after, used⟩ before.length).eval answer := by
    rw [eval_put_found located]
    simp [PutRule.free, sorted]
  obtain ⟨spot, found, cut⟩ := Contents.findIn_cuts ascending record
  cases cut with
  | @found smaller larger w among less equal greater =>
    have there : values[smaller.length]? = some w := by simp [among]
    have kept := Sorted.add_of_mem ascending (List.mem_of_getElem? there) equal
    rw [kept, goes, eval_putValue_found answer cons fits found there]
    exact ⟨_, used, rfl, rfl⟩
  | @absent smaller larger among less greater =>
    have added := Sorted.add_absent less greater record
    rw [← among] at added
    rw [added] at room ⊢
    have bytes : (smaller ++ record :: larger).flatten.length =
        values.flatten.length + record.length := by
      simp only [among, List.flatten_append, List.flatten_cons, List.length_append]
      omega
    rw [goes, eval_putValue_added answer cons fits among found (fun last => by cases last) (by omega)]
    exact ⟨_, _, by omega, rfl⟩

/-- Record after record. The room that the values will have taken in the end is enough all along,
since they only grow. -/
theorem eval_putRecords_gathers (fixed : layout.flags.fixed = true)
    (located : ∀ values, (Contents.find layout (before ++ ⟨key, values⟩ :: after) key).eval answer =
      .ok (.found before.length))
    {size : Nat} (inhabited : values ≠ []) (uniform : ∀ v ∈ values, v.length = size)
    (own : ∀ r ∈ records, r.length = size)
    (ascending : Ascending (layout.values answer) id values)
    (room : used + (gather (layout.values answer) records values).flatten.length ≤
      limit + values.flatten.length) (written : Nat) (place : Option Place) :
    ∃ place' used', (Environment.putRecords layout limit .free key records
        ⟨written, place, ⟨before ++ ⟨key, values⟩ :: after, used⟩⟩).eval answer =
      (.ok .success, ⟨written + records.length, place',
        ⟨before ++ ⟨key, gather (layout.values answer) records values⟩ :: after, used'⟩⟩) := by
  induction records generalizing values used written place with
  | nil => exact ⟨place, used, rfl⟩
  | cons record rest ih =>
    have length : record.length = size := own record List.mem_cons_self
    have grows := Sorted.length_flatten_gather (layout.values answer) rest
      (add (fun v => layout.values answer v record) record values)
    rw [Sorted.gather_cons] at room ⊢
    have enough : used + (add (fun v => layout.values answer v record) record values).flatten.length
        ≤ limit + values.flatten.length := by omega
    obtain ⟨p, used', counted, put⟩ := eval_put_gathers fixed (located values) inhabited
      (fun v there => (uniform v there).trans length.symm) ascending enough
    rw [Environment.eval_putRecords_cons, put]
    have still : ∀ v ∈ add (fun v => layout.values answer v record) record values,
        v.length = size := by
      intro v there
      obtain rfl | there := Sorted.mem_add there
      · exact length
      · exact uniform v there
    have room' : used' + (gather (layout.values answer) rest
        (add (fun v => layout.values answer v record) record values)).flatten.length ≤
        limit + (add (fun v => layout.values answer v record) record values).flatten.length := by
      omega
    obtain ⟨place', used'', ended⟩ := ih (Sorted.add_ne_nil _ record values) still
      (fun r there => own r (List.mem_cons_of_mem record there))
      (Sorted.add_ascending ascending record) room' (written + 1) (some p)
    refine ⟨place', used'', ended.trans ?_⟩
    rw [List.length_cons, Nat.add_assoc, Nat.add_comm 1]

end

/-- The first record brings the key with it, and the others join it. -/
theorem eval_putRecords_new {answer : Question → Ordering} {layout : Layout}
    [Std.TransCmp (layout.keys answer)] [Std.TransCmp (layout.values answer)]
    {limit used size : Nat} {entries : Contents} {key : Bytes} {records : List Bytes}
    (fixed : layout.flags.fixed = true)
    (ascending : Ascending (layout.keys answer) Entry.key entries)
    (absent : ∀ e ∈ entries, layout.keys answer e.key key ≠ .eq) (some_record : records ≠ [])
    (own : ∀ r ∈ records, r.length = size)
    (room : used + key.length + (arrange (layout.values answer) records).flatten.length ≤ limit)
    (place : Option Place) :
    ∃ before after place' used',
      (Environment.putRecords layout limit .free key records ⟨0, place, ⟨entries, used⟩⟩).eval
        answer = (.ok .success, ⟨records.length, place',
          ⟨before ++ ⟨key, arrange (layout.values answer) records⟩ :: after, used'⟩⟩) ∧
      (Contents.find layout
        (before ++ ⟨key, arrange (layout.values answer) records⟩ :: after) key).eval answer =
          .ok (.found before.length) := by
  obtain ⟨record, rest, rfl⟩ := List.exists_cons_of_ne_nil some_record
  obtain ⟨spot, located, cut⟩ := Contents.find_cuts ascending key
  rw [← Sorted.gather_eq_arrange, Sorted.gather_cons] at room ⊢
  cases cut with
  | @found before after e whole less equal greater => exact absurd equal (absent e (by simp [whole]))
  | @absent before after whole less greater =>
    subst whole
    have found := Contents.find_added ascending less greater
    have first : add (fun v => layout.values answer v record) record [] = [record] := rfl
    have bytes : [record].flatten.length = record.length := by simp
    have grows := Sorted.length_flatten_gather (layout.values answer) rest [record]
    rw [first] at room ⊢
    have put : ((⟨before ++ after, used⟩ : Holding).put layout limit .free key record).eval answer =
        .ok (⟨before.length, 0⟩, ⟨before ++ ⟨key, [record]⟩ :: after,
          used + (key.length + record.length)⟩) :=
      (eval_put_absent located).trans
        (eval_putNew answer (by omega) fun append => by cases append)
    have uniform : ∀ v ∈ [record], v.length = size := by
      intro v there
      rw [List.mem_singleton.mp there]
      exact own record List.mem_cons_self
    have enough : used + (key.length + record.length) +
        (gather (layout.values answer) rest [record]).flatten.length ≤
        limit + [record].flatten.length := by omega
    obtain ⟨place', used', ended⟩ := eval_putRecords_gathers fixed found (List.cons_ne_nil _ _)
      uniform (fun r there => own r (List.mem_cons_of_mem record there))
      (List.pairwise_singleton _ record) enough 1 (some ⟨before.length, 0⟩)
    refine ⟨before, after, place', used', ?_, found _⟩
    rw [Environment.eval_putRecords_cons, put]
    refine ended.trans ?_
    rw [List.length_cons, Nat.add_comm]

end Holding

/-! ## Put and read back -/

namespace Environment

/-- The cursor's database has these values under the key, and a search for the key finds them. -/
inductive Files (answer : Question → Ordering) (layout : Layout) (env : Environment)
    (cursor : Handle) (key : Bytes) (values : List Bytes) : Prop
  | intro {c : Cursor} {before after : Contents} (here : env.cursors.get? cursor = some c)
      (readable : env.readable c.txn c.dbi = .ok (before ++ ⟨key, values⟩ :: after, layout))
      (located : (Contents.find layout (before ++ ⟨key, values⟩ :: after) key).eval answer =
        .ok (.found before.length)) : Files answer layout env cursor key values

section
variable {answer : Question → Ordering} {env : Environment} {cursor : Handle} {key : Descriptor}

theorem eval_cursorPutMany_files {c : Cursor} {db : Opened} {page : Bytes} {stride : Nat}
    [Std.TransCmp (db.layout.keys answer)] [Std.TransCmp (db.layout.values answer)]
    (here : env.cursors.get? cursor = some c) (writable : env.writable c.txn c.dbi = .ok db)
    (fixed : db.layout.flags.fixed = true) (valid : validKey key.bytes = true)
    (ascending : Ascending (db.layout.keys answer) Entry.key db.entries)
    (absent : ∀ e ∈ db.entries, db.layout.keys answer e.key key.bytes ≠ .eq) (filled : page ≠ [])
    (whole : stride ∣ page.length)
    (room : db.holding.used + key.bytes.length +
      (arrange (db.layout.values answer) (Records.split stride page)).flatten.length ≤
        env.config.mapSize) :
    ∃ env', (env.cursorPutMany cursor (some key) page (page.length / stride) stride
        PutRule.free.batchWord).eval answer = ⟨.ok .success, page.length / stride, env'⟩ ∧
      env'.Files answer db.layout cursor key.bytes
        (arrange (db.layout.values answer) (Records.split stride page)) := by
  obtain ⟨before, after, place, used, put, located⟩ := Holding.eval_putRecords_new fixed ascending
    absent (Records.split_ne_nil filled whole) Records.length_of_mem_split room c.place
  have readable := readable_keep writable ⟨before ++ ⟨key.bytes, arrange (db.layout.values answer)
    (Records.split stride page)⟩ :: after, used⟩
  have placed := Table.get?_insert_self env.cursors cursor { c with deleted := false, place }
  have done := eval_cursorPutMany here writable fixed valid put
  rw [Records.length_split] at done
  exact ⟨_, done, .intro placed readable located⟩

/-- The lookup of the key finds the first value, and leaves the cursor on it. -/
theorem Files.eval_set {layout : Layout} {first : Bytes} {more : List Bytes}
    (files : env.Files answer layout cursor key.bytes (first :: more))
    (valid : validKey key.bytes = true) (data : Option Descriptor) :
    ∃ env' c entries i,
      (env.cursorGet cursor (some key) data CursorOp.set.code).eval answer =
        moveFound (some key) data env' (some (key.bytes, first)) ∧
      env'.On cursor c layout entries ⟨i, 0⟩ ⟨key.bytes, first :: more⟩ first := by
  cases files with
  | @intro c before after here readable located =>
    have stood : (before ++ ⟨key.bytes, first :: more⟩ :: after)[before.length]? =
        some ⟨key.bytes, first :: more⟩ := by simp
    have lands := Contents.Lands.item (p := ⟨before.length, 0⟩) stood (v := first) rfl
    have led : (c.target layout (before ++ ⟨key.bytes, first :: more⟩ :: after) .set key.bytes
        (Descriptor.bytesOf data)).eval answer =
          Work.eval answer (pure (.item ⟨before.length, 0⟩)) := by
      rw [Cursor.target, Work.eval_map, Contents.eval_seekKey valid located]
      rfl
    exact ⟨_, _, _, before.length, eval_cursorGet_lands here readable rfl lands led,
      ⟨Table.get?_insert_self _ _ _, readable, rfl, stood, rfl⟩⟩

end

end Environment

end CollatedStore
