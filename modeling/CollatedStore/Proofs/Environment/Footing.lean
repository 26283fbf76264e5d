import CollatedStore.Proofs.Environment.Replacement
import CollatedStore.Proofs.Orders

/-!
What a cursor stands on after a put. If the pair was stored, it is the item with that key and value,
and the steps from there lead to what stands next to it; if the put was refused because of an item,
it is that one.
-/
namespace CollatedStore

/-- The item `x` is what a put of this key and value has stored. -/
structure Layout.Holds (layout : Layout) (answer : Question → Ordering) (x : Bytes × Bytes)
    (key value : Bytes) : Prop where
  keys : layout.keys answer x.1 key = .eq
  values : layout.values answer x.2 value = .eq
  /-- Only among sorted values can it be another that is equal. -/
  plain : layout.flags.dupSort = false → x.2 = value
  /-- Where only the same bytes are equal, it has these very bytes. -/
  exact : (∀ a b, layout.keys answer a b = .eq → a = b) →
    (∀ a b, layout.values answer a b = .eq → a = b) → x = (key, value)

/-- A put that is refused because its key does not come last, and not because of an item. -/
structure Holding.OutOfTurn (layout : Layout) (answer : Question → Ordering) (rule : PutRule)
    (key : Bytes) (entries : Contents) : Prop where
  append : rule.append = true
  /-- If the key is there, it may be put again, but not behind itself or others. -/
  earlier : ∀ {i e}, entries[i]? = some e → layout.keys answer e.key key = .eq →
    rule.noOverwrite = false ∧ (layout.flags.dupSort = false ∨ i + 1 ≠ entries.length)

/-- How a put ends: it tells where the item is that it has stored, or because of which it was
refused, or it is refused for another reason. -/
inductive Holding.PutEnds (layout : Layout) (answer : Question → Ordering) (rule : PutRule)
    (key value : Bytes) (h : Holding) : Except Stop (Place × Holding) → Prop
  | stored {p : Place} {h' : Holding} {x : Bytes × Bytes} (there : h'.entries.item? p = some x)
      (holds : layout.Holds answer x key value) :
      PutEnds layout answer rule key value h (.ok (p, h'))
  | met {p : Place} {x : Bytes × Bytes} (there : h.entries.item? p = some x)
      (equal : layout.keys answer x.1 key = .eq) :
      PutEnds layout answer rule key value h (.error (.existing p x.2))
  | unmet {s : Status}
      (why : s = .keyExist → Holding.OutOfTurn layout answer rule key h.entries) :
      PutEnds layout answer rule key value h (.error (.status s))

section
variable {answer : Question → Ordering} {layout : Layout} {limit rest used : Nat} {rule : PutRule}
  {key value : Bytes} {h : Holding} {before after : Contents} {e : Entry} {i : Nat}

theorem Layout.Holds.of_equal {x : Bytes × Bytes} (equal : layout.keys answer x.1 key = .eq)
    (same : layout.values answer x.2 value = .eq)
    (plain : layout.flags.dupSort = false → x.2 = value) : layout.Holds answer x key value :=
  ⟨equal, same, plain, fun keys values => Prod.ext (keys _ _ equal) (values _ _ same)⟩

namespace Holding

theorem PutEnds.of_status {s : Status} (other : s ≠ .keyExist) :
    PutEnds layout answer rule key value h (.error (.status s)) :=
  .unmet fun same => absurd same other

variable [Std.TransCmp (layout.values answer)]

/-- The item just put in is the one that it is to be. -/
theorem PutEnds.of_stored {p : Place} {entries : Contents} (stood : entries[p.entry]? = some e)
    (was : e.values[p.value]? = some value) (equal : layout.keys answer e.key key = .eq) :
    PutEnds layout answer rule key value h (.ok (p, ⟨entries, used⟩)) := by
  have there : entries.item? p = some (e.key, value) :=
    Contents.item?_eq_some_iff.mpr ⟨e, stood, was, rfl⟩
  exact .stored there (.of_equal equal Std.ReflCmp.compare_self fun _ => rfl)

theorem putNew_ends [Std.TransCmp (layout.keys answer)]
    (cut : Search.Cut (fun e => layout.keys answer e.key key) h.entries (.absent i)) :
    PutEnds layout answer rule key value h ((putNew limit rule key value h i).eval answer) := by
  have differ := cut.differ
  obtain ⟨entries, used⟩ := h
  cases cut with
  | @absent before after whole less greater =>
    dsimp only at whole
    subst whole
    by_cases turned : rule.append = true ∧ after ≠ []
    · rw [eval_putNew_refused answer turned.1 turned.2]
      exact .unmet fun _ => ⟨turned.1, fun stood equal =>
        absurd equal (differ _ (List.mem_of_getElem? stood))⟩
    · rw [eval_putNew_charged answer (by simpa using turned)]
      split
      · exact .of_status (by decide)
      · exact .of_stored (e := ⟨key, [value]⟩) (by simp) rfl Std.ReflCmp.compare_self

theorem overwrite_ends (ok : Accounted layout limit rest h) (stood : h.entries[i]? = some e)
    (plain : layout.flags.dupSort = false) (equal : layout.keys answer e.key key = .eq) :
    PutEnds layout answer rule key value h ((overwrite limit value h i).eval answer) := by
  have proper := ok.entries e (List.mem_of_getElem? stood)
  obtain ⟨first, values⟩ := List.length_eq_one_iff.mp (proper.single plain)
  have within : first.length ≤ h.used := ok.value_within stood (j := 0) (by simp [values])
  obtain ⟨entries, used⟩ := h
  obtain ⟨before, after, rfl, rfl⟩ := exists_cut stood
  rw [eval_overwrite_charged answer within values]
  split
  · exact .of_status (by decide)
  · exact .of_stored (e := { e with values := [value] }) (by simp) rfl equal

theorem putValue_ends (inhabited : e.values ≠ []) (stood : h.entries[i]? = some e)
    (ascending : Search.Ascending (layout.values answer) id e.values)
    (sorted : layout.flags.dupSort = true) (equal : layout.keys answer e.key key = .eq) :
    PutEnds layout answer rule key value h
      ((putValue layout limit rule value h i).eval answer) := by
  obtain ⟨like, others, values⟩ := List.exists_cons_of_ne_nil inhabited
  obtain ⟨entries, used⟩ := h
  obtain ⟨before, after, rfl, rfl⟩ := exists_cut stood
  by_cases wrong : layout.flags.fixed = true ∧ like.length ≠ value.length
  · rw [eval_putValue_wrong answer values wrong]
    exact .of_status (by decide)
  obtain ⟨spot, located, cut⟩ := Contents.findIn_cuts ascending value
  cases cut with
  | @found smaller larger v whole less same greater =>
    have was : e.values[smaller.length]? = some v := by simp [whole]
    have there : Contents.item? (before ++ e :: after) ⟨before.length, smaller.length⟩ =
        some (e.key, v) := Contents.item?_eq_some_iff.mpr ⟨e, stood, was, rfl⟩
    rw [eval_putValue_found answer values wrong located was]
    split
    · exact .met (x := (e.key, v)) there equal
    · exact .stored there (.of_equal equal same fun plain => by simp [sorted] at plain)
  | @absent smaller larger whole less greater =>
    by_cases turned : rule.appendDup = true ∧ larger ≠ []
    · have notLast : smaller.length ≠ e.values.length := by simpa [whole] using turned.2
      have last := List.getLast?_eq_some_getLast inhabited
      rw [eval_putValue_refused answer values wrong located turned.1 notLast last]
      exact .met (Contents.item?_last stood last) equal
    · rw [eval_putValue_charged answer values wrong whole located (by simpa using turned)]
      split
      · exact .of_status (by decide)
      · exact .of_stored (e := { e with values := smaller ++ value :: larger }) (by simp) (by simp)
          equal

/-- A put tells of the item with its key. -/
theorem put_ends [Std.TransCmp (layout.keys answer)] (ok : Accounted layout limit rest h)
    (inOrder : h.InOrder layout answer) (rule : PutRule) (key value : Bytes) :
    PutEnds layout answer rule key value h
      ((h.put layout limit rule key value).eval answer) := by
  obtain ⟨spot, located, cut⟩ := Contents.find_cuts inOrder.keys key
  cases spot with
  | absent i =>
    rw [eval_put_absent located]
    exact putNew_ends cut
  | found i =>
    obtain ⟨e, stood, equal⟩ :
        ∃ e, h.entries[i]? = some e ∧ layout.keys answer e.key key = .eq := by
      cases cut with
      | @found before after e whole less equal greater => exact ⟨e, by simp [whole], equal⟩
    have inhabited := (ok.entries e (List.mem_of_getElem? stood)).inhabited
    rw [eval_put_found located]
    cases noOverwrite : rule.noOverwrite with
    | true =>
      have first := List.head?_eq_some_head inhabited
      have there := Contents.item?_head stood first
      rw [if_pos rfl, Contents.eval_occupied answer stood (List.head?_eq_getElem? ▸ first)]
      exact .met there equal
    | false =>
      rw [if_neg (by decide)]
      split
      · rename_i refused
        simp only [Bool.and_eq_true, Bool.or_eq_true, Bool.not_eq_true', bne_iff_ne] at refused
        refine .unmet fun _ => ⟨refused.1, fun {j d} stood' equal' => ⟨noOverwrite, ?_⟩⟩
        cases inOrder.keys.cut_found cut stood' equal'
        exact refused.2
      · split
        · rename_i sorted
          exact putValue_ends inhabited stood (inOrder.values e (List.mem_of_getElem? stood)) sorted
            equal
        · rename_i plain
          exact overwrite_ends ok stood (by simpa using plain) equal

/-- After a put that has stored its pair, the entries are still in order. -/
theorem put_keeps [Std.TransCmp (layout.keys answer)] (ok : Accounted layout limit rest h)
    (inOrder : h.InOrder layout answer) (valid : validKey key = true) {p : Place} {h' : Holding}
    (stored : (h.put layout limit rule key value).eval answer = .ok (p, h')) :
    h'.InOrder layout answer ∧ Accounted layout limit rest h' := by
  have change := (put_placed valid (Inquiry.yieldsBy_answer.mpr stored.symm)).change
  exact ⟨change.inOrder ok inOrder, change.edits.accounted ok⟩

end Holding

end

namespace Environment

/-! ## Where a cursor stands -/

/-- The cursor finds `x`, as often as it looks, and the steps from there find what stands next to
it. -/
structure Footing (env : Environment) (cursor : Handle) (before : List (Bytes × Bytes))
    (x : Bytes × Bytes) (after : List (Bytes × Bytes)) : Prop where
  current : env.Finds cursor .getCurrent (some x)
  next : ∀ n, env.Recites cursor (List.replicate n .getCurrent ++ [.next])
    (List.replicate n (some x) ++ [after.head?])
  prev : ∀ n, env.Recites cursor (List.replicate n .getCurrent ++ [.prev])
    (List.replicate n (some x) ++ [before.getLast?])

/-- The cursor stands on `x`, one of the items of a database that is in order. -/
def StandsOn (env : Environment) (cursor txn : Handle) (dbi : Dbi) (layout : Layout)
    (answer : Question → Ordering) (x : Bytes × Bytes) : Prop :=
  ∃ entries before after, env.readable txn dbi = .ok (entries, layout) ∧
    entries.InOrder (layout.keys answer) (layout.values answer) ∧
    entries.items = before ++ x :: after ∧ env.Footing cursor before x after

section
variable {answer : Question → Ordering} {env : Environment} {cursor : Handle} {c : Cursor}
  {entries : Contents} {layout : Layout} {p : Place} {e : Entry} {v : Bytes}

theorem recites_of_serves {op : CursorOp} {left : Place → List (Bytes × Bytes)}
    {xs : List (Bytes × Bytes)} (here : env.cursors.get? cursor = some c)
    (readable : env.readable c.txn c.dbi = .ok (entries, layout))
    (known : CursorOp.ofCode? op.code = some op)
    (serves : ∀ key data, entries.Serves left xs (c.target layout entries op key data)) :
    env.Recites cursor [op] [xs.head?] := by
  intro key data
  have first := serves (Descriptor.bytesOf key) (Descriptor.bytesOf data)
  have none_left : ∀ env : Environment, env.results [] = .done [] := fun _ => rfl
  generalize target : c.target layout entries op _ _ = step at first
  cases first with
  | item lands => exact results_cons here readable known (target ▸ lands) (none_left _)
  | nothing lands => exact results_cons here readable known (target ▸ lands) (none_left _)

/-- A look at the current item leaves the cursor on it. -/
theorem On.recites_after (on : env.On cursor c layout entries p e v) (unmarked : c.deleted = false)
    {ops : List CursorOp} {found : List (Option (Bytes × Bytes))}
    (onward : ∀ {env : Environment} {c : Cursor}, env.On cursor c layout entries p e v →
      c.deleted = false → env.Recites cursor ops found) (n : Nat) :
    env.Recites cursor (List.replicate n .getCurrent ++ ops)
      (List.replicate n (some (e.key, v)) ++ found) := by
  induction n generalizing env c with
  | zero => exact onward on unmarked
  | succ n ih =>
    have lands : ∀ key data, entries.Lands (some (p, e.key, v))
        (c.target layout entries .getCurrent key data) := by
      intro key data
      rw [Cursor.target, Cursor.positioned_of_holds on.place on.holds]
      exact Contents.lands_item on.item?
    have still : (env.setCursor cursor (c.landed (some (p, e.key, v)))).On cursor
        (c.landed (some (p, e.key, v))) layout entries p e v :=
      ⟨Table.get?_insert_self _ _ _, on.readable, rfl, on.stood, on.was⟩
    exact recites_cons on.here on.readable rfl lands (ih still rfl)

theorem On.footing (on : env.On cursor c layout entries p e v) (unmarked : c.deleted = false)
    (inhabited : ∀ e ∈ entries, e.values ≠ []) :
    env.Footing cursor (entries.itemsBefore p) (e.key, v) (entries.itemsAfter p) := by
  constructor
  case current =>
    rw [← on.item?]
    exact finds_of_reaches on.here on.readable rfl fun _ _ => Contents.positioned_reaches on.place
  case next =>
    apply on.recites_after unmarked
    intro env c on unmarked
    exact recites_of_serves on.here on.readable rfl fun _ _ =>
      Contents.next_serves inhabited on.holds on.place unmarked
  case prev =>
    apply on.recites_after unmarked
    intro env c on unmarked
    rw [← List.head?_reverse]
    exact recites_of_serves on.here on.readable rfl fun _ _ =>
      Contents.prev_serves inhabited on.holds on.place

/-- A cursor set on an item of a database in order stands on it. -/
theorem standsOn_setCursor {x : Bytes × Bytes}
    (later : Reachable (env.setCursor cursor { c with place := some p, deleted := false }))
    (readable : env.readable c.txn c.dbi = .ok (entries, layout))
    (inOrder : entries.InOrder (layout.keys answer) (layout.values answer))
    (there : entries.item? p = some x) :
    (env.setCursor cursor { c with place := some p, deleted := false }).StandsOn cursor c.txn c.dbi
      layout answer x := by
  obtain ⟨k, v⟩ := x
  obtain ⟨e, stood, was, rfl⟩ := Contents.item?_eq_some_iff.mp there
  have on : (env.setCursor cursor { c with place := some p, deleted := false }).On cursor
      { c with place := some p, deleted := false } layout entries p e v :=
    ⟨Table.get?_insert_self _ _ _, readable, rfl, stood, was⟩
  have inhabited := readable_inhabited (reachable_balanced later) on.readable
  refine ⟨entries, entries.itemsBefore p, entries.itemsAfter p, readable, inOrder, ?_,
    on.footing rfl inhabited⟩
  rw [← Contents.itemsFrom_cons stood was, Contents.before_from]

end

/-! ## Puts -/

/-- Where a cursor of a writer stands after each of its puts. -/
structure FollowsPuts (answer : Question → Ordering) (env : Environment) (cursor : Handle)
    (c : Cursor) (db : Opened) : Prop where
  /-- On the item stored. -/
  stored : ∀ {key data flags out env'}, Flags.has flags Flags.current = false →
    (env.cursorPut cursor (some key) (some data) flags).eval answer = ⟨.ok .success, out, env'⟩ →
      ∃ x, env'.StandsOn cursor c.txn c.dbi db.layout answer x ∧
        db.layout.Holds answer x key.bytes data.bytes
  /-- On the last record of many. -/
  batch : ∀ {key page count stride flags out env'}, 0 < count →
    (env.cursorPutMany cursor (some key) page count stride flags).eval answer =
        ⟨.ok .success, out, env'⟩ →
      ∃ x, env'.StandsOn cursor c.txn c.dbi db.layout answer x ∧
        db.layout.Holds answer x key.bytes ((page.drop ((count - 1) * stride)).take stride)
  /-- On the item that kept a pair from being stored, whose value was handed out; or where it was,
  if none was. -/
  refused : ∀ {key data flags out env'},
    (env.cursorPut cursor (some key) (some data) flags).eval answer = ⟨.ok .keyExist, out, env'⟩ →
      (∃ x, out = some (.filled x.2) ∧ env'.StandsOn cursor c.txn c.dbi db.layout answer x ∧
        db.layout.keys answer x.1 key.bytes = .eq) ∨
      Holding.OutOfTurn db.layout answer (.ofFlags flags) key.bytes db.entries ∧ out = some data ∧
        env' = env.setCursor cursor { c with deleted := false }

section
variable {answer : Question → Ordering} {env env' : Environment} {cursor : Handle} {c : Cursor}
  {db : Opened} {key data : Descriptor} {flags : UInt32} {out : Option Descriptor} {s : Status}

/-- A put is not refused like this before it was tried. -/
theorem admitted_of_put (here : env.cursors.get? cursor = some c)
    (writable : env.writable c.txn c.dbi = .ok db)
    (made : (env.cursorPut cursor (some key) (some data) flags).eval answer = ⟨.ok s, out, env'⟩)
    (told : s = .success ∨ s = .keyExist) :
    validKey key.bytes = true ∧ Flags.within flags Flags.cursorPut = true ∧
      Flags.has flags Flags.multiple = false := by
  cases admitted : env.admitCursorPut cursor (some key) (some data) flags with
  | ok found =>
    obtain ⟨k, v, c', db'⟩ := found
    obtain ⟨given, _, within, valid, _⟩ := admitCursorPut_eq_ok.mp admitted
    cases given
    refine ⟨valid, within, Bool.eq_false_iff.mpr fun many => ?_⟩
    rw [eval_cursorPut_of_within here writable valid within, writePair_multiple many] at made
    cases made
    exact absurd told (by decide)
  | error s' =>
    have other := admitCursorPut_fails (P := fun s => s ≠ .success ∧ s ≠ .keyExist) (by decide)
      (fun _ _ _ => by decide) (fun c' here' => by
        cases here.symm.trans here'
        rw [writable]
        exact fails_ok _) s' admitted
    rw [cursorPut, admitted] at made
    cases made
    exact absurd told (not_or.mpr other)

/-- A replacement is not refused because of an item. -/
theorem replaceCurrent_ne_keyExist {limit rest : Nat} {k w : Bytes} {stop : Stop}
    (ok : Holding.Accounted db.layout limit rest db.holding)
    (stopped : (replaceCurrent c db limit k w).eval answer = .error stop) :
    stop.outcome ≠ .ok .keyExist := by
  have of_status {s : Status} (other : s ≠ .keyExist) (same : stop = .status s) :
      stop.outcome ≠ .ok .keyExist := by
    rw [same]
    exact fun told => other (Except.ok.inj told)
  cases stands : c.current db.entries with
  | none =>
    have refuses : replaceCurrent c db limit k w = Work.refuse .invalid := by
      simp [replaceCurrent, stands]
    rw [refuses] at stopped
    exact of_status (by decide) (Except.error.inj stopped).symm
  | some p =>
    obtain ⟨place, holds⟩ := Option.filter_eq_some_iff.mp stands
    obtain ⟨e, stood, there⟩ := Contents.holds_iff.mp holds
    have was := List.getElem?_eq_getElem there
    have single := (ok.entries e (List.mem_of_getElem? stood)).single
    obtain ⟨spot, located⟩ :=
      Contents.findIn_ends answer db.layout (e.values.eraseIdx p.value) w
    rw [eval_replaceCurrent place stood was] at stopped
    split at stopped
    · rw [Holding.eval_replaceAt stood was single (ok.value_within stood was) located] at stopped
      split at stopped
      · exact of_status (by decide) (Except.error.inj stopped).symm
      · split at stopped
        · exact of_status (by decide) (Except.error.inj stopped).symm
        · cases stopped
    · exact of_status (by decide) (Except.error.inj stopped).symm

/-- The last record of many is the last one that is put. -/
theorem eval_putRecords_last {layout : Layout} [Std.TransCmp (layout.keys answer)]
    [Std.TransCmp (layout.values answer)] {limit rest : Nat} {rule : PutRule} {k : Bytes}
    (valid : validKey k = true) {records : List Bytes} {progress progress' : Progress}
    (ok : Holding.Accounted layout limit rest progress.holding)
    (inOrder : progress.holding.InOrder layout answer)
    (put : (putRecords layout limit rule k records progress).eval answer =
      (.ok .success, progress')) :
    progress'.holding.InOrder layout answer ∧ ∀ record, records.getLast? = some record →
      ∃ p x, progress'.place = some p ∧ progress'.holding.entries.item? p = some x ∧
        layout.Holds answer x k record := by
  induction records generalizing progress with
  | nil =>
    cases put
    exact ⟨inOrder, nofun⟩
  | cons record others ih =>
    rw [eval_putRecords_cons] at put
    have ends := Holding.put_ends ok inOrder rule k record
    generalize first : (progress.holding.put layout limit rule k record).eval answer = result
      at put ends
    rcases result with stop | ⟨p, holding⟩
    · exact absurd (congrArg Prod.fst put) (Holding.earnest_put.outcome_ne first)
    · obtain ⟨inOrder', ok'⟩ := Holding.put_keeps ok inOrder valid first
      obtain ⟨ordered, last⟩ := ih ok' inOrder' put
      refine ⟨ordered, fun final isLast => ?_⟩
      cases others with
      | nil =>
        cases put
        cases isLast
        cases ends with
        | stored there holds => exact ⟨p, _, rfl, there, holds⟩
      | cons next more => exact last final (by rwa [List.getLast?_cons_cons] at isLast)

/-- The records of a page are put from the front. -/
theorem getLast?_front {count : Nat} (some_record : 0 < count) (stride : Nat) (page : Bytes) :
    (Records.front count stride page).getLast? =
      some ((page.drop ((count - 1) * stride)).take stride) := by
  have last : (List.range count).getLast? = some (count - 1) := by
    rw [List.getLast?_range, if_neg (Nat.ne_of_gt some_record)]
  rw [Records.front, List.getLast?_map, last]
  rfl

section
variable [Std.TransCmp (db.layout.keys answer)] [Std.TransCmp (db.layout.values answer)]
  (reached : Reachable env) (here : env.cursors.get? cursor = some c)
  (writable : env.writable c.txn c.dbi = .ok db)
  (inOrder : db.entries.InOrder (db.layout.keys answer) (db.layout.values answer))

include reached here writable inOrder

theorem standsOn_of_put
    (plain : Flags.has flags Flags.current = false)
    (made : (env.cursorPut cursor (some key) (some data) flags).eval answer =
      ⟨.ok .success, out, env'⟩) :
    ∃ x, env'.StandsOn cursor c.txn c.dbi db.layout answer x ∧
      db.layout.Holds answer x key.bytes data.bytes := by
  have ok := writable_accounted (reachable_balanced reached) (writable_self writable)
  have later : Reachable env' := reached.next (.cursorPut cursor (some key) (some data) flags)
    ⟨_, Inquiry.yields_map.mpr ⟨_, made ▸ Inquiry.yields_eval answer _, rfl⟩⟩
  obtain ⟨valid, within, single⟩ := admitted_of_put here writable made (.inl rfl)
  rw [eval_cursorPut_of_within here writable valid within, writePair_put single plain] at made
  have ends := Holding.put_ends ok inOrder (.ofFlags flags) key.bytes data.bytes
  generalize put : (db.holding.put db.layout env.config.mapSize (.ofFlags flags) key.bytes
    data.bytes).eval answer = result at made ends
  cases ends with
  | @stored p holding x there holds =>
    obtain ⟨ordered, -⟩ := Holding.put_keeps ok inOrder valid put
    cases made
    exact ⟨x, standsOn_setCursor later (readable_keep writable holding) ordered there, holds⟩
  | met | unmet =>
    exact absurd (congrArg Reply.ended made) (Holding.earnest_put.outcome_ne put)

theorem standsOn_of_batch {count stride n : Nat} {page : Bytes} (some_record : 0 < count)
    (made : (env.cursorPutMany cursor (some key) page count stride flags).eval answer =
      ⟨.ok .success, n, env'⟩) :
    ∃ x, env'.StandsOn cursor c.txn c.dbi db.layout answer x ∧
      db.layout.Holds answer x key.bytes ((page.drop ((count - 1) * stride)).take stride) := by
  have ok := writable_accounted (reachable_balanced reached) (writable_self writable)
  have later : Reachable env' :=
    reached.next (.cursorPutMany cursor (some key) page count stride flags)
      ⟨_, Inquiry.yields_map.mpr ⟨_, made ▸ Inquiry.yields_eval answer _, rfl⟩⟩
  have ended := cursorPutMany_ended (Inquiry.yieldsBy_answer.mpr made.symm)
  cases ended with
  | refused denied => exact absurd rfl (denies_admitCursorPut _ _ _ _ _ _ denied)
  | unfit failed => exact absurd rfl failed
  | @made k c' db' _ progress here' writable' given valid put =>
    cases here.symm.trans here'
    cases writable.symm.trans writable'
    cases given
    obtain ⟨ordered, last⟩ :=
      eval_putRecords_last valid ok inOrder (Inquiry.yieldsBy_answer.mp put).symm
    obtain ⟨p, x, place, there, holds⟩ := last _ (getLast?_front some_record stride page)
    rw [place] at later ⊢
    exact ⟨x, standsOn_setCursor later (readable_keep writable progress.holding) ordered there,
      holds⟩

theorem standsOn_of_refusal
    (made : (env.cursorPut cursor (some key) (some data) flags).eval answer =
      ⟨.ok .keyExist, out, env'⟩) :
    (∃ x, out = some (.filled x.2) ∧ env'.StandsOn cursor c.txn c.dbi db.layout answer x ∧
        db.layout.keys answer x.1 key.bytes = .eq) ∨
      Holding.OutOfTurn db.layout answer (.ofFlags flags) key.bytes db.entries ∧ out = some data ∧
        env' = env.setCursor cursor { c with deleted := false } := by
  have ok := writable_accounted (reachable_balanced reached) (writable_self writable)
  have later : Reachable env' := reached.next (.cursorPut cursor (some key) (some data) flags)
    ⟨_, Inquiry.yields_map.mpr ⟨_, made ▸ Inquiry.yields_eval answer _, rfl⟩⟩
  obtain ⟨valid, within, single⟩ := admitted_of_put here writable made (.inr rfl)
  rw [eval_cursorPut_of_within here writable valid within] at made
  cases current : Flags.has flags Flags.current with
  | true =>
    rw [writePair_current single current] at made
    cases replaced : (replaceCurrent c db env.config.mapSize key.bytes data.bytes).eval answer with
    | ok stored =>
      rw [replaced] at made
      exact absurd (Except.ok.inj (congrArg Reply.ended made)) (by decide)
    | error stop =>
      have other := replaceCurrent_ne_keyExist ok replaced
      rw [replaced] at made
      cases stop <;> exact absurd (congrArg Reply.ended made) other
  | false =>
    rw [writePair_put single current] at made
    have ends := Holding.put_ends ok inOrder (.ofFlags flags) key.bytes data.bytes
    generalize put : (db.holding.put db.layout env.config.mapSize (.ofFlags flags) key.bytes
      data.bytes).eval answer = result at made ends
    cases ends with
    | stored => exact absurd (Except.ok.inj (congrArg Reply.ended made)) (by decide)
    | @met p x there equal =>
      cases made
      exact .inl ⟨x, rfl, standsOn_setCursor later (readable_of_writable writable) inOrder there,
        equal⟩
    | unmet why =>
      cases made
      exact .inr ⟨why rfl, rfl, rfl⟩

/-- **A cursor stands on what it has put**, or on the item that kept it from putting it. -/
theorem cursor_follows_its_puts : FollowsPuts answer env cursor c db where
  stored := standsOn_of_put reached here writable inOrder
  batch := standsOn_of_batch reached here writable inOrder
  refused := standsOn_of_refusal reached here writable inOrder

end

/-- A cursor puts a value between two others, puts two values at once, and meets one of them. -/
theorem cursor_follows_its_puts_among_two_values :
    ∃ env c db answer, Reachable env ∧ FollowsPuts answer env 2 c db ∧
      db.entries = [⟨[1], [[5], [7]]⟩] ∧
      (∃ x, ((env.cursorPut 2 (some (.filled [1])) (some (.filled [6])) 0).eval
          answer).store.StandsOn 2 c.txn c.dbi db.layout answer x ∧
        db.layout.Holds answer x [1] [6]) ∧
      (∃ x, ((env.cursorPutMany 2 (some (.filled [1])) [8, 4] 2 1 0).eval
          answer).store.StandsOn 2 c.txn c.dbi db.layout answer x ∧
        db.layout.Holds answer x [1] [4]) ∧
      ∃ x, ((env.cursorPut 2 (some (.filled [1])) (some (.filled [7])) Flags.noDupData).eval
          answer).out = some (.filled x.2) ∧
        ((env.cursorPut 2 (some (.filled [1])) (some (.filled [7])) Flags.noDupData).eval
          answer).store.StandsOn 2 c.txn c.dbi db.layout answer x := by
  let answer : Question → Ordering := fun _ => .eq
  obtain ⟨env, c, db, reached, here, writable, entries, layout, put, many, met⟩ :
      ∃ env c db, Reachable env ∧ env.cursors.get? 2 = some c ∧
        env.writable c.txn c.dbi = .ok db ∧ db.entries = [⟨[1], [[5], [7]]⟩] ∧
        db.layout = ⟨none, none, ⟨true, true⟩⟩ ∧
        ((env.cursorPut 2 (some (.filled [1])) (some (.filled [6])) 0).eval answer).ended =
          .ok .success ∧
        ((env.cursorPutMany 2 (some (.filled [1])) [8, 4] 2 1 0).eval answer).ended =
          .ok .success ∧
        ((env.cursorPut 2 (some (.filled [1])) (some (.filled [7])) Flags.noDupData).eval
          answer).ended = .ok .keyExist := by
    have start : Reachable (Environment.new 1 "" {}) := ⟨1, "", {}, 0, .start⟩
    have begun := start.next (.txnBegin none 0) ⟨_, .done _⟩
    have opened := begun.next
      (.dbiOpen 1 (some "values") (Flags.dupSort ||| Flags.dupFixed ||| Flags.create)) ⟨_, .done _⟩
    have first := opened.next (.put 1 2 (some (.filled [1])) (some (.filled [5])) 0) ⟨_, .done _⟩
    have second := first.next (.put 1 2 (some (.filled [1])) (some (.filled [7])) 0) ⟨_, .done _⟩
    have cursor := second.next (.cursorOpen 1 2) ⟨_, .done _⟩
    exact ⟨_, _, _, cursor, rfl, rfl, rfl, rfl, rfl, rfl, rfl⟩
  have keys : Std.TransCmp (db.layout.keys answer) := by
    rw [layout]
    exact inferInstanceAs (Std.TransCmp Order.baseline)
  have values : Std.TransCmp (db.layout.values answer) := by
    rw [layout]
    exact inferInstanceAs (Std.TransCmp Order.baseline)
  have inOrder : db.entries.InOrder (db.layout.keys answer) (db.layout.values answer) := by
    rw [entries, layout]
    refine ⟨?_, ?_⟩ <;> unfold Search.Ascending <;> decide
  have follows : FollowsPuts answer env 2 c db :=
    cursor_follows_its_puts reached here writable inOrder
  have whole {α : Type} {reply : Reply Outcome Environment α} {outcome : Outcome}
      (told : reply.ended = outcome) : reply = ⟨outcome, reply.out, reply.store⟩ := by
    rw [← told]
  have plain : Flags.has 0 Flags.current = false := by decide
  have some_record : 0 < 2 := by decide
  have stored := follows.stored plain (whole put)
  have last := follows.batch some_record (whole many)
  refine ⟨env, c, db, answer, reached, follows, entries, stored, last, ?_⟩
  obtain ⟨x, out, stands, -⟩ | ⟨turn, -⟩ := follows.refused (whole met)
  · exact ⟨x, out, stands⟩
  · exact absurd turn.append (by decide)

end

end Environment

end CollatedStore
