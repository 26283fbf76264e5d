import CollatedStore.Proofs.Environment.Landing
import CollatedStore.Proofs.Unbroken

/-!
What a move finds: an item, the values of a key joined, or nothing. Whatever descriptors it is given,
the call hands that out.
-/
namespace CollatedStore

theorem Cursor.positioned_of_holds {c : Cursor} {entries : Contents} {p : Place}
    (place : c.place = some p) (holds : entries.holds p = true) :
    c.positioned entries = pure p := by
  unfold Cursor.positioned
  rw [place]
  exact if_pos holds

theorem Cursor.positioned_of_gone {c : Cursor} {entries : Contents} {p : Place}
    (place : c.place = some p) (gone : ¬entries.holds p = true) :
    c.positioned entries = Work.refuse .notFound := by
  unfold Cursor.positioned
  rw [place]
  exact if_neg gone

namespace Contents

/-- The item that stands at `p`. -/
def item? (entries : Contents) (p : Place) : Option (Bytes × Bytes) := do
  let e ← entries[p.entry]?
  let v ← e.values[p.value]?
  return (e.key, v)

/-- The values that stand from `p` on under one key, joined, with that key. -/
def page? (entries : Contents) (p : Place) : Option (Bytes × Bytes) := do
  let e ← entries[p.entry]?
  if p.value < e.values.length then return (e.key, (e.values.drop p.value).flatten) else none

/-- The value that stands behind `p` under its key. -/
def valueAfter (entries : Contents) (p : Place) : Option (Bytes × Bytes) :=
  entries.item? ⟨p.entry, p.value + 1⟩

/-- The first item of the key that stands behind that at `p`. -/
def keyAfter (entries : Contents) (p : Place) : Option (Bytes × Bytes) :=
  entries.item? ⟨p.entry + 1, 0⟩

/-- The values that stand behind `p` under its key, or else all those of the next key. -/
def pageAfter (entries : Contents) (p : Place) : Option (Bytes × Bytes) :=
  (entries.page? ⟨p.entry, p.value + 1⟩).or (entries.page? ⟨p.entry + 1, 0⟩)

/-- A step of a cursor that leads to an item or a page, or finds nothing. -/
inductive Reaches (entries : Contents) : Option (Bytes × Bytes) → Work Fetch → Prop
  | item {p : Place} {e : Entry} {v : Bytes} (stood : entries[p.entry]? = some e)
      (was : e.values[p.value]? = some v) : Reaches entries (some (e.key, v)) (pure (.item p))
  | page {i start : Nat} {e : Entry} (stood : entries[i]? = some e)
      (more : start < e.values.length) :
      Reaches entries (some (e.key, (e.values.drop start).flatten))
        (pure (.page i start e.values.length))
  | nothing : Reaches entries none (Work.refuse .notFound)

section
variable {entries : Contents} {p : Place} {e : Entry} {i j : Nat}

theorem item?_none (past : entries.length ≤ i) : entries.item? ⟨i, j⟩ = none := by
  simp [item?, List.getElem?_eq_none past]

theorem item?_eq (stood : entries[i]? = some e) :
    entries.item? ⟨i, j⟩ = (e.values[j]?).map fun v => (e.key, v) := by
  simp only [item?, stood, Option.bind_eq_bind, Option.bind_some, Option.map_eq_bind]
  rfl

theorem page?_none (past : entries.length ≤ i) : entries.page? ⟨i, j⟩ = none := by
  simp [page?, List.getElem?_eq_none past]

theorem page?_eq (stood : entries[i]? = some e) :
    entries.page? ⟨i, j⟩ =
      if j < e.values.length then some (e.key, (e.values.drop j).flatten) else none := by
  simp only [page?, stood, Option.bind_eq_bind, Option.bind_some]
  rfl

/-- Where no item stands, none stands further on under that key. -/
theorem item?_past (gone : ¬entries.holds p = true) (further : p.value ≤ j) :
    entries.item? ⟨p.entry, j⟩ = none := by
  cases stood : entries[p.entry]? with
  | none => exact item?_none (List.getElem?_eq_none_iff.mp stood)
  | some e =>
    have past : e.values.length ≤ p.value :=
      Nat.le_of_not_lt fun inside => gone (holds_iff.mpr ⟨e, stood, inside⟩)
    rw [item?_eq stood, List.getElem?_eq_none (Nat.le_trans past further)]
    rfl

/-- Whatever stands at the place is reached by going there. -/
theorem reaches_item {v : Bytes} (stood : entries[p.entry]? = some e)
    (was : e.values[p.value]? = some v) :
    Reaches entries (entries.item? p) (Fetch.item <$> pure p) := by
  rw [item?_eq stood, was, map_pure]
  exact .item stood was

/-- Such a step leads to a place as well. -/
theorem Reaches.lands {found : Option (Bytes × Bytes)} {step : Work Fetch}
    (reaches : Reaches entries found step) :
    ∃ found', Lands entries found' step ∧ found'.map Prod.snd = found := by
  cases reaches with
  | item stood was => exact ⟨_, .item stood was, rfl⟩
  | @page i start e stood more =>
    obtain ⟨last, length⟩ := Nat.exists_eq_add_one_of_ne_zero (Nat.ne_zero_of_lt more)
    have lands : Lands entries
        (some (⟨i, last⟩, e.key, ((e.values.take (last + 1)).drop start).flatten))
        (pure (.page i start (last + 1))) :=
      .page (p := ⟨i, last⟩) stood (by dsimp only; omega) (by dsimp only; omega)
    rw [← length, List.take_length] at lands
    exact ⟨_, lands, rfl⟩
  | nothing => exact ⟨none, .nothing, rfl⟩

theorem headOf_reaches (inhabited : ∀ e ∈ entries, e.values ≠ []) (i : Nat) :
    Reaches entries (entries.item? ⟨i, 0⟩) (Fetch.item <$> Cursor.headOf entries i) := by
  unfold Cursor.headOf
  by_cases inside : i < entries.length
  · obtain ⟨v, vs, values⟩ :=
      List.exists_cons_of_ne_nil (inhabited entries[i] (List.getElem_mem inside))
    rw [if_pos inside]
    exact reaches_item (List.getElem?_eq_getElem inside) (v := v) (by simp [values])
  · rw [if_neg inside, item?_none (Nat.le_of_not_lt inside)]
    exact .nothing

theorem headPage_reaches (inhabited : ∀ e ∈ entries, e.values ≠ []) (i : Nat) :
    Reaches entries (entries.page? ⟨i, 0⟩)
      (do Cursor.pageFrom entries (← Cursor.headOf entries i).entry 0) := by
  unfold Cursor.headOf
  by_cases inside : i < entries.length
  · have stood := List.getElem?_eq_getElem inside
    have some_value := List.length_pos_iff.mpr (inhabited entries[i] (List.getElem_mem inside))
    rw [if_pos inside, page?_eq stood, if_pos some_value]
    simp only [pure_bind, Cursor.pageFrom, Work.itemAt, stood]
    exact .page stood some_value
  · rw [if_neg inside, page?_none (Nat.le_of_not_lt inside)]
    exact .nothing

end

/-! ## The moves by value and by key -/

section
variable {entries : Contents} {q : Place} {layout : Layout} {c : Cursor}

theorem nextValue_reaches (place : c.place = some q) (sorted : layout.flags.dupSort = true) :
    Reaches entries (entries.valueAfter q) (Fetch.item <$> c.nextValue layout entries) := by
  unfold Cursor.nextValue Cursor.positioned valueAfter
  rw [place]
  dsimp only
  by_cases holds : entries.holds q = true
  · obtain ⟨e, stood, inside⟩ := holds_iff.mp holds
    rw [if_pos holds, pure_bind, if_pos sorted, lastValue_eq stood (by omega), pure_bind]
    by_cases more : q.value + 1 < e.values.length
    · rw [if_pos (by omega)]
      exact reaches_item stood (List.getElem?_eq_getElem more)
    · rw [if_neg (by omega), item?_eq stood, List.getElem?_eq_none (by omega)]
      exact .nothing
  · rw [if_neg holds, item?_past holds (Nat.le_succ q.value)]
    exact .nothing

theorem nextPage_reaches (inhabited : ∀ e ∈ entries, e.values ≠ []) (place : c.place = some q)
    (stands : entries.holds q = true ∨ entries.length ≤ q.entry) :
    Reaches entries (entries.pageAfter q) (c.nextPage entries) := by
  unfold Cursor.nextPage pageAfter
  rw [place]
  dsimp only
  by_cases holds : entries.holds q = true
  · obtain ⟨e, stood, inside⟩ := holds_iff.mp holds
    rw [if_pos holds, lastValue_eq stood (by omega), pure_bind, page?_eq stood]
    by_cases more : q.value + 1 < e.values.length
    · rw [if_pos more, if_pos (by omega), Cursor.pageFrom]
      simp only [Work.itemAt, stood, pure_bind, Option.some_or]
      exact .page stood more
    · rw [if_neg more, if_neg (by omega), Option.none_or]
      exact headPage_reaches inhabited (q.entry + 1)
  · have past : entries.length ≤ q.entry := stands.resolve_left holds
    rw [if_neg holds, page?_none past, page?_none (Nat.le_succ_of_le past)]
    exact .nothing

/-- Without a mark, the step to the next key leads to the key that stands behind. -/
theorem nextKey_reaches (inhabited : ∀ e ∈ entries, e.values ≠ []) (place : c.place = some q)
    (unmarked : c.deleted = false ∨ 0 < q.value) :
    Reaches entries (entries.keyAfter q) (Fetch.item <$> c.nextKey entries) := by
  have test : ¬(c.deleted && q.value == 0 && entries.holds q) = true := by
    obtain unmarked | later := unmarked
    · simp [unmarked]
    · simp [Nat.ne_of_gt later]
  unfold Cursor.nextKey
  rw [place]
  dsimp only
  rw [if_neg test]
  exact headOf_reaches inhabited (q.entry + 1)

/-- With a mark, it leads to the first item at the cursor's own place. -/
theorem nextKey_marked_reaches (inhabited : ∀ e ∈ entries, e.values ≠ []) {i : Nat}
    (place : c.place = some ⟨i, 0⟩) (marked : c.deleted = true) :
    Reaches entries (entries.item? ⟨i, 0⟩) (Fetch.item <$> c.nextKey entries) := by
  unfold Cursor.nextKey
  rw [place]
  dsimp only
  by_cases inside : i < entries.length
  · have test : (c.deleted && (0 : Nat) == 0 && entries.holds ⟨i, 0⟩) = true := by
      simp [marked, holds_first inhabited inside]
    have same : Cursor.headOf entries i = pure ⟨i, 0⟩ := if_pos inside
    rw [if_pos test, ← same]
    exact headOf_reaches inhabited i
  · have test : ¬(c.deleted && (0 : Nat) == 0 && entries.holds ⟨i, 0⟩) = true := by
      simp only [Bool.and_eq_true, not_and]
      exact fun _ holds => inside (entry_lt_of_holds holds)
    have past : entries.length ≤ i := Nat.le_of_not_lt inside
    rw [if_neg test, item?_none past, ← item?_none (j := 0) (Nat.le_succ_of_le past)]
    exact headOf_reaches inhabited (i + 1)

end

end Contents

namespace Environment

/-- Whatever descriptors are given, the move hands out this, or finds nothing. -/
def Finds (env : Environment) (cursor : Handle) (op : CursorOp)
    (found : Option (Bytes × Bytes)) : Prop :=
  ∀ key data, ∃ store, env.cursorGet cursor key data op.code = .done (match found with
    | some x =>
      ⟨.ok .success, (key.map fun _ => .filled x.1, data.map fun _ => .filled x.2), store⟩
    | none => ⟨.ok .notFound, (key, data), store⟩)

variable {env : Environment} {cursor : Handle} {c : Cursor} {entries : Contents} {layout : Layout}
  {op : CursorOp} {found found' : Option (Bytes × Bytes)}

/-- A move finds one thing only. -/
theorem Finds.unique (finds : env.Finds cursor op found) (finds' : env.Finds cursor op found') :
    found = found' := by
  obtain ⟨store, told⟩ := finds (some .empty) (some .empty)
  obtain ⟨store', told'⟩ := finds' (some .empty) (some .empty)
  have same := Inquiry.done.inj (told.symm.trans told')
  cases found with
  | none => cases found' with
    | none => rfl
    | some x => cases congrArg Reply.ended same
  | some x => cases found' with
    | none => cases congrArg Reply.ended same
    | some y =>
      have out : x.1 = y.1 ∧ x.2 = y.2 := by simpa using congrArg Reply.out same
      exact congrArg some (Prod.ext out.1 out.2)

theorem finds_of_reaches (here : env.cursors.get? cursor = some c)
    (readable : env.readable c.txn c.dbi = .ok (entries, layout))
    (known : CursorOp.ofCode? op.code = some op)
    (reaches : ∀ key data, entries.Reaches found (c.target layout entries op key data)) :
    env.Finds cursor op found := by
  intro key data
  obtain ⟨found', lands, rfl⟩ := (reaches (Descriptor.bytesOf key) (Descriptor.bytesOf data)).lands
  refine ⟨env.setCursor cursor (c.landed found'), ?_⟩
  rw [cursorGet_lands here readable known lands]
  cases found' with
  | none => rfl
  | some x => rfl

end Environment

end CollatedStore
