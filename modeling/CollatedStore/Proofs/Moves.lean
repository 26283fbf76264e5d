import CollatedStore.Environment.Cursors
import CollatedStore.Proofs.Unbroken

/-!
Moves whose checks all hold. A cursor may have been left anywhere by the writes of others: every
move but the plain step back looks for an item where it goes, so that all it yields is stored.
-/
namespace CollatedStore

open Work

/-- What was fetched is stored: the item at `p`, or a run of values of one key, the last of them at
`p`. -/
inductive Fetch.EndsAt (entries : Contents) (p : Place) : Fetch → Prop
  | item (there : entries.holds p = true) : EndsAt entries p (.item p)
  | page {start : Nat} {e : Entry} (stood : entries[p.entry]? = some e) (first : start ≤ p.value)
      (there : p.value < e.values.length) : EndsAt entries p (.page p.entry start (p.value + 1))

/-- The key and the value are those of the item at `p`, or the value is a run of values of that key,
joined, that ends with the item. -/
inductive Contents.Reports (entries : Contents) (p : Place) (key value : Bytes) : Prop
  | item {e : Entry} (stood : entries[p.entry]? = some e) (own : e.key = key)
      (was : e.values[p.value]? = some value)
  | page {e : Entry} {start : Nat} (stood : entries[p.entry]? = some e) (own : e.key = key)
      (first : start ≤ p.value) (there : p.value < e.values.length)
      (joined : value = ((e.values.take (p.value + 1)).drop start).flatten)

theorem Fetch.EndsAt.among {entries : Contents} {p : Place} {fetch : Fetch}
    (h : fetch.EndsAt entries p) : p.entry < entries.length := by
  cases h with
  | item there => exact Contents.entry_lt_of_holds there
  | page stood => exact (List.getElem?_eq_some_iff.mp stood).1

/-- The place told of is that of a stored item. -/
theorem Contents.Reports.holds {entries : Contents} {p : Place} {key value : Bytes}
    (h : entries.Reports p key value) : entries.holds p = true := by
  cases h with
  | item stood _ was => exact holds_iff.mpr ⟨_, stood, (List.getElem?_eq_some_iff.mp was).1⟩
  | page stood _ _ there => exact holds_iff.mpr ⟨_, stood, there⟩

namespace Cursor

variable {roomy : Prop} {layout : Layout} {entries : Contents} {c : Cursor} {i : Nat}
  {key value data : Bytes} {p : Place}

theorem ensures_checkKey (key : Bytes) : Ensures roomy (checkKey key) fun _ => True := by
  unfold checkKey
  split
  · exact ensures_pure trivial
  · exact ensures_refuse (by decide)

theorem ensures_needs (condition : Bool) : Ensures roomy (needs condition) fun _ => True := by
  unfold needs
  split
  · exact ensures_pure trivial
  · exact ensures_refuse (by decide)

/-- Where an item may be missing, none is found. -/
theorem ensures_unless {α : Type} {inside : Prop} [Decidable inside] {x : Work α} {post : α → Prop}
    (found : inside → Ensures roomy x post) :
    Ensures roomy (if inside then x else refuse .notFound) post := by
  split
  · rename_i within
    exact found within
  · exact ensures_refuse (by decide)

/-! ## Places -/

/-- An item stands at the cursor's place, or the move is refused. -/
theorem ensures_positioned : Ensures roomy (c.positioned entries) (entries.holds · = true) := by
  unfold positioned
  split
  · exact ensures_refuse (by decide)
  · exact ensures_unless fun stands => ensures_pure stands

/-- An entry that is there has a last value, and all before it. -/
theorem ensures_lastValue (inhabited : ∀ e ∈ entries, e.values ≠ []) (inside : i < entries.length) :
    Ensures roomy (entries.lastValue i) fun last => ∀ j ≤ last, entries.holds ⟨i, j⟩ = true := by
  refine (ensures_itemAt inside).bind fun e stood => ?_
  have first := List.length_pos_iff.mpr (inhabited e (List.mem_of_getElem? stood))
  refine (ensures_minus first).mono fun last same j upTo => ?_
  exact Contents.holds_iff.mpr ⟨e, stood, by dsimp only; omega⟩

section
variable (inhabited : ∀ e ∈ entries, e.values ≠ [])

include inhabited

theorem ensures_headOf : Ensures roomy (headOf entries i) (entries.holds · = true) :=
  ensures_unless fun inside => ensures_pure (Contents.holds_first inhabited inside)

theorem ensures_firstItem : Ensures roomy (firstItem entries) (entries.holds · = true) := by
  have same : firstItem entries = headOf entries 0 := by cases entries <;> rfl
  rw [same]
  exact ensures_headOf inhabited

theorem ensures_tailOf (inside : i < entries.length) :
    Ensures roomy (do return ⟨i, ← entries.lastValue i⟩) (entries.holds · = true) := by
  refine (ensures_lastValue inhabited inside).bind fun last stands => ?_
  exact ensures_pure (stands last (Nat.le_refl last))

theorem ensures_tailBefore : Ensures roomy (tailBefore entries i) (entries.holds · = true) := by
  unfold tailBefore
  split
  · exact ensures_refuse (by decide)
  · exact ensures_unless fun inside => ensures_tailOf inhabited inside

theorem ensures_lastItem : Ensures roomy (lastItem entries) (entries.holds · = true) := by
  unfold lastItem
  split
  · exact ensures_refuse (by decide)
  · rename_i n length
    have inside : n < entries.length := by omega
    exact ensures_tailOf inhabited inside

/-- The value after the one at `p`, if there is one, or else what is done instead. -/
theorem ensures_following {α : Type} {post : α → Prop} {more : Work α} {instead : Work α}
    (stands : entries.holds p = true)
    (found : entries.holds ⟨p.entry, p.value + 1⟩ = true → Ensures roomy more post)
    (others : Ensures roomy instead post) :
    Ensures roomy (do if p.value < (← entries.lastValue p.entry) then more else instead) post := by
  have inside := Contents.entry_lt_of_holds stands
  refine (ensures_lastValue inhabited inside).bind fun last upTo => ?_
  split
  · rename_i less
    exact found (upTo (p.value + 1) less)
  · exact others

theorem ensures_next : Ensures roomy (c.next entries) (entries.holds · = true) := by
  unfold next
  split
  · exact ensures_firstItem inhabited
  · refine ensures_unless fun stands => ?_
    split
    · exact ensures_pure stands
    · refine ensures_following inhabited stands (fun there => ?_) (ensures_headOf inhabited)
      exact ensures_pure there

/-- The step back stays among the entries, though not always at an item. -/
theorem ensures_prev : Ensures roomy (c.prev entries) fun p => p.entry < entries.length := by
  unfold prev
  split
  · exact (ensures_lastItem inhabited).mono fun q => Contents.entry_lt_of_holds
  · exact (ensures_tailBefore inhabited).mono fun q => Contents.entry_lt_of_holds
  · split
    · rename_i inside
      exact ensures_pure inside
    · exact (ensures_tailBefore inhabited).mono fun q => Contents.entry_lt_of_holds

theorem ensures_nextKey : Ensures roomy (c.nextKey entries) (entries.holds · = true) := by
  unfold nextKey
  split
  · exact ensures_firstItem inhabited
  · split
    · rename_i marked
      rw [Bool.and_eq_true] at marked
      exact ensures_pure marked.2
    · exact ensures_headOf inhabited

theorem ensures_prevKey : Ensures roomy (c.prevKey entries) (entries.holds · = true) := by
  unfold prevKey
  split
  · exact ensures_lastItem inhabited
  · exact ensures_tailBefore inhabited

theorem ensures_nextValue :
    Ensures roomy (c.nextValue layout entries) (entries.holds · = true) := by
  refine ensures_positioned.bind fun p stands => ensures_unless fun _ => ?_
  refine ensures_following inhabited stands (fun there => ?_) (ensures_refuse (by decide))
  exact ensures_pure there

omit inhabited in
theorem ensures_prevValue :
    Ensures roomy (c.prevValue layout entries) (entries.holds · = true) := by
  refine ensures_positioned.bind fun p stands => ensures_unless fun _ => ?_
  exact ensures_pure (Contents.holds_earlier stands (Nat.sub_le _ _))

/-! ## Searches by key -/

theorem ensures_seekKey :
    Ensures roomy (seekKey layout entries key) (entries.holds · = true) := by
  refine (ensures_checkKey key).bind fun _ _ => ?_
  refine (Contents.ensures_find layout entries key).bind fun spot among => ?_
  cases spot with
  | found i => exact ensures_pure (Contents.holds_first inhabited among)
  | absent i => exact ensures_refuse (by decide)

theorem ensures_seekRange :
    Ensures roomy (seekRange layout entries key) (entries.holds · = true) := by
  refine (ensures_checkKey key).bind fun _ _ => ?_
  refine (Contents.ensures_find layout entries key).bind fun spot _ => ?_
  cases spot with
  | found i => exact ensures_headOf inhabited
  | absent i => exact ensures_headOf inhabited

omit inhabited in
theorem ensures_seekPair {nearest : Bool} :
    Ensures roomy (seekPair layout entries nearest key value) (entries.holds · = true) := by
  refine (ensures_checkKey key).bind fun _ _ => (ensures_needs _).bind fun _ _ => ?_
  refine (Contents.ensures_find layout entries key).bind fun spot inside => ?_
  cases spot with
  | absent i => exact ensures_refuse (by decide)
  | found i =>
    refine (ensures_itemAt inside).bind fun e stood => ?_
    refine (Contents.ensures_findIn layout e.values value).bind fun spot among => ?_
    cases spot with
    | found j => exact ensures_pure (Contents.holds_iff.mpr ⟨e, stood, among⟩)
    | absent j =>
      refine ensures_unless fun near => ?_
      rw [Bool.and_eq_true, decide_eq_true_eq] at near
      exact ensures_pure (Contents.holds_iff.mpr ⟨e, stood, near.2⟩)

/-! ## Pages -/

omit inhabited in
/-- From an item on there is at least that one. -/
theorem ensures_pageFrom (stands : entries.holds p = true) :
    Ensures roomy (pageFrom entries p.entry p.value) fun fetch => ∃ q, fetch.EndsAt entries q := by
  obtain ⟨e, stood, there⟩ := Contents.holds_iff.mp stands
  refine (ensures_itemAt_of stood).bind fun e' same => ?_
  subst same
  obtain ⟨last, length⟩ := Nat.exists_eq_add_one_of_ne_zero (Nat.ne_zero_of_lt there)
  have upTo : p.value ≤ last := by omega
  have within : last < e'.values.length := by omega
  rw [length]
  exact ensures_pure ⟨⟨p.entry, last⟩, .page stood upTo within⟩

/-- The whole run of values of a key. -/
theorem ensures_wholePage (inside : i < entries.length) :
    Ensures roomy (pageFrom entries i 0) fun fetch => ∃ q, fetch.EndsAt entries q :=
  ensures_pageFrom (Contents.holds_first inhabited inside)

theorem ensures_nextPage :
    Ensures roomy (c.nextPage entries) fun fetch => ∃ q, fetch.EndsAt entries q := by
  have whole : ∀ p, entries.holds p = true →
      Ensures roomy (pageFrom entries p.entry 0) fun fetch => ∃ q, fetch.EndsAt entries q :=
    fun p stands => ensures_wholePage inhabited (Contents.entry_lt_of_holds stands)
  unfold nextPage
  split
  · exact (ensures_firstItem inhabited).bind whole
  · refine ensures_unless fun stands => ?_
    exact ensures_following inhabited stands ensures_pageFrom
      ((ensures_headOf inhabited).bind whole)

theorem ensures_prevPage :
    Ensures roomy (c.prevPage entries) fun fetch => ∃ q, fetch.EndsAt entries q := by
  refine ensures_positioned.bind fun p stands => ?_
  obtain ⟨e, stood, there⟩ := Contents.holds_iff.mp stands
  split
  · rename_i some_before
    obtain ⟨last, before⟩ := Nat.exists_eq_add_one_of_ne_zero (Nat.ne_zero_of_lt some_before)
    have within : last < e.values.length := by omega
    rw [before]
    exact ensures_pure ⟨⟨p.entry, last⟩, .page stood (Nat.zero_le last) within⟩
  · refine ensures_unless fun _ => ensures_wholePage inhabited ?_
    exact Nat.lt_of_le_of_lt (Nat.sub_le _ _) (Contents.entry_lt_of_holds stands)

/-! ## Moves -/

/-- Every move but the step back yields what is stored. -/
theorem ensures_target {op : CursorOp} (other : op ≠ .prev) :
    Ensures roomy (c.target layout entries op key data)
      fun fetch => ∃ q, fetch.EndsAt entries q := by
  have item : ∀ {x : Work Place}, Ensures roomy x (entries.holds · = true) →
      Ensures roomy (Fetch.item <$> x) fun fetch => ∃ q, fetch.EndsAt entries q :=
    fun ensured => (ensured.mono fun q there => ⟨q, .item there⟩).map
  cases op with
  | first => exact item (ensures_firstItem inhabited)
  | last => exact item (ensures_lastItem inhabited)
  | next => exact item (ensures_next inhabited)
  | prev => exact absurd rfl other
  | nextNoDup => exact item (ensures_nextKey inhabited)
  | prevNoDup => exact item (ensures_prevKey inhabited)
  | getCurrent => exact item ensures_positioned
  | firstDup =>
    refine (ensures_needs _).bind fun _ _ => ensures_positioned.bind fun p stands => ?_
    exact ensures_pure ⟨⟨p.entry, 0⟩, .item (Contents.holds_earlier stands (Nat.zero_le _))⟩
  | lastDup =>
    refine (ensures_needs _).bind fun _ _ => ensures_positioned.bind fun p stands => ?_
    have inside := Contents.entry_lt_of_holds stands
    refine (ensures_lastValue inhabited inside).bind fun last upTo => ?_
    exact ensures_pure ⟨⟨p.entry, last⟩, .item (upTo last (Nat.le_refl last))⟩
  | nextDup => exact item (ensures_nextValue inhabited)
  | prevDup => exact item ensures_prevValue
  | set => exact item (ensures_seekKey inhabited)
  | setKey => exact item (ensures_seekKey inhabited)
  | setRange => exact item (ensures_seekRange inhabited)
  | getBoth => exact item ensures_seekPair
  | getBothRange => exact item ensures_seekPair
  | getMultiple =>
    refine (ensures_needs _).bind fun _ _ => ensures_positioned.bind fun p stands => ?_
    exact ensures_pageFrom stands
  | nextMultiple => exact (ensures_needs _).bind fun _ _ => ensures_nextPage inhabited
  | prevMultiple => exact (ensures_needs _).bind fun _ _ => ensures_prevPage inhabited

omit inhabited in
/-- The run that was fetched is not empty, so that it has a last item. -/
theorem ensures_resting {fetch : Fetch} (stored : fetch.EndsAt entries p) :
    Ensures roomy (resting fetch) (· = p) := by
  cases stored with
  | item => exact ensures_pure rfl
  | page =>
    refine (ensures_minus (Nat.succ_pos _)).bind fun last same => ?_
    subst same
    exact ensures_pure rfl

/-- The cursor comes to stand on the last item fetched. -/
theorem ensures_move {op : CursorOp} (other : op ≠ .prev) :
    Ensures roomy (c.move layout entries op key data) fun moved =>
      ∃ q, moved.1.EndsAt entries q ∧
        moved.2 = { c with place := some q, deleted := false } := by
  refine (ensures_target inhabited other).bind fun fetch stored => ?_
  obtain ⟨q, stored⟩ := stored
  refine (ensures_resting stored).bind fun p same => ?_
  subst same
  exact ensures_pure ⟨p, stored, rfl⟩

/-- Whatever the move, the cursor stays among the entries. -/
theorem ensures_move_among (op : CursorOp) :
    Ensures roomy (c.move layout entries op key data) fun moved =>
      ∃ q, q.entry < entries.length ∧
        moved.2 = { c with place := some q, deleted := false } := by
  by_cases back : op = .prev
  · subst back
    have stepped : Ensures roomy (c.target layout entries .prev key data) fun fetch =>
        ∃ q, q.entry < entries.length ∧ fetch = .item q :=
      ((ensures_prev inhabited).mono fun q among => ⟨q, among, rfl⟩).map
    refine stepped.bind fun fetch there => ?_
    obtain ⟨q, among, rfl⟩ := there
    exact ensures_pure ⟨q, among, rfl⟩
  · refine (ensures_move inhabited back).mono fun moved met => ?_
    obtain ⟨q, stored, same⟩ := met
    exact ⟨q, stored.among, same⟩

end

end Cursor

/-! ## Reading -/

namespace Fetch

variable {roomy : Prop} {entries : Contents} {p : Place} {fetch : Fetch}

theorem ensures_read (stored : fetch.EndsAt entries p) :
    ∃ k v, entries.Reports p k v ∧ Ensures roomy (fetch.key entries) (· = k) ∧
      Ensures roomy (fetch.value entries) (· = v) := by
  cases stored with
  | item there =>
    obtain ⟨e, stood, inside⟩ := Contents.holds_iff.mp there
    have was := List.getElem?_eq_getElem inside
    refine ⟨e.key, e.values[p.value], .item stood rfl was, ?_, ?_⟩
    · refine (ensures_itemAt_of stood).bind fun e' same => ?_
      subst same
      exact ensures_pure rfl
    · refine (Contents.ensures_valueAt there).mono fun v read => ?_
      obtain ⟨e', stood', was'⟩ := read
      rw [stood] at stood'
      cases stood'
      rw [was] at was'
      exact (Option.some.inj was').symm
  | @page start e stood first there =>
    refine ⟨e.key, _, .page stood rfl first there rfl, ?_, ?_⟩
    · refine (ensures_itemAt_of stood).bind fun e' same => ?_
      subst same
      exact ensures_pure rfl
    · refine (ensures_itemAt_of stood).bind fun e' same => ?_
      subst same
      have within : start ≤ p.value + 1 ∧ p.value + 1 ≤ e'.values.length := by omega
      refine (ensures_guarded within).bind fun run same => ?_
      subst same
      exact ensures_pure rfl

end Fetch

/-! A move that has found something is not refused any more. -/

/-- All that can stop the step is a failed check. -/
def Work.Unrefused {α : Type} (w : Work α) : Prop :=
  ∀ stop, w.run.Yields (.error stop) → ∃ b, stop = .broken b

namespace Work

variable {α β : Type}

theorem unrefused_pure (a : α) : Unrefused (pure a) := nofun

theorem Unrefused.bind {x : Work α} {f : α → Work β} (first : Unrefused x)
    (later : ∀ a, Unrefused (f a)) : Unrefused (x >>= f) := by
  intro stop stopped
  rw [ExceptT.run_bind, Inquiry.yields_bind] at stopped
  obtain ⟨result, met, stopped⟩ := stopped
  cases result with
  | ok a => exact later a stop stopped
  | error cut =>
    cases stopped
    exact first _ met

theorem Unrefused.map {x : Work α} (h : Unrefused x) (f : α → β) : Unrefused (f <$> x) := by
  rw [map_eq_pure_bind]
  exact h.bind fun a => unrefused_pure (f a)

theorem unrefused_breach (b : Breach) : Unrefused (breach b : Work α) := by
  intro stop stopped
  cases stopped
  exact ⟨b, rfl⟩

theorem unrefused_itemAt (xs : List α) (i : Nat) : Unrefused (itemAt xs i) := by
  unfold itemAt
  split
  · exact unrefused_pure _
  · exact unrefused_breach _

end Work

theorem Fetch.unrefused_key (entries : Contents) (fetch : Fetch) :
    Unrefused (fetch.key entries) := by
  cases fetch with
  | item p => exact (unrefused_itemAt entries p.entry).bind fun e => unrefused_pure e.key
  | page i start stop => exact (unrefused_itemAt entries i).bind fun e => unrefused_pure e.key

theorem Fetch.unrefused_value (entries : Contents) (fetch : Fetch) :
    Unrefused (fetch.value entries) := by
  cases fetch with
  | item p =>
    exact (unrefused_itemAt entries p.entry).bind fun e => unrefused_itemAt e.values p.value
  | page i start stop =>
    refine (unrefused_itemAt entries i).bind fun e => Unrefused.bind ?_ fun run => unrefused_pure _
    unfold slice
    split
    · exact unrefused_pure _
    · exact unrefused_breach _

theorem Environment.unrefused_handOut (entries : Contents) (fetch : Fetch)
    (key data : Option Descriptor) : Unrefused (handOut entries fetch key data) := by
  apply (fetch.unrefused_key entries).bind
  intro k
  cases data with
  | none => exact unrefused_pure _
  | some d =>
    apply Unrefused.bind
    · rw [Option.mapM_some]
      exact ((fetch.unrefused_value entries).map _).map _
    · intro out
      exact unrefused_pure _

/-- What is handed out is what was fetched. -/
theorem Environment.ensures_handOut {roomy : Prop} {entries : Contents} {p : Place} {fetch : Fetch}
    {key data : Option Descriptor} (stored : fetch.EndsAt entries p) :
    Ensures roomy (handOut entries fetch key data) fun out => ∃ k v, entries.Reports p k v ∧
      out = (key.map fun _ => .filled k, data.map fun _ => .filled v) := by
  obtain ⟨k, v, reports, own, joined⟩ := fetch.ensures_read stored
  refine own.bind fun k' same => ?_
  subst same
  cases data with
  | none => exact ensures_pure ⟨k', v, reports, rfl⟩
  | some d =>
    have filled : Ensures roomy ((some d).mapM fun _ => Descriptor.filled <$> fetch.value entries)
        (· = some (.filled v)) := by
      rw [Option.mapM_some]
      refine Ensures.map (Ensures.map (joined.mono fun w same => ?_))
      rw [same]
    refine filled.bind fun out same => ?_
    subst same
    exact ensures_pure ⟨k', v, reports, rfl⟩

end CollatedStore
