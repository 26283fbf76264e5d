import CollatedStore.Cursor
import CollatedStore.Proofs.Answers

/-!
The same steps under other comparison functions. What a store does depends on the functions that it
was given only through the answers: two inquiries that differ in nothing else ask for the same
comparisons, one after another, as long as they get the same answers.
-/
namespace CollatedStore

/-- Two inquiries ask the same of related functions, and come to related results. -/
inductive Inquiry.Alike (same : CompareFn → CompareFn → Prop) {α β : Type} (R : α → β → Prop) :
    Inquiry α → Inquiry β → Prop
  | done {a : α} {b : β} (h : R a b) : Alike same R (.done a) (.done b)
  | ask {fn fn' : CompareFn} {left right : Bytes} {next : Ordering → Inquiry α}
      {next' : Ordering → Inquiry β} (fns : same fn fn')
      (later : ∀ o, Alike same R (next o) (next' o)) :
      Alike same R (.ask ⟨fn, left, right⟩ next) (.ask ⟨fn', left, right⟩ next')

/-- Two layouts keep their values alike, under related functions. -/
structure Layout.Alike (same : CompareFn → CompareFn → Prop) (l l' : Layout) : Prop where
  keyOrder : Option.Rel same l.keyOrder l'.keyOrder
  valueOrder : Option.Rel same l.valueOrder l'.valueOrder
  flags : l'.flags = l.flags

/-- Two steps ask the same of related functions, and come to the same. -/
def Work.Alike (same : CompareFn → CompareFn → Prop) {α : Type} (x x' : Work α) : Prop :=
  Inquiry.Alike same Eq x.run x'.run

variable {same : CompareFn → CompareFn → Prop} {α β : Type}

theorem Inquiry.Alike.refl (x : Inquiry α) : Inquiry.Alike Eq Eq x x := by
  induction x with
  | done a => exact .done rfl
  | ask q next ih => exact .ask rfl ih

theorem Inquiry.Alike.eq {x x' : Inquiry α} (h : Inquiry.Alike Eq Eq x x') : x' = x := by
  induction h with
  | done same => rw [same]
  | ask fns _ ih =>
    subst fns
    exact congrArg _ (funext ih)

/-- What follows need only be alike after what the first inquiry can come to. -/
theorem Inquiry.Alike.bind_yields {γ δ : Type} {R : α → β → Prop} {T : γ → δ → Prop}
    {x : Inquiry α} {x' : Inquiry β} {f : α → Inquiry γ} {f' : β → Inquiry δ}
    (first : Inquiry.Alike same R x x')
    (later : ∀ a b, R a b → x.Yields a → Inquiry.Alike same T (f a) (f' b)) :
    Inquiry.Alike same T (x >>= f) (x' >>= f') := by
  induction first with
  | done h => exact later _ _ h (.done _)
  | ask fns _ ih => exact .ask fns fun o => ih o fun a b h met => later a b h (.ask o met)

theorem Inquiry.Alike.bind {γ δ : Type} {R : α → β → Prop} {T : γ → δ → Prop} {x : Inquiry α}
    {x' : Inquiry β} {f : α → Inquiry γ} {f' : β → Inquiry δ} (first : Inquiry.Alike same R x x')
    (later : ∀ a b, R a b → Inquiry.Alike same T (f a) (f' b)) :
    Inquiry.Alike same T (x >>= f) (x' >>= f') :=
  first.bind_yields fun a b h _ => later a b h

namespace Work

theorem alike_pure (a : α) : Work.Alike same (pure a) (pure a) := .done rfl

theorem alike_throw (stop : Stop) : Work.Alike same (throw stop : Work α) (throw stop) := .done rfl

theorem alike_refuse (s : Status) : Work.Alike same (refuse s : Work α) (refuse s) := .done rfl

theorem Alike.bind {x x' : Work α} {f f' : α → Work β} (first : Work.Alike same x x')
    (later : ∀ a, Work.Alike same (f a) (f' a)) : Work.Alike same (x >>= f) (x' >>= f') := by
  refine Inquiry.Alike.bind first ?_
  rintro result _ rfl
  cases result with
  | ok a => exact later a
  | error stop => exact .done rfl

theorem Alike.map {x x' : Work α} (h : Work.Alike same x x') (f : α → β) :
    Work.Alike same (f <$> x) (f <$> x') := by
  rw [map_eq_pure_bind, map_eq_pure_bind]
  exact h.bind fun a => alike_pure (f a)

theorem alike_guarded (inside : Prop) [Decidable inside] (a : α) (fault : Breach) :
    Work.Alike same (if inside then pure a else breach fault)
      (if inside then pure a else breach fault) := by
  split
  · exact alike_pure a
  · exact .done rfl

theorem alike_itemAt (xs : List α) (i : Nat) : Work.Alike same (itemAt xs i) (itemAt xs i) := by
  unfold itemAt
  cases xs[i]? with
  | some x => exact alike_pure x
  | none => exact .done rfl

theorem alike_setAt (xs : List α) (i : Nat) (x : α) :
    Work.Alike same (setAt xs i x) (setAt xs i x) := alike_guarded _ _ _

theorem alike_insertAt (xs : List α) (i : Nat) (x : α) :
    Work.Alike same (insertAt xs i x) (insertAt xs i x) := alike_guarded _ _ _

theorem alike_eraseAt (xs : List α) (i : Nat) :
    Work.Alike same (eraseAt xs i) (eraseAt xs i) := alike_guarded _ _ _

theorem alike_slice (xs : List α) (start stop : Nat) :
    Work.Alike same (slice xs start stop) (slice xs start stop) := alike_guarded _ _ _

theorem alike_minus (a b : Nat) : Work.Alike same (minus a b) (minus a b) := alike_guarded _ _ _

theorem alike_compare {fn fn' : Option CompareFn} (fns : Option.Rel same fn fn')
    (left right : Bytes) : Work.Alike same (compare fn left right) (compare fn' left right) := by
  cases fns with
  | none => exact alike_pure _
  | some fns => exact .ask fns fun o => .done rfl

end Work

open Work

/-! ## Searches -/

namespace Search

theorem alike_narrow {probe probe' : Nat → Work Ordering}
    (probes : ∀ i, Work.Alike same (probe i) (probe' i)) (fuel base size : Nat) :
    Work.Alike same (narrow probe fuel base size) (narrow probe' fuel base size) := by
  induction fuel generalizing base size with
  | zero => exact alike_pure base
  | succ fuel ih =>
    unfold narrow
    split
    · exact alike_pure base
    · exact (probes _).bind fun o => ih _ _

theorem alike_locate (xs : List α) {against against' : α → Work Ordering}
    (compared : ∀ x, Work.Alike same (against x) (against' x)) :
    Work.Alike same (locate xs against) (locate xs against') := by
  unfold locate
  split
  · exact alike_pure _
  · have probes : ∀ i, Work.Alike same (do against (← itemAt xs i)) (do against' (← itemAt xs i)) :=
      fun i => (alike_itemAt xs i).bind compared
    refine (alike_narrow probes _ _ _).bind fun base => (probes base).bind fun o => ?_
    cases o with
    | eq | lt | gt => exact alike_pure _

end Search

namespace Contents

variable {layout layout' : Layout}

theorem alike_find (layouts : layout.Alike same layout') (entries : Contents) (key : Bytes) :
    Work.Alike same (find layout entries key) (find layout' entries key) :=
  Search.alike_locate entries fun e => alike_compare layouts.keyOrder e.key key

theorem alike_findIn (layouts : layout.Alike same layout') (values : List Bytes) (value : Bytes) :
    Work.Alike same (findIn layout values value) (findIn layout' values value) :=
  Search.alike_locate values fun v => alike_compare layouts.valueOrder v value

theorem alike_valueAt (entries : Contents) (p : Place) :
    Work.Alike same (entries.valueAt p) (entries.valueAt p) :=
  (alike_itemAt entries p.entry).bind fun e => alike_itemAt e.values p.value

theorem alike_occupied (entries : Contents) (p : Place) :
    Work.Alike same (entries.occupied p : Work α) (entries.occupied p) :=
  (alike_valueAt entries p).bind fun v => alike_throw (.existing p v)

theorem alike_lastValue (entries : Contents) (i : Nat) :
    Work.Alike same (entries.lastValue i) (entries.lastValue i) :=
  (alike_itemAt entries i).bind fun e => alike_minus e.values.length 1

end Contents

/-! ## Writes -/

namespace Holding

variable {layout layout' : Layout}

theorem alike_charge (limit used add sub : Nat) :
    Work.Alike same (charge limit used add sub) (charge limit used add sub) := by
  refine (alike_minus used sub).bind fun left => ?_
  dsimp only
  split
  · exact alike_refuse _
  · exact alike_pure _

theorem alike_putNew (limit : Nat) (rule : PutRule) (key value : Bytes) (h : Holding) (i : Nat) :
    Work.Alike same (putNew limit rule key value h i) (putNew limit rule key value h i) := by
  unfold putNew
  split
  · exact alike_refuse _
  · refine (alike_charge _ _ _ _).bind fun used => ?_
    exact (alike_insertAt _ _ _).bind fun entries => alike_pure _

theorem alike_overwrite (limit : Nat) (value : Bytes) (h : Holding) (i : Nat) :
    Work.Alike same (overwrite limit value h i) (overwrite limit value h i) := by
  refine (alike_itemAt _ _).bind fun e => (alike_itemAt _ _).bind fun old => ?_
  refine (alike_charge _ _ _ _).bind fun used => (alike_setAt _ _ _).bind fun values => ?_
  exact (alike_setAt _ _ _).bind fun entries => alike_pure _

theorem alike_checkLength (layouts : layout.Alike same layout') (values : List Bytes) (like : Nat)
    (value : Bytes) :
    Work.Alike same (checkLength layout values like value)
      (checkLength layout' values like value) := by
  unfold checkLength
  rw [layouts.flags]
  split
  · refine (alike_itemAt _ _).bind fun v => ?_
    split
    · exact alike_pure _
    · exact alike_refuse _
  · exact alike_pure _

theorem alike_putValue (layouts : layout.Alike same layout') (limit : Nat) (rule : PutRule)
    (value : Bytes) (h : Holding) (i : Nat) :
    Work.Alike same (putValue layout limit rule value h i)
      (putValue layout' limit rule value h i) := by
  refine (alike_itemAt _ _).bind fun e => ?_
  refine (alike_checkLength layouts _ _ _).bind fun _ => ?_
  refine (Contents.alike_findIn layouts _ _).bind fun spot => ?_
  cases spot with
  | found j =>
    dsimp only
    split
    · exact Contents.alike_occupied _ _
    · exact alike_pure _
  | absent j =>
    dsimp only
    split
    · exact (alike_minus _ _).bind fun last => Contents.alike_occupied _ _
    · refine (alike_charge _ _ _ _).bind fun used => (alike_insertAt _ _ _).bind fun values => ?_
      exact (alike_setAt _ _ _).bind fun entries => alike_pure _

theorem alike_put (layouts : layout.Alike same layout') (limit : Nat) (rule : PutRule)
    (key value : Bytes) (h : Holding) :
    Work.Alike same (h.put layout limit rule key value) (h.put layout' limit rule key value) := by
  refine (Contents.alike_find layouts _ _).bind fun spot => ?_
  cases spot with
  | absent i => exact alike_putNew _ _ _ _ _ _
  | found i =>
    dsimp only
    rw [layouts.flags]
    split
    · exact Contents.alike_occupied _ _
    · split
      · exact alike_refuse _
      · split
        · exact alike_putValue layouts _ _ _ _ _
        · exact alike_overwrite _ _ _ _

theorem alike_replaceAt (layouts : layout.Alike same layout') (limit : Nat) (p : Place)
    (value : Bytes) (h : Holding) :
    Work.Alike same (h.replaceAt layout limit p value) (h.replaceAt layout' limit p value) := by
  refine (alike_itemAt _ _).bind fun e => (alike_itemAt _ _).bind fun old => ?_
  rw [layouts.flags]
  split
  · refine (alike_checkLength layouts _ _ _).bind fun _ => ?_
    refine (alike_charge _ _ _ _).bind fun used => (alike_eraseAt _ _).bind fun rest => ?_
    refine (Contents.alike_findIn layouts _ _).bind fun spot => ?_
    cases spot with
    | found k =>
      refine (alike_setAt _ _ _).bind fun entries => (alike_minus _ _).bind fun used => ?_
      exact alike_pure _
    | absent k =>
      refine (alike_insertAt _ _ _).bind fun values => (alike_setAt _ _ _).bind fun entries => ?_
      exact alike_pure _
  · refine (alike_charge _ _ _ _).bind fun used => (alike_setAt _ _ _).bind fun values => ?_
    exact (alike_setAt _ _ _).bind fun entries => alike_pure _

theorem alike_removeAt (p : Place) (all : Bool) (h : Holding) :
    Work.Alike same (removeAt p all h) (removeAt p all h) := by
  refine (alike_itemAt _ _).bind fun e => ?_
  split
  · refine (alike_eraseAt _ _).bind fun entries => (alike_minus _ _).bind fun used => ?_
    exact alike_pure _
  · refine (alike_itemAt _ _).bind fun removed => (alike_eraseAt _ _).bind fun values => ?_
    refine (alike_setAt _ _ _).bind fun entries => (alike_minus _ _).bind fun used => ?_
    exact alike_pure _

theorem alike_remove (layouts : layout.Alike same layout') (key : Bytes) (value : Option Bytes)
    (h : Holding) : Work.Alike same (h.remove layout key value) (h.remove layout' key value) := by
  refine (Contents.alike_find layouts _ _).bind fun spot => ?_
  cases spot with
  | absent i => exact alike_refuse _
  | found i =>
    dsimp only
    rw [layouts.flags]
    split
    · refine (alike_itemAt _ _).bind fun e => ?_
      refine (Contents.alike_findIn layouts _ _).bind fun spot => ?_
      cases spot with
      | absent j => exact alike_refuse _
      | found j => exact (alike_removeAt _ _ _).bind fun left => alike_pure _
    · exact (alike_removeAt _ _ _).bind fun left => alike_pure _

end Holding

/-! ## Moves -/

namespace Cursor

variable {layout layout' : Layout} (c : Cursor) (entries : Contents)

theorem alike_firstItem : Work.Alike same (firstItem entries) (firstItem entries) := by
  unfold firstItem
  split
  · exact alike_refuse _
  · exact alike_pure _

theorem alike_lastItem : Work.Alike same (lastItem entries) (lastItem entries) := by
  unfold lastItem
  split
  · exact alike_refuse _
  · exact (Contents.alike_lastValue _ _).bind fun last => alike_pure _

theorem alike_headOf (i : Nat) : Work.Alike same (headOf entries i) (headOf entries i) := by
  unfold headOf
  split
  · exact alike_pure _
  · exact alike_refuse _

theorem alike_tailBefore (i : Nat) :
    Work.Alike same (tailBefore entries i) (tailBefore entries i) := by
  unfold tailBefore
  split
  · exact alike_refuse _
  · split
    · exact (Contents.alike_lastValue _ _).bind fun last => alike_pure _
    · exact alike_refuse _

theorem alike_positioned : Work.Alike same (c.positioned entries) (c.positioned entries) := by
  unfold positioned
  split
  · exact alike_refuse _
  · split
    · exact alike_pure _
    · exact alike_refuse _

theorem alike_next : Work.Alike same (c.next entries) (c.next entries) := by
  unfold next
  split
  · exact alike_firstItem entries
  · split
    · split
      · exact alike_pure _
      · refine (Contents.alike_lastValue _ _).bind fun last => ?_
        split
        · exact alike_pure _
        · exact alike_headOf entries _
    · exact alike_refuse _

theorem alike_prev : Work.Alike same (c.prev entries) (c.prev entries) := by
  unfold prev
  split
  · exact alike_lastItem entries
  · exact alike_tailBefore entries _
  · split
    · exact alike_pure _
    · exact alike_tailBefore entries _

theorem alike_nextKey : Work.Alike same (c.nextKey entries) (c.nextKey entries) := by
  unfold nextKey
  split
  · exact alike_firstItem entries
  · split
    · exact alike_pure _
    · exact alike_headOf entries _

theorem alike_prevKey : Work.Alike same (c.prevKey entries) (c.prevKey entries) := by
  unfold prevKey
  split
  · exact alike_lastItem entries
  · exact alike_tailBefore entries _

theorem alike_nextValue (layouts : layout.Alike same layout') :
    Work.Alike same (c.nextValue layout entries) (c.nextValue layout' entries) := by
  refine (alike_positioned c entries).bind fun p => ?_
  rw [layouts.flags]
  split
  · refine (Contents.alike_lastValue _ _).bind fun last => ?_
    split
    · exact alike_pure _
    · exact alike_refuse _
  · exact alike_refuse _

theorem alike_prevValue (layouts : layout.Alike same layout') :
    Work.Alike same (c.prevValue layout entries) (c.prevValue layout' entries) := by
  refine (alike_positioned c entries).bind fun p => ?_
  rw [layouts.flags]
  split
  · exact alike_pure _
  · exact alike_refuse _

theorem alike_checkKey (key : Bytes) : Work.Alike same (checkKey key) (checkKey key) := by
  unfold checkKey
  split
  · exact alike_pure _
  · exact alike_refuse _

theorem alike_needs (condition : Bool) : Work.Alike same (needs condition) (needs condition) := by
  unfold needs
  split
  · exact alike_pure _
  · exact alike_refuse _

theorem alike_seekKey (layouts : layout.Alike same layout') (key : Bytes) :
    Work.Alike same (seekKey layout entries key) (seekKey layout' entries key) := by
  refine (alike_checkKey key).bind fun _ => ?_
  refine (Contents.alike_find layouts _ _).bind fun spot => ?_
  cases spot with
  | found i => exact alike_pure _
  | absent i => exact alike_refuse _

theorem alike_seekRange (layouts : layout.Alike same layout') (key : Bytes) :
    Work.Alike same (seekRange layout entries key) (seekRange layout' entries key) := by
  refine (alike_checkKey key).bind fun _ => ?_
  refine (Contents.alike_find layouts _ _).bind fun spot => ?_
  cases spot with
  | found i | absent i => exact alike_headOf entries i

theorem alike_seekPair (layouts : layout.Alike same layout') (nearest : Bool) (key value : Bytes) :
    Work.Alike same (seekPair layout entries nearest key value)
      (seekPair layout' entries nearest key value) := by
  refine (alike_checkKey key).bind fun _ => ?_
  rw [layouts.flags]
  refine (alike_needs _).bind fun _ => ?_
  refine (Contents.alike_find layouts _ _).bind fun spot => ?_
  cases spot with
  | absent i => exact alike_refuse _
  | found i =>
    refine (alike_itemAt _ _).bind fun e => ?_
    refine (Contents.alike_findIn layouts _ _).bind fun spot => ?_
    cases spot with
    | found j => exact alike_pure _
    | absent j =>
      dsimp only
      split
      · exact alike_pure _
      · exact alike_refuse _

theorem alike_pageFrom (i start : Nat) :
    Work.Alike same (pageFrom entries i start) (pageFrom entries i start) :=
  (alike_itemAt _ _).bind fun _ => alike_pure _

theorem alike_nextPage : Work.Alike same (c.nextPage entries) (c.nextPage entries) := by
  unfold nextPage
  split
  · exact (alike_firstItem entries).bind fun p => alike_pageFrom entries _ _
  · split
    · refine (Contents.alike_lastValue _ _).bind fun last => ?_
      split
      · exact alike_pageFrom entries _ _
      · exact (alike_headOf entries _).bind fun p => alike_pageFrom entries _ _
    · exact alike_refuse _

theorem alike_prevPage : Work.Alike same (c.prevPage entries) (c.prevPage entries) := by
  refine (alike_positioned c entries).bind fun p => ?_
  split
  · exact alike_pure _
  · split
    · exact alike_pageFrom entries _ _
    · exact alike_refuse _

theorem alike_target (layouts : layout.Alike same layout') (op : CursorOp) (key data : Bytes) :
    Work.Alike same (c.target layout entries op key data)
      (c.target layout' entries op key data) := by
  have flags := layouts.flags
  cases op with
  | first => exact (alike_firstItem entries).map _
  | last => exact (alike_lastItem entries).map _
  | next => exact (alike_next c entries).map _
  | prev => exact (alike_prev c entries).map _
  | nextNoDup => exact (alike_nextKey c entries).map _
  | prevNoDup => exact (alike_prevKey c entries).map _
  | getCurrent => exact (alike_positioned c entries).map _
  | firstDup =>
    simp only [target, flags]
    refine (alike_needs _).bind fun _ => (alike_positioned c entries).bind fun p => ?_
    exact alike_pure _
  | lastDup =>
    simp only [target, flags]
    refine (alike_needs _).bind fun _ => (alike_positioned c entries).bind fun p => ?_
    exact (Contents.alike_lastValue _ _).bind fun last => alike_pure _
  | nextDup => exact (alike_nextValue c entries layouts).map _
  | prevDup => exact (alike_prevValue c entries layouts).map _
  | set | setKey => exact (alike_seekKey entries layouts key).map _
  | setRange => exact (alike_seekRange entries layouts key).map _
  | getBoth => exact (alike_seekPair entries layouts false key data).map _
  | getBothRange => exact (alike_seekPair entries layouts true key data).map _
  | getMultiple =>
    simp only [target, flags]
    refine (alike_needs _).bind fun _ => (alike_positioned c entries).bind fun p => ?_
    exact alike_pageFrom entries _ _
  | nextMultiple =>
    simp only [target, flags]
    exact (alike_needs _).bind fun _ => alike_nextPage c entries
  | prevMultiple =>
    simp only [target, flags]
    exact (alike_needs _).bind fun _ => alike_prevPage c entries

theorem alike_resting (fetch : Fetch) : Work.Alike same (resting fetch) (resting fetch) := by
  cases fetch with
  | item p => exact alike_pure p
  | page i start stop => exact (alike_minus stop 1).bind fun last => alike_pure _

theorem alike_move (layouts : layout.Alike same layout') (op : CursorOp) (key data : Bytes) :
    Work.Alike same (c.move layout entries op key data) (c.move layout' entries op key data) := by
  refine (alike_target c entries layouts op key data).bind fun fetch => ?_
  exact (alike_resting fetch).bind fun p => alike_pure _

end Cursor

namespace Fetch

theorem alike_key (entries : Contents) (fetch : Fetch) :
    Work.Alike same (fetch.key entries) (fetch.key entries) := by
  cases fetch with
  | item p | page i start stop => exact (alike_itemAt _ _).bind fun e => alike_pure _

theorem alike_value (entries : Contents) (fetch : Fetch) :
    Work.Alike same (fetch.value entries) (fetch.value entries) := by
  cases fetch with
  | item p => exact Contents.alike_valueAt entries p
  | page i start stop =>
    refine (alike_itemAt _ _).bind fun e => ?_
    exact (alike_slice _ _ _).bind fun values => alike_pure _

end Fetch

end CollatedStore
