import CollatedStore.Proofs.Answers
import CollatedStore.Proofs.Evaluation

/-!
Calls and steps that stop short. None of the stops of a put is told as a success, so a put has stored
its pair exactly if its status says so; and an item that it is refused for is one that is there.
-/
namespace CollatedStore

/-! ## Admission -/

/-- Refused, the arguments are not told as good. -/
def Denies {α : Type} (x : Except Status α) : Prop := ∀ s, x = .error s → s ≠ .success

namespace Denies

variable {α β : Type}

theorem bind {x : Except Status α} {f : α → Except Status β} (first : Denies x)
    (later : ∀ a, Denies (f a)) : Denies (x >>= f) := by
  intro s denied
  cases x with
  | error t =>
    cases denied
    exact first s rfl
  | ok a => exact later a s denied

theorem ok (a : α) : Denies (.ok a) := nofun

theorem error {s : Status} (h : s ≠ .success) : Denies (.error s : Except Status α) := by
  intro t same
  cases same
  exact h

/-- A check refuses with one status. -/
theorem check {holds : Prop} [Decidable holds] {a : α} {s : Status} (h : s ≠ .success) :
    Denies (if holds then .ok a else .error s) := by
  split
  · exact ok a
  · exact error h

end Denies

/-! ## Steps -/

/-- The stop is not told as a success, and the item in the way is one of these entries'. -/
def Stop.Earnest (entries : Contents) : Stop → Prop
  | .status s => s ≠ .success
  | .existing p _ => entries.holds p = true
  | .broken _ => True

theorem Stop.Earnest.outcome_ne {entries : Contents} {stop : Stop} (h : stop.Earnest entries) :
    stop.outcome ≠ .ok .success := by
  intro told
  cases stop with
  | status s => exact h (Except.ok.inj told)
  | existing p v => cases told
  | broken b => cases told

namespace Work

variable {α β : Type} {entries : Contents}

/-- Stopped short, the step says why. -/
def Earnest (entries : Contents) (w : Work α) : Prop :=
  ∀ stop, w.run.Yields (.error stop) → stop.Earnest entries

theorem earnest_pure (a : α) : Earnest entries (pure a : Work α) := nofun

theorem earnest_refuse {s : Status} (h : s ≠ .success) : Earnest entries (refuse s : Work α) := by
  intro stop stopped
  cases stopped
  exact h

theorem earnest_breach (b : Breach) : Earnest entries (breach b : Work α) := by
  intro stop stopped
  cases stopped
  trivial

theorem Earnest.bind {x : Work α} {f : α → Work β} (first : Earnest entries x)
    (later : ∀ a, Earnest entries (f a)) : Earnest entries (x >>= f) := by
  intro stop stopped
  rw [ExceptT.run_bind, Inquiry.yields_bind] at stopped
  obtain ⟨result, met, stopped⟩ := stopped
  cases result with
  | ok a => exact later a stop stopped
  | error cut =>
    cases stopped
    exact first _ met

theorem Earnest.outcome_ne {w : Work α} (h : Earnest entries w) {answer : Question → Ordering} {stop : Stop}
    (stopped : w.eval answer = .error stop) : stop.outcome ≠ .ok .success :=
  (h stop (stopped ▸ Inquiry.yields_eval answer w.run)).outcome_ne

theorem earnest_compare (fn : Option CompareFn) (a b : Bytes) : Earnest entries (compare fn a b) := by
  intro stop stopped
  cases fn with
  | none => cases stopped
  | some fn =>
    cases stopped with
    | ask o stopped => cases stopped

theorem earnest_itemAt (xs : List α) (i : Nat) : Earnest entries (itemAt xs i) := by
  unfold itemAt
  split
  · exact earnest_pure _
  · exact earnest_breach _

/-- A guarded step can only break off. -/
theorem earnest_guarded {inside : Prop} [Decidable inside] {a : α} {fault : Breach} :
    Earnest entries (if inside then pure a else breach fault : Work α) := by
  split
  · exact earnest_pure a
  · exact earnest_breach fault

theorem earnest_setAt (xs : List α) (i : Nat) (x : α) : Earnest entries (setAt xs i x) := earnest_guarded

theorem earnest_insertAt (xs : List α) (i : Nat) (x : α) : Earnest entries (insertAt xs i x) :=
  earnest_guarded

theorem earnest_eraseAt (xs : List α) (i : Nat) : Earnest entries (eraseAt xs i) := earnest_guarded

theorem earnest_minus (a b : Nat) : Earnest entries (minus a b) := earnest_guarded

end Work

open Work

namespace Search

variable {entries : Contents}

theorem earnest_narrow {probe : Nat → Work Ordering} (probed : ∀ i, Earnest entries (probe i))
    (fuel base size : Nat) : Earnest entries (narrow probe fuel base size) := by
  induction fuel generalizing base size with
  | zero => exact earnest_pure _
  | succ fuel ih =>
    unfold narrow
    split
    · exact earnest_pure _
    · exact (probed _).bind fun o => ih _ _

theorem earnest_locate {α : Type} (xs : List α) {against : α → Work Ordering}
    (compared : ∀ x, Earnest entries (against x)) : Earnest entries (locate xs against) := by
  unfold locate
  split
  · exact earnest_pure _
  · have probed : ∀ i, Earnest entries (do against (← itemAt xs i)) := fun i =>
      (earnest_itemAt xs i).bind compared
    refine (earnest_narrow probed _ _ _).bind fun base => (probed base).bind fun o => ?_
    cases o <;> exact earnest_pure _

end Search

namespace Contents

variable {held : Contents}

theorem earnest_find (layout : Layout) (entries : Contents) (key : Bytes) :
    Earnest held (find layout entries key) :=
  Search.earnest_locate entries fun e => earnest_compare layout.keyOrder e.key key

theorem earnest_findIn (layout : Layout) (values : List Bytes) (value : Bytes) :
    Earnest held (findIn layout values value) :=
  Search.earnest_locate values fun v => earnest_compare layout.valueOrder v value

/-- An item in the way is read before it is told of. -/
theorem earnest_occupied {α : Type} (entries : Contents) (p : Place) :
    Earnest entries (occupied entries p : Work α) := by
  intro stop stopped
  unfold occupied at stopped
  rw [ExceptT.run_bind, Inquiry.yields_bind] at stopped
  obtain ⟨result, read, stopped⟩ := stopped
  cases result with
  | error cut =>
    cases stopped
    have earnest : Earnest entries (valueAt entries p) :=
      (earnest_itemAt entries p.entry).bind fun e => earnest_itemAt e.values p.value
    exact earnest _ read
  | ok v =>
    cases stopped
    obtain ⟨e, stood, was⟩ := yields_bind.mp read
    have stood := yields_itemAt.mp stood
    have there := (List.getElem?_eq_some_iff.mp (yields_itemAt.mp was)).1
    simpa [Stop.Earnest, holds, stood] using there

end Contents

namespace Holding

theorem earnest_charge {held : Contents} (limit used add sub : Nat) : Earnest held (charge limit used add sub) := by
  refine (earnest_minus used sub).bind fun left => ?_
  dsimp only
  split
  · exact earnest_refuse (by decide)
  · exact earnest_pure _

section
variable {layout : Layout} {limit : Nat} {rule : PutRule} {key value : Bytes} {h : Holding} {i : Nat}

theorem earnest_putNew : Earnest h.entries (putNew limit rule key value h i) := by
  unfold putNew
  split
  · exact earnest_refuse (by decide)
  · exact (earnest_charge _ _ _ _).bind fun _ =>
      (earnest_insertAt _ _ _).bind fun _ => earnest_pure _

theorem earnest_overwrite : Earnest h.entries (overwrite limit value h i) :=
  (earnest_itemAt _ _).bind fun _ => (earnest_itemAt _ _).bind fun _ =>
    (earnest_charge _ _ _ _).bind fun _ => (earnest_setAt _ _ _).bind fun _ =>
      (earnest_setAt _ _ _).bind fun _ => earnest_pure _

theorem earnest_checkLength {held : Contents} (values : List Bytes) (like : Nat) :
    Earnest held (checkLength layout values like value) := by
  unfold checkLength
  split
  · refine (earnest_itemAt _ _).bind fun v => ?_
    split
    · exact earnest_pure _
    · exact earnest_refuse (by decide)
  · exact earnest_pure _

theorem earnest_putValue : Earnest h.entries (putValue layout limit rule value h i) := by
  refine (earnest_itemAt _ _).bind fun e => (earnest_checkLength _ _).bind fun _ =>
    (Contents.earnest_findIn _ _ _).bind fun spot => ?_
  cases spot with
  | found j =>
    dsimp only
    split
    · exact Contents.earnest_occupied _ _
    · exact earnest_pure _
  | absent j =>
    dsimp only
    split
    · exact (earnest_minus _ _).bind fun _ => Contents.earnest_occupied _ _
    · exact (earnest_charge _ _ _ _).bind fun _ => (earnest_insertAt _ _ _).bind fun _ =>
        (earnest_setAt _ _ _).bind fun _ => earnest_pure _

theorem earnest_put : Earnest h.entries (put layout limit rule key value h) := by
  refine (Contents.earnest_find _ _ _).bind fun spot => ?_
  cases spot with
  | absent i => exact earnest_putNew
  | found i =>
    dsimp only
    split
    · exact Contents.earnest_occupied _ _
    · split
      · exact earnest_refuse (by decide)
      · split
        · exact earnest_putValue
        · exact earnest_overwrite

theorem earnest_replaceAt {p : Place} : Earnest h.entries (replaceAt layout limit p value h) := by
  refine (earnest_itemAt _ _).bind fun e => (earnest_itemAt _ _).bind fun old => ?_
  split
  · refine (earnest_checkLength _ _).bind fun _ => (earnest_charge _ _ _ _).bind fun used =>
      (earnest_eraseAt _ _).bind fun others => (Contents.earnest_findIn _ _ _).bind fun spot => ?_
    cases spot with
    | found k =>
      exact (earnest_setAt _ _ _).bind fun _ => (earnest_minus _ _).bind fun _ => earnest_pure _
    | absent k =>
      exact (earnest_insertAt _ _ _).bind fun _ => (earnest_setAt _ _ _).bind fun _ =>
        earnest_pure _
  · exact (earnest_charge _ _ _ _).bind fun _ => (earnest_setAt _ _ _).bind fun _ =>
      (earnest_setAt _ _ _).bind fun _ => earnest_pure _

end

end Holding

end CollatedStore
