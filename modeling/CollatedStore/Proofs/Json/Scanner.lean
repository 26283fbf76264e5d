import CollatedStore.Json.Record

/-!
What every accepted text gives: a property that the reader of each part ensures holds of the whole,
whatever stands between the parts.
-/
namespace CollatedStore.Json.Scanner

variable {α β σ : Type} {p : α → Prop} {q : β → Prop} {scan : Scanner α}

/-- Whatever the scan gives, from any text that it accepts, satisfies `p`. -/
def Gives (scan : Scanner α) (p : α → Prop) : Prop :=
  ∀ text a rest, scan.run text = .ok (a, rest) → p a

namespace Gives

theorem pure {a : α} (holds : p a) : Gives (Pure.pure a) p := by
  intro text _ rest ran
  cases ran
  exact holds

theorem throw (flaw : Flaw) : Gives (MonadExcept.throw flaw : Scanner α) p := by
  intro text _ rest ran
  cases ran

theorem bind {next : α → Scanner β} (first : Gives scan p) (others : ∀ a, p a → Gives (next a) q) :
    Gives (scan >>= next) q := by
  intro text b rest ran
  rw [StateT.run_bind] at ran
  cases scanned : scan.run text with
  | error flaw =>
    rw [scanned] at ran
    cases ran
  | ok taken =>
    rw [scanned] at ran
    exact others taken.1 (first text taken.1 taken.2 scanned) taken.2 b rest ran

/-- What the first part gives does not matter. -/
theorem after {next : α → Scanner β} (others : ∀ a, Gives (next a) q) : Gives (scan >>= next) q :=
  have anything : Gives scan fun _ => True := fun _ _ _ _ => trivial
  anything.bind fun a _ => others a

theorem ite {c : Prop} [Decidable c] {other : Scanner α} (first : Gives scan p)
    (second : Gives other p) : Gives (if c then scan else other) p := by
  split
  · exact first
  · exact second

theorem map {f : α → β} (gives : Gives scan p) (kept : ∀ a, p a → q (f a)) :
    Gives (f <$> scan) q := by
  rw [map_eq_pure_bind]
  exact gives.bind fun a holds => .pure (kept a holds)

end Gives

/-- Nothing is given for a value of another shape. -/
theorem otherShape_gives (b : UInt8) : Gives (otherShape b) p := by
  have none_given : Gives misshapen p := .throw _
  have word_given (text : String) : Gives (do advance; word text; misshapen) p :=
    .after fun _ => .after fun _ => none_given
  refine .ite (word_given "null") (.ite (word_given "true") (.ite (word_given "false") ?_))
  exact .ite (.after fun _ => none_given) (.ite (.after fun _ => none_given)
    (.ite none_given (.after fun _ => none_given)))

/-! ### Lists -/

/-- Every item of a list is given by the reader of the items. -/
theorem items_gives (item : Gives scan p) (fuel : Nat) (first : Bool) :
    Gives (items scan fuel first) fun xs => ∀ x ∈ xs, p x := by
  induction fuel generalizing first with
  | zero => exact .throw _
  | succ fuel ih =>
    refine .after fun more => .ite ?_ (.pure (List.forall_mem_nil p))
    refine item.bind fun x holds => ?_
    exact (ih false).bind fun xs others => .pure (List.forall_mem_cons.mpr ⟨holds, others⟩)

theorem list_gives (item : Gives scan p) : Gives (list scan) fun xs => ∀ x ∈ xs, p x := by
  refine .after fun b => .ite (.after fun _ => .after fun rest => ?_) (otherShape_gives b)
  exact (items_gives item _ true).bind fun xs all => .after fun _ => .pure all

/-! ### Records -/

section Record

variable {p : σ → Prop} {fields : List (Field σ)}

theorem fieldsInOrder_gives (kept : ∀ field ∈ fields, ∀ s, p s → Gives (field.read s) p)
    (first : Bool) {s : σ} (start : p s) : Gives (fieldsInOrder fields first s) p := by
  induction fields generalizing first s with
  | nil => exact .pure start
  | cons field fields ih =>
    obtain ⟨kept, others⟩ := List.forall_mem_cons.mp kept
    refine .after fun more => .ite ?_ (.throw _)
    exact (kept s start).bind fun s' holds => ih others false holds

theorem fieldsByName_gives (kept : ∀ field ∈ fields, ∀ s, p s → Gives (field.read s) p)
    (fuel : Nat) (first : Bool) {s : σ} (start : p s) :
    Gives (fieldsByName fields fuel first s) p := by
  induction fuel generalizing first s with
  | zero => exact .throw _
  | succ fuel ih =>
    refine .after fun more => .ite (.after fun name => ?_) (.ite (.pure start) (.throw _))
    split
    case h_1 field found =>
      have mem := List.mem_of_find?_eq_some found
      have read : Gives (do colon; fieldsByName fields fuel false (← field.read s)) p :=
        .after fun _ => (kept field mem s start).bind fun s' holds => ih false holds
      exact .ite (.after fun _ => read) read
    case h_2 => exact .after fun _ => .after fun _ => ih false start

/-- What each field keeps holds of the whole record, in whichever form it is written. -/
theorem record_gives (kept : ∀ field ∈ fields, ∀ s, p s → Gives (field.read s) p) {s : σ}
    (start : p s) : Gives (record fields s) p := by
  refine .after fun b => .ite (.after fun _ => ?_)
    (.ite (.after fun _ => .after fun rest => ?_) (otherShape_gives b))
  · exact (fieldsInOrder_gives kept true start).bind fun s' holds => .after fun _ => .pure holds
  · exact (fieldsByName_gives kept _ true start).bind fun s' holds => .after fun _ => .pure holds

end Record

end CollatedStore.Json.Scanner
