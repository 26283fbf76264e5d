import CollatedStore.Proofs.Search

/-!
Lists in strict order, looked up and changed by going through all items. `against` tells how an item
stands to the wanted one.
-/
namespace CollatedStore.Sorted

open Search

variable {α β : Type}

/-- The item that is equal to the wanted one. -/
def pick (against : α → Ordering) (xs : List α) : Option α := xs.find? fun x => against x == .eq

/-- Is nothing greater than the wanted item? -/
def atEnd (against : α → Ordering) (xs : List α) : Bool := xs.all fun x => against x != .gt

/-- Adds `x`, the wanted item, where it belongs, unless an equal one is there. -/
def add (against : α → Ordering) (x : α) : List α → List α
  | [] => [x]
  | y :: ys => match against y with
    | .lt => y :: add against x ys
    | .eq => y :: ys
    | .gt => x :: y :: ys

def alter (against : α → Ordering) (f : α → α) (xs : List α) : List α :=
  xs.map fun x => if against x = .eq then f x else x

def drop (against : α → Ordering) (xs : List α) : List α := xs.filter fun x => against x != .eq

section
variable {against : α → Ordering} {before after : List α} {x : α}

theorem pick_absent (less : ∀ y ∈ before, against y = .lt)
    (greater : ∀ y ∈ after, against y = .gt) : pick against (before ++ after) = none := by
  refine List.find?_eq_none.mpr fun y hy => ?_
  obtain hy | hy := List.mem_append.mp hy
  · simp [less y hy]
  · simp [greater y hy]

theorem pick_found (less : ∀ y ∈ before, against y = .lt) (equal : against x = .eq) :
    pick against (before ++ x :: after) = some x := by
  have none_before : before.find? (fun y => against y == .eq) = none :=
    List.find?_eq_none.mpr fun y hy => by simp [less y hy]
  rw [pick, List.find?_append, none_before, List.find?_cons_of_pos (by simp [equal])]
  rfl

theorem atEnd_absent (less : ∀ y ∈ before, against y = .lt)
    (greater : ∀ y ∈ after, against y = .gt) :
    atEnd against (before ++ after) = after.isEmpty := by
  have all_before : before.all (fun y => against y != .gt) = true :=
    List.all_eq_true.mpr fun y hy => by simp [less y hy]
  rw [atEnd, List.all_append, all_before, Bool.true_and]
  cases after with
  | nil => rfl
  | cons y ys => simp [greater y (by simp)]

theorem atEnd_found (less : ∀ y ∈ before, against y = .lt) (equal : against x = .eq)
    (greater : ∀ y ∈ after, against y = .gt) :
    atEnd against (before ++ x :: after) = after.isEmpty := by
  have all_before : (before ++ [x]).all (fun y => against y != .gt) = true := by
    refine List.all_eq_true.mpr fun y hy => ?_
    obtain hy | hy := List.mem_append.mp hy
    · simp [less y hy]
    · simp [List.mem_singleton.mp hy, equal]
  rw [atEnd, List.append_cons, List.all_append, all_before, Bool.true_and]
  cases after with
  | nil => rfl
  | cons y ys => simp [greater y (by simp)]

theorem add_absent (less : ∀ y ∈ before, against y = .lt)
    (greater : ∀ y ∈ after, against y = .gt) (x : α) :
    add against x (before ++ after) = before ++ x :: after := by
  induction before with
  | nil =>
    cases after with
    | nil => rfl
    | cons y ys => simp [add, greater y (by simp)]
  | cons y ys ih =>
    have smaller := less y (by simp)
    simp [add, smaller, ih fun z hz => less z (by simp [hz])]

theorem alter_of_ne {f : α → α} {xs : List α} (other : ∀ y ∈ xs, against y ≠ .eq) :
    alter against f xs = xs := by
  induction xs with
  | nil => rfl
  | cons y ys ih =>
    rw [alter, List.map_cons, if_neg (other y (by simp))]
    exact congrArg (y :: ·) (ih fun z hz => other z (by simp [hz]))

theorem alter_found (less : ∀ y ∈ before, against y = .lt) (equal : against x = .eq)
    (greater : ∀ y ∈ after, against y = .gt) (f : α → α) :
    alter against f (before ++ x :: after) = before ++ f x :: after := by
  have keeps_before : alter against f before = before :=
    alter_of_ne fun y hy => by simp [less y hy]
  have keeps_after : alter against f after = after :=
    alter_of_ne fun y hy => by simp [greater y hy]
  rw [alter] at keeps_before keeps_after
  rw [alter, List.map_append, List.map_cons, if_pos equal, keeps_before, keeps_after]

theorem drop_found (less : ∀ y ∈ before, against y = .lt) (equal : against x = .eq)
    (greater : ∀ y ∈ after, against y = .gt) :
    drop against (before ++ x :: after) = before ++ after := by
  have keeps_before : before.filter (fun y => against y != .eq) = before :=
    List.filter_eq_self.mpr fun y hy => by simp [less y hy]
  have keeps_after : after.filter (fun y => against y != .eq) = after :=
    List.filter_eq_self.mpr fun y hy => by simp [greater y hy]
  rw [drop, List.filter_append, List.filter_cons_of_neg (by simp [equal]), keeps_before,
    keeps_after]

end

/-! ## What keeps the order -/

section
variable {order : β → β → Ordering} {key : α → β} {against : α → Ordering} {xs : List α}

theorem mem_add {x y : α} (h : y ∈ add against x xs) : y = x ∨ y ∈ xs := by
  induction xs with
  | nil => exact .inl (List.mem_singleton.mp h)
  | cons z zs ih =>
    unfold add at h
    split at h
    · obtain rfl | h := List.mem_cons.mp h
      · exact .inr (by simp)
      · obtain rfl | h := ih h
        · exact .inl rfl
        · exact .inr (by simp [h])
    · exact .inr h
    · exact List.mem_cons.mp h

theorem add_ne_nil (against : α → Ordering) (x : α) (xs : List α) : add against x xs ≠ [] := by
  cases xs with
  | nil => exact nofun
  | cons y ys =>
    unfold add
    split <;> exact nofun

theorem add_ascending [Std.TransCmp order] (ascending : Ascending order key xs) (x : α) :
    Ascending order key (add (fun y => order (key y) (key x)) x xs) := by
  induction xs with
  | nil => exact List.pairwise_singleton _ _
  | cons y ys ih =>
    obtain ⟨first, rest⟩ := List.pairwise_cons.mp ascending
    unfold add
    split
    · rename_i less
      refine List.pairwise_cons.mpr ⟨fun z hz => ?_, ih rest⟩
      obtain rfl | hz := mem_add hz
      · exact less
      · exact first z hz
    · exact ascending
    · rename_i greater
      have less : order (key x) (key y) = .lt := Std.OrientedCmp.lt_of_gt greater
      refine List.pairwise_cons.mpr ⟨fun z hz => ?_, ascending⟩
      obtain rfl | hz := List.mem_cons.mp hz
      · exact less
      · exact Std.TransCmp.lt_trans less (first z hz)

theorem alter_ascending {f : α → α} (ascending : Ascending order key xs)
    (same : ∀ y, key (f y) = key y) : Ascending order key (alter against f xs) := by
  refine List.pairwise_map.mpr (ascending.imp fun {y z} less => ?_)
  split <;> split <;> simp [same, less]

theorem drop_ascending (ascending : Ascending order key xs) :
    Ascending order key (drop against xs) :=
  List.Pairwise.filter _ ascending

end

end CollatedStore.Sorted
