import CollatedStore.Proofs.Evaluation

/-!
Binary search. On a list that stands in order to the wanted item, whatever stands before the spot
that the search ends on is less, and whatever stands after it is greater.
-/
namespace CollatedStore.Search

variable {α β : Type}

/-- The keys of the items increase strictly. -/
def Ascending (order : β → β → Ordering) (key : α → β) (xs : List α) : Prop :=
  xs.Pairwise fun x y => order (key x) (key y) = .lt

/-- Below an item that is not greater than the wanted one, all items are less. -/
def Parted (against : α → Ordering) (xs : List α) : Prop :=
  xs.Pairwise fun x y => against y ≠ .gt → against x = .lt

/-- The list is cut at a spot: at the wanted item, or where it belongs. -/
inductive Cut (against : α → Ordering) (xs : List α) : Spot → Prop
  | found {before after : List α} {x : α} (whole : xs = before ++ x :: after)
      (less : ∀ y ∈ before, against y = .lt) (equal : against x = .eq)
      (greater : ∀ y ∈ after, against y = .gt) : Cut against xs (.found before.length)
  | absent {before after : List α} (whole : xs = before ++ after)
      (less : ∀ y ∈ before, against y = .lt) (greater : ∀ y ∈ after, against y = .gt) :
      Cut against xs (.absent before.length)

theorem Cut.front {against : α → Ordering} {xs : List α} (greater : ∀ y ∈ xs, against y = .gt) :
    Cut against xs (.absent 0) :=
  @Cut.absent α against xs [] xs rfl nofun greater

/-- Where the wanted item is absent, no item is equal to it. -/
theorem Cut.differ {against : α → Ordering} {xs : List α} {i : Nat}
    (cut : Cut against xs (.absent i)) : ∀ x ∈ xs, against x ≠ .eq := by
  cases cut with
  | absent whole less greater =>
    rw [whole]
    refine List.forall_mem_append.mpr ⟨fun x below => ?_, fun x above => ?_⟩
    · simp [less x below]
    · simp [greater x above]

theorem Cut.of_map {against : α → Ordering} {f : β → α} {xs : List β} {spot : Spot}
    (cut : Cut against (xs.map f) spot) : Cut (fun x => against (f x)) xs spot := by
  cases cut with
  | found whole less equal greater =>
    obtain ⟨before, rest, rfl, rfl, others⟩ := List.map_eq_append_iff.mp whole
    obtain ⟨x, after, rfl, rfl, rfl⟩ := List.map_eq_cons_iff.mp others
    rw [List.length_map]
    exact .found rfl (List.forall_mem_map.mp less) equal (List.forall_mem_map.mp greater)
  | absent whole less greater =>
    obtain ⟨before, after, rfl, rfl, rfl⟩ := List.map_eq_append_iff.mp whole
    rw [List.length_map]
    exact .absent rfl (List.forall_mem_map.mp less) (List.forall_mem_map.mp greater)

theorem Ascending.parted {order : β → β → Ordering} [Std.TransCmp order] {key : α → β} {xs : List α}
    (ascending : Ascending order key xs) (z : β) : Parted (fun x => order (key x) z) xs := by
  refine ascending.imp fun {x y} less notGreater => ?_
  exact Std.TransCmp.lt_of_lt_of_isLE less (by cases h : order (key y) z <;> simp_all)

/-! ## Any answers -/

section
variable {xs : List α} {answer : Question → Ordering}

/-- Every probe is of an item. -/
theorem narrow_ends {probe : Nat → Work Ordering}
    (probed : ∀ i < xs.length, ∃ o, (probe i).eval answer = .ok o) (fuel base size : Nat)
    (left : 0 < size) (within : base + size ≤ xs.length) :
    ∃ b < xs.length, (narrow probe fuel base size).eval answer = .ok b := by
  induction fuel generalizing base size with
  | zero => exact ⟨base, by omega, rfl⟩
  | succ fuel ih =>
    unfold narrow
    split
    · exact ⟨base, by omega, rfl⟩
    · obtain ⟨o, told⟩ := probed (base + size / 2) (by omega)
      simp only [Work.eval_bind, told, ok_bind]
      split
      · exact ih base (size - size / 2) (by omega) (by omega)
      · exact ih (base + size / 2) (size - size / 2) (by omega) (by omega)

/-- The search ends, even if the answers contradict each other. -/
theorem locate_ends {ask : α → Work Ordering} (asked : ∀ x, ∃ o, (ask x).eval answer = .ok o) :
    ∃ spot, (locate xs ask).eval answer = .ok spot := by
  unfold locate
  cases xs with
  | nil => exact ⟨.absent 0, rfl⟩
  | cons y ys =>
    have probed : ∀ i < (y :: ys).length,
        ∃ o, (do ask (← Work.itemAt (y :: ys) i) : Work Ordering).eval answer = .ok o := by
      intro i inside
      rw [Work.eval_bind, Work.eval_itemAt answer (List.getElem?_eq_getElem inside), ok_bind]
      exact asked _
    obtain ⟨b, inside, ended⟩ := narrow_ends probed (y :: ys).length 0 (y :: ys).length
      (Nat.succ_pos _) (by omega)
    obtain ⟨o, told⟩ := probed b inside
    simp only [List.isEmpty_cons, Bool.false_eq_true, if_false, Work.eval_bind, ended, ok_bind]
    rw [Work.eval_bind] at told
    simp only [told, ok_bind]
    cases o with
    | eq => exact ⟨.found b, rfl⟩
    | lt => exact ⟨.absent (b + 1), rfl⟩
    | gt => exact ⟨.absent b, rfl⟩

end

/-! ## Answers in order -/

section
variable {against : α → Ordering} {xs : List α}

theorem Parted.less (parted : Parted against xs) {i j : Nat} {x y : α} (hi : xs[i]? = some x)
    (hj : xs[j]? = some y) (before : i < j) (notGreater : against y ≠ .gt) : against x = .lt := by
  obtain ⟨insideI, rfl⟩ := List.getElem?_eq_some_iff.mp hi
  obtain ⟨insideJ, rfl⟩ := List.getElem?_eq_some_iff.mp hj
  exact List.pairwise_iff_getElem.mp parted i j insideI insideJ before notGreater

/-- Where the candidates have been narrowed down to. -/
structure Narrowed (against : α → Ordering) (xs : List α) (base stop : Nat) : Prop where
  inside : base < xs.length
  reached : base = 0 ∨ ∃ x, xs[base]? = some x ∧ against x ≠ .gt
  past : ∀ j x, stop ≤ j → xs[j]? = some x → against x = .gt

/-- While `size` halves, it stays the number of candidates from `base` on. -/
theorem narrow_narrowed (parted : Parted against xs) (answer : Question → Ordering)
    {probe : Nat → Work Ordering}
    (probed : ∀ i x, xs[i]? = some x → (probe i).eval answer = .ok (against x))
    (fuel base size : Nat) (enough : size ≤ fuel) (left : 0 < size)
    (within : base + size ≤ xs.length) (narrowed : Narrowed against xs base (base + size)) :
    ∃ b, (narrow probe fuel base size).eval answer = .ok b ∧ Narrowed against xs b (b + 1) := by
  induction fuel generalizing base size with
  | zero => omega
  | succ fuel ih =>
    unfold narrow
    split
    · have one : size = 1 := by omega
      exact ⟨base, rfl, one ▸ narrowed⟩
    · have inside : base + size / 2 < xs.length := by omega
      have here := List.getElem?_eq_getElem inside
      simp only [Work.eval_bind, probed _ _ here, ok_bind]
      split
      · rename_i greater
        refine ih base (size - size / 2) (by omega) (by omega) (by omega)
          ⟨narrowed.inside, narrowed.reached, fun j x hj hx => ?_⟩
        by_cases same : j = base + size / 2
        · rw [same, here] at hx
          cases hx
          exact greater
        · -- An item past the probe that is not greater would make the probe less.
          cases h : against x with
          | gt => rfl
          | lt | eq =>
            have less := parted.less here hx (by omega) (by simp [h])
            rw [greater] at less
            cases less
      · rename_i notGreater
        exact ih (base + size / 2) (size - size / 2) (by omega) (by omega) (by omega)
          ⟨inside, .inr ⟨_, here, notGreater⟩, fun j x hj => narrowed.past j x (by omega)⟩

theorem cut_at {b : Nat} (parted : Parted against xs) (narrowed : Narrowed against xs b (b + 1)) :
    Cut against xs (match against (xs.get ⟨b, narrowed.inside⟩) with
      | .eq => .found b
      | .lt => .absent (b + 1)
      | .gt => .absent b) := by
  have inside := narrowed.inside
  have here := List.getElem?_eq_getElem inside
  have greater : ∀ y ∈ xs.drop (b + 1), against y = .gt := by
    intro y hy
    obtain ⟨j, hj⟩ := List.mem_iff_getElem?.mp hy
    rw [List.getElem?_drop] at hj
    exact narrowed.past _ y (by omega) hj
  have less : against xs[b] ≠ .gt → ∀ y ∈ xs.take b, against y = .lt := by
    intro notGreater y hy
    obtain ⟨j, hj⟩ := List.mem_iff_getElem?.mp hy
    rw [List.getElem?_take] at hj
    split at hj
    · exact parted.less hj here ‹_› notGreater
    · cases hj
  have whole : xs = xs.take b ++ xs[b] :: xs.drop (b + 1) := by
    rw [List.getElem_cons_drop, List.take_append_drop]
  have length : (xs.take b).length = b := List.length_take_of_le (by omega)
  cases h : against xs[b] with
  | eq =>
    have cut := Cut.found whole (less (by simp [h])) h greater
    rwa [length] at cut
  | lt =>
    have below : ∀ y ∈ xs.take (b + 1), against y = .lt := by
      intro y hy
      rw [List.take_succ_eq_append_getElem inside, List.mem_append, List.mem_singleton] at hy
      obtain hy | rfl := hy
      · exact less (by simp [h]) y hy
      · exact h
    have cut := Cut.absent (List.take_append_drop (b + 1) xs).symm below greater
    rwa [List.length_take_of_le (by omega)] at cut
  | gt =>
    -- Only the first item can be a base that is greater.
    obtain rfl | ⟨x, hx, notGreater⟩ := narrowed.reached
    · refine Cut.front fun y hy => ?_
      rw [whole, List.take_zero, List.nil_append, List.mem_cons] at hy
      obtain rfl | hy := hy
      · exact h
      · exact greater y hy
    · rw [here] at hx
      cases hx
      exact absurd h notGreater

/-- The search ends, on the spot where the list is to be cut. -/
theorem locate_cuts (parted : Parted against xs) (answer : Question → Ordering)
    {ask : α → Work Ordering} (asked : ∀ x, (ask x).eval answer = .ok (against x)) :
    ∃ spot, (locate xs ask).eval answer = .ok spot ∧ Cut against xs spot := by
  unfold locate
  cases xs with
  | nil => exact ⟨.absent 0, rfl, .front nofun⟩
  | cons y ys =>
    have probed : ∀ i x, (y :: ys)[i]? = some x →
        (do ask (← Work.itemAt (y :: ys) i) : Work Ordering).eval answer = .ok (against x) := by
      intro i x hx
      rw [Work.eval_bind, Work.eval_itemAt answer hx, ok_bind, asked]
    obtain ⟨b, ended, narrowed⟩ := narrow_narrowed parted answer probed (y :: ys).length 0
      (y :: ys).length (Nat.le_refl _) (by simp) (by simp)
      ⟨by simp, .inl rfl, fun j x hj hx => by simp at hj; simp_all⟩
    have inside := narrowed.inside
    have here := List.getElem?_eq_getElem inside
    refine ⟨_, ?_, cut_at parted narrowed⟩
    simp only [List.isEmpty_cons, Bool.false_eq_true, if_false, Work.eval_bind, ended, ok_bind,
      Work.eval_itemAt answer here, asked]
    cases against (y :: ys)[b] <;> rfl

end

end CollatedStore.Search
