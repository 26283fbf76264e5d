import CollatedStore.Proofs.InOrder

/-!
Items gathered one after another into a list in strict order. One that is equal to an earlier one is
left out, and the others stand in the end as sorting puts them.
-/
namespace CollatedStore.Sorted

open Search

variable {α : Type} {order : α → α → Ordering} {xs records : List α} {x : α}

/-- Adds each of the records, the first one first. -/
def gather (order : α → α → Ordering) (records xs : List α) : List α :=
  records.foldl (fun xs record => add (fun y => order y record) record xs) xs

/-- Leaves out each record that is equal to an earlier one, and sorts the others. -/
def arrange (order : α → α → Ordering) (records : List α) : List α :=
  (records.eraseDupsBy fun later earlier => order later earlier == .eq).mergeSort
    fun a b => (order a b).isLE

theorem gather_cons (order : α → α → Ordering) (record : α) (records xs : List α) :
    gather order (record :: records) xs =
      gather order records (add (fun y => order y record) record xs) := rfl

theorem add_perm {against : α → Ordering} (apart : ∀ y ∈ xs, against y ≠ .eq) (x : α) :
    (add against x xs).Perm (x :: xs) := by
  induction xs with
  | nil => exact .refl _
  | cons y ys ih =>
    have rest := ih fun z among => apart z (List.mem_cons_of_mem y among)
    unfold add
    cases stands : against y with
    | lt => exact (rest.cons y).trans (.swap x y ys)
    | eq => exact absurd stands (apart y List.mem_cons_self)
    | gt => exact .refl _

/-- What is there already is not added again. -/
theorem add_of_mem [Std.TransCmp order] (ascending : Ascending order id xs) {z : α}
    (among : z ∈ xs) (equal : order z x = .eq) : add (fun y => order y x) x xs = xs := by
  induction xs with
  | nil => cases among
  | cons y ys ih =>
    obtain ⟨first, rest⟩ := List.pairwise_cons.mp ascending
    unfold add
    obtain rfl | later := List.mem_cons.mp among
    · rw [equal]
    · have less : order y x = .lt := Std.TransCmp.lt_of_lt_of_eq (first z later) equal
      rw [less]
      dsimp only
      rw [ih rest later]

theorem gather_ascending [Std.TransCmp order] (ascending : Ascending order id xs)
    (records : List α) : Ascending order id (gather order records xs) := by
  induction records generalizing xs with
  | nil => exact ascending
  | cons record rest ih => exact ih (add_ascending ascending record)

theorem gather_ne_nil (inhabited : xs ≠ []) (records : List α) : gather order records xs ≠ [] := by
  induction records generalizing xs with
  | nil => exact inhabited
  | cons record rest ih => exact ih (add_ne_nil _ record xs)

/-- The records met so far are those kept so far, last one first. -/
theorem gather_perm [Std.TransCmp order] (ascending : Ascending order id xs) {kept : List α}
    (same : xs.Perm kept) (records : List α) :
    (gather order records xs).Perm
      (List.eraseDupsBy.loop (fun later earlier => order later earlier == .eq) records kept) := by
  induction records generalizing xs kept with
  | nil => exact same.trans (List.reverse_perm kept).symm
  | cons record rest ih =>
    rw [gather_cons, List.eraseDupsBy.loop]
    cases met : kept.any fun earlier => order record earlier == .eq with
    | true =>
      obtain ⟨z, among, equal⟩ := List.any_eq_true.mp met
      have equal : order z record = .eq := Std.OrientedCmp.eq_symm (by simpa using equal)
      rw [add_of_mem ascending (same.mem_iff.mpr among) equal]
      exact ih ascending same
    | false =>
      have apart : ∀ y ∈ xs, order y record ≠ .eq := by
        intro y among equal
        have unequal := List.any_eq_false.mp met y (same.mem_iff.mp among)
        exact unequal (by simpa using Std.OrientedCmp.eq_symm equal)
      exact ih (add_ascending ascending record) ((add_perm apart record).trans (same.cons record))

/-- Gathered records stand as if the first of each had been sorted. -/
theorem gather_eq_arrange [Std.TransCmp order] (records : List α) :
    gather order records [] = arrange order records := by
  have ascending : Ascending order id (gather order records []) := gather_ascending .nil records
  have firsts : (gather order records []).Perm
      (records.eraseDupsBy fun later earlier => order later earlier == .eq) :=
    gather_perm .nil (.refl []) records
  have same := firsts.trans (List.mergeSort_perm _ fun a b => (order a b).isLE).symm
  refine same.eq_of_pairwise ?antisymm (ascending.imp ?le) (List.pairwise_mergeSort ?trans ?total _)
  case antisymm =>
    intro a b ha hb le ge
    obtain ⟨i, hi⟩ := List.mem_iff_getElem?.mp ha
    obtain ⟨j, hj⟩ := List.mem_iff_getElem?.mp (same.mem_iff.mpr hb)
    have equal : order a b = .eq := Std.OrientedCmp.isLE_antisymm le ge
    rw [ascending.apart hi hj equal, hj] at hi
    exact (Option.some.inj hi).symm
  case le =>
    intro a b less
    rw [show order a b = .lt from less]
    rfl
  case trans => exact fun a b c => Std.TransCmp.isLE_trans
  case total =>
    intro a b
    have swapped : order a b = (order b a).swap := Std.OrientedCmp.eq_swap
    rw [swapped]
    cases order b a <;> rfl

theorem arrange_ne_nil [Std.TransCmp order] (some_record : records ≠ []) :
    arrange order records ≠ [] := by
  obtain ⟨record, rest, rfl⟩ := List.exists_cons_of_ne_nil some_record
  rw [← gather_eq_arrange, gather_cons]
  exact gather_ne_nil (add_ne_nil _ record []) rest

/-! ## Bytes -/

section
variable {order : Order} {xs : List Bytes}

theorem length_flatten_add (against : Bytes → Ordering) (x : Bytes) (xs : List Bytes) :
    xs.flatten.length ≤ (add against x xs).flatten.length := by
  induction xs with
  | nil => exact Nat.zero_le _
  | cons y ys ih =>
    unfold add
    cases against y with
    | lt => simpa using ih
    | eq => exact Nat.le_refl _
    | gt => simp

theorem length_flatten_gather (order : Order) (records xs : List Bytes) :
    xs.flatten.length ≤ (gather order records xs).flatten.length := by
  induction records generalizing xs with
  | nil => exact Nat.le_refl _
  | cons record rest ih => exact Nat.le_trans (length_flatten_add _ record xs) (ih _)

end

end CollatedStore.Sorted
