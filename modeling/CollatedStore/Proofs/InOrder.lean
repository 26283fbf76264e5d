import CollatedStore.Proofs.Edits
import CollatedStore.Proofs.Sorted

/-!
The orders of a database. A write that is answered by two total preorders keeps the keys strictly
increasing in the one, and the values of each key strictly increasing in the other.
-/
namespace CollatedStore

/-! ## Lists in strict order -/

namespace Search

variable {α β : Type} {order : β → β → Ordering} {key : α → β} {xs : List α} {i : Nat} {x y : α}

/-- Where a search ends that finds nothing, the wanted item belongs. -/
theorem Ascending.insertIdx [Std.TransCmp order] (ascending : Ascending order key xs)
    (cut : Cut (fun y => order (key y) (key x)) xs (.absent i)) :
    Ascending order key (xs.insertIdx i x) := by
  cases cut with
  | absent whole less greater =>
    have added := Sorted.add_ascending ascending x
    rw [whole, Sorted.add_absent less greater] at added
    rw [whole, Work.insertIdx_cut]
    exact added

/-- The order does not see a change that leaves the key. -/
theorem Ascending.set (ascending : Ascending order key xs) (stood : xs[i]? = some x)
    (same : key y = key x) : Ascending order key (xs.set i y) := by
  obtain ⟨inside, rfl⟩ := List.getElem?_eq_some_iff.mp stood
  have keys : (xs.set i y).map key = xs.map key := by
    have mapped : i < (xs.map key).length := by simpa using inside
    have unmoved : (xs.map key).set i (xs.map key)[i] = xs.map key := List.set_getElem_self mapped
    rw [List.map_set, same]
    rwa [List.getElem_map] at unmoved
  have increasing : (xs.map key).Pairwise fun a b => order a b = .lt :=
    List.pairwise_map.mpr ascending
  rw [← keys] at increasing
  exact List.pairwise_map.mp increasing

theorem Ascending.eraseIdx (ascending : Ascending order key xs) (i : Nat) :
    Ascending order key (xs.eraseIdx i) :=
  List.Pairwise.sublist (List.eraseIdx_sublist xs i) ascending

/-- No two items are equal. -/
theorem Ascending.apart [Std.OrientedCmp order] (ascending : Ascending order key xs) {j : Nat}
    (hi : xs[i]? = some x) (hj : xs[j]? = some y) (equal : order (key x) (key y) = .eq) :
    i = j := by
  obtain ⟨insideI, rfl⟩ := List.getElem?_eq_some_iff.mp hi
  obtain ⟨insideJ, rfl⟩ := List.getElem?_eq_some_iff.mp hj
  have less := List.pairwise_iff_getElem.mp ascending
  obtain before | same | after := Nat.lt_trichotomy i j
  · rw [less i j insideI insideJ before] at equal
    cases equal
  · exact same
  · rw [Std.OrientedCmp.gt_of_lt (less j i insideJ insideI after)] at equal
    cases equal

/-- A search for what is there finds it. -/
theorem Ascending.cut_found [Std.TransCmp order] (ascending : Ascending order key xs) {z : β}
    {spot : Spot} (cut : Cut (fun y => order (key y) z) xs spot) (stood : xs[i]? = some x)
    (equal : order (key x) z = .eq) : spot = .found i := by
  cases cut with
  | @found before after y whole less same greater =>
    have here : xs[before.length]? = some y := by simp [whole]
    have together := Std.TransCmp.eq_trans same (Std.OrientedCmp.eq_symm equal)
    rw [ascending.apart here stood together]
  | absent whole less greater =>
    exact absurd equal ((Cut.absent whole less greater).differ x (List.mem_of_getElem? stood))

end Search

open Search (Ascending Cut)

namespace Contents

/-- The keys increase strictly in one order, and the values of each key in the other. -/
structure InOrder (keys values : Order) (entries : Contents) : Prop where
  keys : Ascending keys Entry.key entries
  values : ∀ e ∈ entries, Ascending values id e.values

/-- Keys in different places are not equal, nor are values of one key. -/
structure Apart (keys values : Order) (entries : Contents) : Prop where
  keys : ∀ {i j : Nat} {d e : Entry}, entries[i]? = some d → entries[j]? = some e →
    keys d.key e.key = .eq → i = j
  values : ∀ e ∈ entries, ∀ {i j : Nat} {v w : Bytes}, e.values[i]? = some v →
    e.values[j]? = some w → values v w = .eq → i = j

section
variable {keys values : Order} {entries : Contents} {i : Nat} {e : Entry}

theorem inOrder_nil : InOrder keys values [] :=
  ⟨.nil, fun _ there => absurd there List.not_mem_nil⟩

theorem InOrder.apart [Std.TransCmp keys] [Std.TransCmp values]
    (inOrder : InOrder keys values entries) : Apart keys values entries where
  keys hi hj equal := inOrder.keys.apart hi hj equal
  values e he _ _ _ _ hi hj equal := (inOrder.values e he).apart hi hj equal

theorem InOrder.insertIdx [Std.TransCmp keys] (inOrder : InOrder keys values entries)
    {key value : Bytes} (cut : Cut (fun e => keys e.key key) entries (.absent i))
    (inside : i ≤ entries.length) :
    InOrder keys values (entries.insertIdx i ⟨key, [value]⟩) := by
  refine ⟨inOrder.keys.insertIdx cut, fun e he => ?_⟩
  obtain rfl | he := (List.mem_insertIdx inside).mp he
  · exact List.pairwise_singleton _ value
  · exact inOrder.values e he

theorem InOrder.set (inOrder : InOrder keys values entries) (stood : entries[i]? = some e)
    {vs : List Bytes} (ascending : Ascending values id vs) :
    InOrder keys values (entries.set i { e with values := vs }) := by
  refine ⟨inOrder.keys.set stood rfl, fun d hd => ?_⟩
  obtain hd | rfl := List.mem_or_eq_of_mem_set hd
  · exact inOrder.values d hd
  · exact ascending

theorem InOrder.eraseIdx (inOrder : InOrder keys values entries) (i : Nat) :
    InOrder keys values (entries.eraseIdx i) :=
  ⟨inOrder.keys.eraseIdx i, fun e he => inOrder.values e (List.mem_of_mem_eraseIdx he)⟩

end

section
variable {answer : Question → Ordering} {layout : Layout} {spot : Spot}

/-- A search that was answered by an order has cut what stands in that order. -/
theorem find_located [Std.TransCmp (layout.keys answer)] {entries : Contents} {key : Bytes}
    (ascending : Ascending (layout.keys answer) Entry.key entries)
    (located : (find layout entries key).run.YieldsBy (fun q o => o = answer q) (.ok spot)) :
    Cut (fun e => layout.keys answer e.key key) entries spot := by
  obtain ⟨spot', ended, cut⟩ := find_cuts ascending key
  have same : Except.ok spot = Except.ok spot' := (Inquiry.yieldsBy_answer.mp located).trans ended
  cases same
  exact cut

theorem findIn_located [Std.TransCmp (layout.values answer)] {values : List Bytes} {value : Bytes}
    (ascending : Ascending (layout.values answer) id values)
    (located : (findIn layout values value).run.YieldsBy (fun q o => o = answer q) (.ok spot)) :
    Cut (fun v => layout.values answer v value) values spot := by
  obtain ⟨spot', ended, cut⟩ := findIn_cuts ascending value
  have same : Except.ok spot = Except.ok spot' := (Inquiry.yieldsBy_answer.mp located).trans ended
  cases same
  exact cut

end

end Contents

/-! ## Writes -/

namespace Holding

variable {answer : Question → Ordering} {layout : Layout} [Std.TransCmp (layout.keys answer)]
  [Std.TransCmp (layout.values answer)] {limit rest : Nat} {h h' : Holding}

/-- The entries are in the orders of their database. -/
abbrev InOrder (layout : Layout) (answer : Question → Ordering) (h : Holding) : Prop :=
  h.entries.InOrder (layout.keys answer) (layout.values answer)

theorem Change.inOrder (change : Change (fun q o => o = answer q) layout limit h h')
    (ok : Accounted layout limit rest h) (inOrder : InOrder layout answer h) :
    InOrder layout answer h' := by
  cases change with
  | kept => exact inOrder
  | added located _ inside _ =>
    exact inOrder.insertIdx (Contents.find_located inOrder.keys located) inside
  | @overwritten i j e old value plain stood _ _ _ =>
    -- The value overwritten was the only one.
    obtain ⟨first, only⟩ := List.length_eq_one_iff.mp
      ((ok.entries e (List.mem_of_getElem? stood)).single plain)
    refine inOrder.set stood ?_
    rw [only]
    exact List.pairwise_singleton _ value
  | @joined i j e value _ stood located _ _ _ =>
    have ascending := inOrder.values e (List.mem_of_getElem? stood)
    exact inOrder.set stood (ascending.insertIdx (Contents.findIn_located ascending located))
  | @replaced i j k e old value _ stood _ located _ _ _ _ =>
    have ascending := (inOrder.values e (List.mem_of_getElem? stood)).eraseIdx j
    exact inOrder.set stood (ascending.insertIdx (Contents.findIn_located ascending located))
  | @parted i j e old _ stood _ _ _ =>
    exact inOrder.set stood ((inOrder.values e (List.mem_of_getElem? stood)).eraseIdx j)
  | dropped _ _ => exact inOrder.eraseIdx _

theorem Changes.inOrder (changes : Changes (fun q o => o = answer q) layout limit h h')
    (ok : Accounted layout limit rest h) (inOrder : InOrder layout answer h) :
    InOrder layout answer h' := by
  induction changes with
  | refl => exact inOrder
  | tail before change ih => exact change.inOrder ((Changes.edits before).accounted ok) ih

end Holding

end CollatedStore
