import CollatedStore.Proofs.InOrder
import CollatedStore.Proofs.Unbroken

/-!
Replacing a value. The value that takes the place of another moves to where it belongs among those
that are left, or is one of them already.
-/
namespace CollatedStore.Holding

/-- A holding in which the value at a place has given way to another, as the search for that among
the values left ended. -/
def exchange (h : Holding) (p : Place) (e : Entry) (old value : Bytes) : Spot → Place × Holding
  | .found k =>
    (⟨p.entry, k⟩, ⟨h.entries.set p.entry { e with values := e.values.eraseIdx p.value },
      h.used - old.length⟩)
  | .absent k =>
    (⟨p.entry, k⟩,
      ⟨h.entries.set p.entry { e with values := (e.values.eraseIdx p.value).insertIdx k value },
        h.used - old.length + value.length⟩)

variable {answer : Question → Ordering} {layout : Layout} {limit : Nat} {h : Holding} {p : Place}
  {e : Entry} {old value : Bytes} {spot : Spot}

/-- The room is asked for before the search: it has to do for both values, also where one of them
goes. -/
theorem eval_replaceAt (stood : h.entries[p.entry]? = some e) (was : e.values[p.value]? = some old)
    (single : layout.flags.dupSort = false → e.values.length = 1) (within : old.length ≤ h.used)
    (located : (Contents.findIn layout (e.values.eraseIdx p.value) value).eval answer =
      .ok spot) :
    (h.replaceAt layout limit p value).eval answer =
      if layout.flags.fixed = true ∧ old.length ≠ value.length then .error (.status .badValSize)
      else if limit < h.used - old.length + value.length then .error (.status .mapFull)
      else .ok (h.exchange p e old value spot) := by
  obtain ⟨there, -⟩ := List.getElem?_eq_some_iff.mp was
  obtain ⟨inside, -⟩ := List.getElem?_eq_some_iff.mp stood
  rw [replaceAt, Work.eval_bind, Work.eval_itemAt answer stood, ok_bind, Work.eval_bind,
    Work.eval_itemAt answer was, ok_bind]
  cases sorted : layout.flags.dupSort with
  | true =>
    have among : spot.Inside (e.values.eraseIdx p.value).length :=
      (@Contents.ensures_findIn True layout _ value).of_eval located
    rw [if_pos rfl, Work.eval_bind, eval_checkLength answer was]
    by_cases wrong : layout.flags.fixed = true ∧ old.length ≠ value.length
    · rw [if_pos wrong, if_pos wrong, error_bind]
    · rw [if_neg wrong, if_neg wrong, ok_bind, Work.eval_bind, eval_charge answer within]
      split
      · rfl
      · have erased : (Work.eraseAt e.values p.value).eval answer =
            .ok (e.values.eraseIdx p.value) := by
          rw [Work.eraseAt, if_pos there, Work.eval_pure]
        simp only [ok_bind, Work.eval_bind, erased, located]
        cases spot with
        | found k =>
          have enough : value.length ≤ h.used - old.length + value.length := Nat.le_add_left _ _
          simp only [Work.setAt, inside, if_true, Work.eval_bind, Work.eval_pure, ok_bind,
            Work.eval_minus answer enough, Nat.add_sub_cancel]
          rfl
        | absent k =>
          have fits : k ≤ (e.values.eraseIdx p.value).length := among
          simp only [Work.insertAt, fits, Work.setAt, inside, if_true, Work.eval_bind,
            Work.eval_pure, ok_bind]
          rfl
  | false =>
    -- The one value there is gives way, and none is left to search among.
    obtain ⟨only, values⟩ := List.length_eq_one_iff.mp (single sorted)
    have first : p.value = 0 := by simpa [values] using there
    have none_left : e.values.eraseIdx p.value = [] := by rw [values, first]; rfl
    rw [none_left] at located
    cases located
    have loose : ¬(layout.flags.fixed = true ∧ old.length ≠ value.length) := by
      simp [DbFlags.fixed, sorted]
    rw [if_neg (by simp), if_neg loose, Work.eval_bind, eval_charge answer within]
    split
    · rfl
    · simp only [exchange, values, first, Work.setAt, inside, if_true, Work.eval_bind,
        Work.eval_pure, ok_bind, List.length_singleton, Nat.zero_lt_one]
      rfl

end CollatedStore.Holding
