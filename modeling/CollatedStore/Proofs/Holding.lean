import CollatedStore.Proofs.Search

/-!
What writes come to once the search has cut the entries, and how the bytes in use follow.
-/
namespace CollatedStore

/-- The items of a key, one for each value. -/
def Entry.items (e : Entry) : List (Bytes × Bytes) := e.values.map fun v => (e.key, v)

namespace Contents

def items (entries : Contents) : List (Bytes × Bytes) := entries.flatMap Entry.items

/-- The bytes of all keys and values. -/
def size : Contents → Nat
  | [] => 0
  | e :: after => e.size + size after

@[simp] theorem size_nil : size [] = 0 := rfl

@[simp] theorem size_cons (e : Entry) (after : Contents) :
    size (e :: after) = e.size + size after := rfl

@[simp] theorem size_append (before after : Contents) :
    size (before ++ after) = size before + size after := by
  induction before with
  | nil => simp
  | cons e before ih => simp [ih, Nat.add_assoc]

variable {layout : Layout} {answer : Question → Ordering}

theorem find_cuts [Std.TransCmp (layout.keys answer)] {entries : Contents}
    (ascending : Search.Ascending (layout.keys answer) Entry.key entries) (key : Bytes) :
    ∃ spot, (find layout entries key).eval answer = .ok spot ∧
      Search.Cut (fun e => layout.keys answer e.key key) entries spot :=
  Search.locate_cuts (ascending.parted key) answer fun e =>
    Work.eval_compare answer layout.keyOrder e.key key

theorem findIn_cuts [Std.TransCmp (layout.values answer)] {values : List Bytes}
    (ascending : Search.Ascending (layout.values answer) id values) (value : Bytes) :
    ∃ spot, (findIn layout values value).eval answer = .ok spot ∧
      Search.Cut (fun v => layout.values answer v value) values spot :=
  Search.locate_cuts (ascending.parted value) answer fun v =>
    Work.eval_compare answer layout.valueOrder v value

theorem find_ends (answer : Question → Ordering) (layout : Layout) (entries : Contents)
    (key : Bytes) : ∃ spot, (find layout entries key).eval answer = .ok spot :=
  Search.locate_ends fun e => ⟨_, Work.eval_compare answer layout.keyOrder e.key key⟩

theorem findIn_ends (answer : Question → Ordering) (layout : Layout) (values : List Bytes)
    (value : Bytes) : ∃ spot, (findIn layout values value).eval answer = .ok spot :=
  Search.locate_ends fun v => ⟨_, Work.eval_compare answer layout.valueOrder v value⟩

theorem eval_valueAt (answer : Question → Ordering) {entries : Contents} {p : Place} {e : Entry}
    {v : Bytes} (he : entries[p.entry]? = some e) (hv : e.values[p.value]? = some v) :
    (valueAt entries p).eval answer = .ok v := by
  rw [valueAt, Work.eval_bind, Work.eval_itemAt answer he, ok_bind, Work.eval_itemAt answer hv]

theorem lastValue_eq {entries : Contents} {i : Nat} {e : Entry} (stood : entries[i]? = some e)
    (inhabited : 0 < e.values.length) : entries.lastValue i = pure (e.values.length - 1) := by
  have first : 1 ≤ e.values.length := inhabited
  rw [lastValue, Work.itemAt_eq stood, pure_bind, Work.minus, if_pos first]

theorem eval_occupied (answer : Question → Ordering) {α : Type} {entries : Contents} {p : Place}
    {e : Entry} {v : Bytes} (he : entries[p.entry]? = some e) (hv : e.values[p.value]? = some v) :
    (occupied entries p : Work α).eval answer = .error (.existing p v) := by
  rw [occupied, Work.eval_bind, eval_valueAt answer he hv, ok_bind, Work.eval_throw]

end Contents

namespace Holding

variable (answer : Question → Ordering) {limit used : Nat} {before after : Contents} {e : Entry}
  {value : Bytes}

theorem eval_charge {add sub : Nat} (within : sub ≤ used) :
    (charge limit used add sub).eval answer =
      if limit < used - sub + add then .error (.status .mapFull) else .ok (used - sub + add) := by
  rw [charge, Work.eval_bind, Work.eval_minus answer within, ok_bind]
  dsimp only
  split <;> rfl

theorem eval_putNew_charged {rule : PutRule} {key : Bytes}
    (last : rule.append = true → after = []) :
    (putNew limit rule key value ⟨before ++ after, used⟩ before.length).eval answer =
      if limit < used + (key.length + value.length) then .error (.status .mapFull)
      else .ok (⟨before.length, 0⟩,
        ⟨before ++ ⟨key, [value]⟩ :: after, used + (key.length + value.length)⟩) := by
  have goes : ¬(rule.append && before.length != (before ++ after).length) = true := by
    cases h : rule.append with
    | false => simp
    | true => simp [last h]
  rw [putNew, if_neg goes, Work.eval_bind, eval_charge answer (Nat.zero_le used),
    Nat.sub_zero]
  split
  · rfl
  · simp

theorem eval_putNew {rule : PutRule} {key : Bytes}
    (room : used + (key.length + value.length) ≤ limit)
    (last : rule.append = true → after = []) :
    (putNew limit rule key value ⟨before ++ after, used⟩ before.length).eval answer =
      .ok (⟨before.length, 0⟩,
        ⟨before ++ ⟨key, [value]⟩ :: after, used + (key.length + value.length)⟩) := by
  rw [eval_putNew_charged answer last, if_neg (Nat.not_lt.mpr room)]

theorem eval_putNew_refused {rule : PutRule} {key : Bytes} (append : rule.append = true)
    (more : after ≠ []) :
    (putNew limit rule key value ⟨before ++ after, used⟩ before.length).eval answer =
      .error (.status .keyExist) := by
  rw [putNew, if_pos (by simp [append, more])]
  rfl

theorem eval_overwrite_charged {old : Bytes} (within : old.length ≤ used)
    (values : e.values = [old]) :
    (overwrite limit value ⟨before ++ e :: after, used⟩ before.length).eval answer =
      if limit < used - old.length + value.length then .error (.status .mapFull)
      else .ok (⟨before.length, 0⟩,
        ⟨before ++ { e with values := [value] } :: after, used - old.length + value.length⟩) := by
  rw [overwrite, Work.eval_bind, Work.eval_itemAt_cut, ok_bind, Work.eval_bind, values,
    Work.eval_itemAt answer rfl, ok_bind, Work.eval_bind, eval_charge answer within]
  split
  · rfl
  · simp [Work.setAt]

theorem eval_overwrite {old : Bytes} (within : old.length ≤ used)
    (room : used - old.length + value.length ≤ limit) (values : e.values = [old]) :
    (overwrite limit value ⟨before ++ e :: after, used⟩ before.length).eval answer =
      .ok (⟨before.length, 0⟩,
        ⟨before ++ { e with values := [value] } :: after, used - old.length + value.length⟩) := by
  rw [eval_overwrite_charged answer within values, if_neg (Nat.not_lt.mpr room)]

section
variable {layout : Layout} {rule : PutRule} {like : Bytes} {others : List Bytes}

theorem eval_checkLength {values : List Bytes} {i : Nat} (was : values[i]? = some like) :
    (checkLength layout values i value).eval answer =
      if layout.flags.fixed = true ∧ like.length ≠ value.length then .error (.status .badValSize)
      else .ok () := by
  unfold checkLength
  cases layout.flags.fixed with
  | false => simp
  | true =>
    rw [if_pos rfl, Work.eval_bind, Work.eval_itemAt answer was, ok_bind]
    by_cases same : like.length = value.length <;> simp [same]

theorem eval_putValue_wrong (values : e.values = like :: others)
    (wrong : layout.flags.fixed = true ∧ like.length ≠ value.length) :
    (putValue layout limit rule value ⟨before ++ e :: after, used⟩ before.length).eval answer =
      .error (.status .badValSize) := by
  rw [putValue, Work.eval_bind, Work.eval_itemAt_cut, ok_bind, Work.eval_bind, values,
    eval_checkLength answer rfl, if_pos wrong]
  rfl

/-- An equal value is there. -/
theorem eval_putValue_found (values : e.values = like :: others)
    (fits : ¬(layout.flags.fixed = true ∧ like.length ≠ value.length)) {j : Nat} {v : Bytes}
    (located : (Contents.findIn layout e.values value).eval answer = .ok (.found j))
    (stored : e.values[j]? = some v) :
    (putValue layout limit rule value ⟨before ++ e :: after, used⟩ before.length).eval answer =
      if rule.noDupData then .error (.existing ⟨before.length, j⟩ v)
      else .ok (⟨before.length, j⟩, ⟨before ++ e :: after, used⟩) := by
  rw [putValue, Work.eval_bind, Work.eval_itemAt_cut, ok_bind, Work.eval_bind, values,
    eval_checkLength answer rfl, if_neg fits, ok_bind, ← values, Work.eval_bind, located, ok_bind]
  dsimp only
  split
  · exact Contents.eval_occupied answer (by simp) stored
  · rfl

/-- A value that has to come last does not. -/
theorem eval_putValue_refused (values : e.values = like :: others)
    (fits : ¬(layout.flags.fixed = true ∧ like.length ≠ value.length)) {j : Nat}
    (located : (Contents.findIn layout e.values value).eval answer = .ok (.absent j))
    (appendDup : rule.appendDup = true) (notLast : j ≠ e.values.length) {v : Bytes}
    (last : e.values.getLast? = some v) :
    (putValue layout limit rule value ⟨before ++ e :: after, used⟩ before.length).eval answer =
      .error (.existing ⟨before.length, e.values.length - 1⟩ v) := by
  have some_value : 1 ≤ e.values.length := by simp [values]
  have turned : (rule.appendDup && j != e.values.length) = true := by simp [appendDup, notLast]
  rw [putValue, Work.eval_bind, Work.eval_itemAt_cut, ok_bind, Work.eval_bind, values,
    eval_checkLength answer rfl, if_neg fits, ok_bind, ← values, Work.eval_bind, located, ok_bind]
  dsimp only
  rw [if_pos turned, Work.eval_bind, Work.eval_minus answer some_value, ok_bind]
  exact Contents.eval_occupied answer (e := e) (by simp) (by rw [← last, List.getLast?_eq_getElem?])

theorem eval_putValue_charged (values : e.values = like :: others)
    (fits : ¬(layout.flags.fixed = true ∧ like.length ≠ value.length)) {smaller larger : List Bytes}
    (among : e.values = smaller ++ larger)
    (located : (Contents.findIn layout e.values value).eval answer = .ok (.absent smaller.length))
    (last : rule.appendDup = true → larger = []) :
    (putValue layout limit rule value ⟨before ++ e :: after, used⟩ before.length).eval answer =
      if limit < used + value.length then .error (.status .mapFull)
      else .ok (⟨before.length, smaller.length⟩,
        ⟨before ++ { e with values := smaller ++ value :: larger } :: after,
          used + value.length⟩) := by
  have goes : ¬(rule.appendDup && smaller.length != e.values.length) = true := by
    cases h : rule.appendDup with
    | false => simp
    | true => simp [among, last h]
  rw [putValue, Work.eval_bind, Work.eval_itemAt_cut, ok_bind, Work.eval_bind, values,
    eval_checkLength answer rfl, if_neg fits, ok_bind, ← values, Work.eval_bind, located, ok_bind]
  dsimp only
  rw [if_neg goes, Work.eval_bind, eval_charge answer (Nat.zero_le used), Nat.sub_zero]
  split
  · rfl
  · simp [among]

theorem eval_putValue_added (values : e.values = like :: others)
    (fits : ¬(layout.flags.fixed = true ∧ like.length ≠ value.length)) {smaller larger : List Bytes}
    (among : e.values = smaller ++ larger)
    (located : (Contents.findIn layout e.values value).eval answer = .ok (.absent smaller.length))
    (last : rule.appendDup = true → larger = []) (room : used + value.length ≤ limit) :
    (putValue layout limit rule value ⟨before ++ e :: after, used⟩ before.length).eval answer =
      .ok (⟨before.length, smaller.length⟩,
        ⟨before ++ { e with values := smaller ++ value :: larger } :: after,
          used + value.length⟩) := by
  rw [eval_putValue_charged answer values fits among located last,
    if_neg (Nat.not_lt.mpr room)]

end

section
variable {answer} {layout : Layout} {entries : Contents} {key : Bytes} {rule : PutRule} {i : Nat}

theorem eval_put_absent
    (located : (Contents.find layout entries key).eval answer = .ok (.absent i)) :
    ((⟨entries, used⟩ : Holding).put layout limit rule key value).eval answer =
      (putNew limit rule key value ⟨entries, used⟩ i).eval answer := by
  rw [put, Work.eval_bind, located, ok_bind]

theorem eval_put_found (located : (Contents.find layout entries key).eval answer = .ok (.found i)) :
    ((⟨entries, used⟩ : Holding).put layout limit rule key value).eval answer =
      (if rule.noOverwrite then entries.occupied ⟨i, 0⟩
        else if rule.append && (!layout.flags.dupSort || i + 1 != entries.length) then
          Work.refuse .keyExist
        else if layout.flags.dupSort then putValue layout limit rule value ⟨entries, used⟩ i
        else overwrite limit value ⟨entries, used⟩ i).eval answer := by
  rw [put, Work.eval_bind, located, ok_bind]

theorem eval_remove_absent {removed : Option Bytes}
    (located : (Contents.find layout entries key).eval answer = .ok (.absent i)) :
    ((⟨entries, used⟩ : Holding).remove layout key removed).eval answer =
      .error (.status .notFound) := by
  rw [remove, Work.eval_bind, located, ok_bind]
  rfl

/-- Without a value, or where values are not sorted, the whole key goes. -/
theorem eval_remove_whole {removed : Option Bytes}
    (located : (Contents.find layout entries key).eval answer = .ok (.found i))
    (whole : layout.flags.dupSort = false ∨ removed = none) :
    ((⟨entries, used⟩ : Holding).remove layout key removed).eval answer =
      ((removeAt ⟨i, 0⟩ true ⟨entries, used⟩).eval answer).map (·.2) := by
  rw [remove, Work.eval_bind, located, ok_bind]
  obtain plain | rfl := whole
  · simp only [plain, Work.eval_bind]
    cases (removeAt ⟨i, 0⟩ true ⟨entries, used⟩).eval answer <;> rfl
  · cases layout.flags.dupSort <;> simp only [Work.eval_bind] <;>
      cases (removeAt ⟨i, 0⟩ true ⟨entries, used⟩).eval answer <;> rfl

theorem eval_remove_key {removed : Option Bytes} {p : Place} {h : Holding}
    (located : (Contents.find layout entries key).eval answer = .ok (.found i))
    (whole : layout.flags.dupSort = false ∨ removed = none)
    (gone : (removeAt ⟨i, 0⟩ true ⟨entries, used⟩).eval answer = .ok (p, h)) :
    ((⟨entries, used⟩ : Holding).remove layout key removed).eval answer = .ok h := by
  rw [eval_remove_whole located whole, gone]
  rfl

theorem eval_remove_value {e : Entry}
    (located : (Contents.find layout entries key).eval answer = .ok (.found i))
    (dupSort : layout.flags.dupSort = true) (here : entries[i]? = some e) :
    ((⟨entries, used⟩ : Holding).remove layout key (some value)).eval answer =
      ((Contents.findIn layout e.values value).eval answer >>= fun spot => match spot with
        | .absent _ => .error (.status .notFound)
        | .found j => ((removeAt ⟨i, j⟩ false ⟨entries, used⟩).eval answer).map (·.2)) := by
  rw [remove, Work.eval_bind, located, ok_bind]
  simp only [dupSort, Work.eval_bind, Work.eval_itemAt answer here, ok_bind]
  cases (Contents.findIn layout e.values value).eval answer with
  | error stop => rfl
  | ok spot =>
    cases spot with
    | absent j => rfl
    | found j =>
      simp only [ok_bind, Work.eval_bind]
      cases (removeAt ⟨i, j⟩ false ⟨entries, used⟩).eval answer <;> rfl

end

theorem eval_removeAt_all {j : Nat} (all : Bool) (gone : all = true ∨ e.values.length = 1)
    (within : e.size ≤ used) :
    (removeAt ⟨before.length, j⟩ all ⟨before ++ e :: after, used⟩).eval answer =
      .ok (⟨before.length, 0⟩, ⟨before ++ after, used - e.size⟩) := by
  have whole : (all || e.values.length == 1) = true := by simpa using gone
  rw [removeAt, Work.eval_bind, Work.eval_itemAt_cut, ok_bind, if_pos whole]
  simp [Work.eval_minus answer within]

theorem eval_removeAt_one {smaller larger : List Bytes}
    (values : e.values = smaller ++ value :: larger)
    (others : smaller ++ larger ≠ []) (within : value.length ≤ used) :
    ∃ p, (removeAt ⟨before.length, smaller.length⟩ false ⟨before ++ e :: after, used⟩).eval answer =
      .ok (p, ⟨before ++ { e with values := smaller ++ larger } :: after,
        used - value.length⟩) := by
  have more : ¬(false || e.values.length == 1) = true := by
    have := List.length_pos_iff.mpr others
    simp only [List.length_append] at this
    simp only [values, List.length_append, List.length_cons, Bool.false_or, beq_iff_eq]
    omega
  rw [removeAt, Work.eval_bind, Work.eval_itemAt_cut, ok_bind, if_neg more, values]
  simp [Work.eval_minus answer within]

end Holding

end CollatedStore
