import CollatedStore.Proofs.Reference.OrderedMap

/-!
Plain databases do what ordered maps do.
-/
namespace CollatedStore.OrderedMap

variable {layout : Layout} {answer : Question → Ordering} [Std.TransCmp (layout.keys answer)]
  {rest limit : Nat} {rule : PutRule} {key value : Bytes}

/-- What a plain database of this layout stands for. -/
abbrev Of (layout : Layout) (answer : Question → Ordering) : Type := OrderedMap (layout.keys answer)

/-- The search cuts the items where it cuts the entries. -/
theorem find_cuts (m : Of layout answer) (key : Bytes) :
    ∃ spot, (Contents.find layout m.contents key).eval answer = .ok spot ∧
      Search.Cut (fun x : Bytes × Bytes => layout.keys answer x.1 key) m.items spot := by
  have ascending : Search.Ascending (layout.keys answer) Entry.key m.contents :=
    List.pairwise_map.mpr m.ascending
  obtain ⟨spot, located, cut⟩ := Contents.find_cuts ascending key
  exact ⟨spot, located, cut.of_map⟩

theorem get_matches (m : Of layout answer) (valid : validKey key = true) :
    (do m.contents.valueAt (← Cursor.seekKey layout m.contents key)).eval answer =
      (reference.get m key).elim (.error (.status .notFound)) .ok := by
  obtain ⟨spot, located, cut⟩ := find_cuts m key
  simp only [Cursor.seekKey, Cursor.checkKey, valid, if_true, Work.eval_bind, Work.eval_pure,
    ok_bind, located, reference]
  cases cut with
  | @found before after x whole less equal greater =>
    rw [find_found whole less equal, contents_found whole]
    simp [Contents.valueAt, Work.itemAt, entry]
  | absent whole less greater =>
    rw [find_absent whole less greater]
    rfl

/-- A key that is there gets another value. -/
theorem assign_matches (m : Of layout answer) {before after : List (Bytes × Bytes)}
    {x : Bytes × Bytes} (whole : m.items = before ++ x :: after)
    (less : ∀ y ∈ before, layout.keys answer y.1 key = .lt)
    (equal : layout.keys answer x.1 key = .eq)
    (greater : ∀ y ∈ after, layout.keys answer y.1 key = .gt)
    (room : rest + (m.assign key value).contents.size ≤ limit) :
    reference.Matches rest
      (((Holding.overwrite limit value ⟨m.contents, rest + m.contents.size⟩ before.length).eval
        answer).map (·.2))
      (.ok (m.assign key value)) := by
  have contents := contents_found whole
  have assigned := contents_found (assign_found whole less equal greater value)
  have sizes : x.2.length ≤ rest + m.contents.size ∧
      rest + m.contents.size - x.2.length + value.length =
        rest + (m.assign key value).contents.size := by
    simp [contents, assigned, entry, Entry.size]
    omega
  rw [← sizes.2] at room
  rw [contents] at sizes room
  rw [← List.length_map (f := entry), contents, Holding.eval_overwrite answer sizes.1 room rfl]
  exact .done assigned.symm sizes.2

/-- A key that is not there is added, unless it has to come last and does not. -/
theorem add_matches (m : Of layout answer) {before after : List (Bytes × Bytes)}
    (whole : m.items = before ++ after)
    (less : ∀ y ∈ before, layout.keys answer y.1 key = .lt)
    (greater : ∀ y ∈ after, layout.keys answer y.1 key = .gt)
    (room : ¬(rule.append && !m.isLast key) = true →
      rest + (m.add key value).contents.size ≤ limit) :
    reference.Matches rest
      (((Holding.putNew limit rule key value ⟨m.contents, rest + m.contents.size⟩
        before.length).eval answer).map (·.2))
      (if rule.append && !m.isLast key then .error ⟨.keyExist, none⟩
        else .ok (m.add key value)) := by
  have isLast := isLast_absent whole less greater
  have contents := contents_absent whole
  by_cases refused : rule.append = true ∧ after ≠ []
  · have more : after.map entry ≠ [] := by simpa using refused.2
    rw [← List.length_map (f := entry), contents, Holding.eval_putNew_refused answer refused.1 more,
      if_pos (by simp [refused, isLast])]
    exact .refused _
  · have goes : ¬(rule.append && !m.isLast key) = true := by simpa [isLast] using refused
    rw [if_neg goes]
    have added := contents_found (add_absent whole less greater value)
    have grown : (m.add key value).contents.size =
        m.contents.size + (key.length + value.length) := by
      simp [added, contents, entry, Entry.size]
      omega
    have enough := room goes
    have last : rule.append = true → after.map entry = [] := by simpa using refused
    have sizes : rest + m.contents.size + (key.length + value.length) =
        rest + (m.add key value).contents.size := by omega
    rw [← sizes] at enough
    rw [contents] at sizes enough
    rw [← List.length_map (f := entry), contents, Holding.eval_putNew answer enough last]
    exact .done added.symm sizes

theorem put_matches (m : Of layout answer) (plain : layout.flags.dupSort = false)
    (room : ∀ m', m.put rule key value = .ok m' → rest + m'.contents.size ≤ limit) :
    reference.Matches rest
      ((((reference.holding rest m).put layout limit rule key value).eval answer).map (·.2))
      (m.put rule key value) := by
  obtain ⟨spot, located, cut⟩ := find_cuts m key
  rw [reference_holding]
  unfold put at room ⊢
  cases cut with
  | @found before after x whole less equal greater =>
    rw [Holding.eval_put_found located]
    rw [find_found whole less equal] at room ⊢
    dsimp only at room ⊢
    by_cases noOverwrite : rule.noOverwrite = true
    · rw [if_pos noOverwrite, if_pos noOverwrite, Contents.eval_occupied answer (e := entry x)
        (v := x.2) (by simp [contents_found whole]) rfl]
      exact .existing _ _
    · rw [if_neg noOverwrite] at room
      rw [if_neg noOverwrite, if_neg noOverwrite]
      by_cases append : rule.append = true
      · rw [if_pos (by simp [append, plain]), if_pos append]
        exact .refused _
      · rw [if_neg append] at room
        rw [if_neg (by simp [append]), if_neg (by simp [plain]), if_neg append]
        exact assign_matches m whole less equal greater (room _ rfl)
  | absent whole less greater =>
    rw [Holding.eval_put_absent located]
    rw [find_absent whole less greater] at room ⊢
    exact add_matches m whole less greater fun goes => room _ (if_neg goes)

theorem remove_matches (m : Of layout answer) (plain : layout.flags.dupSort = false)
    (removed : Option Bytes) :
    reference.Matches rest (((reference.holding rest m).remove layout key removed).eval answer)
      ((m.remove key removed).elim (.error .notFound) .ok) := by
  obtain ⟨spot, located, cut⟩ := find_cuts m key
  rw [reference_holding]
  unfold remove
  cases cut with
  | absent whole less greater =>
    rw [find_absent whole less greater, Holding.eval_remove_absent located]
    exact .refused _
  | @found before after x whole less equal greater =>
    have contents := contents_found whole
    have erased := contents_absent (erase_found whole less equal greater)
    have within : (entry x).size ≤
        rest + Contents.size (before.map entry ++ entry x :: after.map entry) := by
      simp
      omega
    have gone : (Holding.removeAt ⟨(before.map entry).length, 0⟩ true
        ⟨before.map entry ++ entry x :: after.map entry, _⟩).eval answer = _ :=
      Holding.eval_removeAt_all answer true (.inl rfl) within
    rw [← contents, List.length_map] at gone
    rw [find_found whole less equal, Holding.eval_remove_key located (.inl plain) gone]
    exact .done erased.symm (by simp [erased, contents]; omega)

theorem reference_simulates (plain : layout.flags.dupSort = false) :
    (reference : Reference (Of layout answer)).Simulates layout answer where
  get m _ valid := get_matches m valid
  put m _ _ _ _ _ room := put_matches m plain room
  remove m _ _ value := remove_matches m plain value

end CollatedStore.OrderedMap
