import CollatedStore.Proofs.Reference.PairSet

/-!
Databases with sorted values do what sorted sets of pairs do.
-/
namespace CollatedStore.PairSet

variable {layout : Layout} {answer : Question → Ordering} [Std.TransCmp (layout.keys answer)]
  [Std.TransCmp (layout.values answer)] {rest limit : Nat} {rule : PutRule} {key value : Bytes}

/-- What a database of this layout stands for. -/
abbrev Of (layout : Layout) (answer : Question → Ordering) : Type :=
  PairSet (layout.keys answer) (layout.values answer)

theorem get_matches (m : Of layout answer) (valid : validKey key = true) :
    (do m.entries.valueAt (← Cursor.seekKey layout m.entries key)).eval answer =
      ((reference layout.flags.fixed).get m key).elim (.error (.status .notFound)) .ok := by
  obtain ⟨spot, located, cut⟩ := Contents.find_cuts m.ascending key
  simp only [Cursor.seekKey, Cursor.checkKey, valid, if_true, Work.eval_bind, Work.eval_pure,
    ok_bind, located, reference]
  cases cut with
  | @found before after e whole less equal greater =>
    obtain ⟨v, vs, values⟩ := List.exists_cons_of_ne_nil (m.inhabited e (by simp [whole]))
    rw [find_found whole less equal, whole]
    simp [Contents.valueAt, values, Work.itemAt]
  | absent whole less greater =>
    rw [find_absent whole less greater]
    rfl

/-- Adding to the values of a key that the search has found. -/
theorem putValue_matches (m : Of layout answer) {before after : Contents} {e : Entry}
    (whole : m.entries = before ++ e :: after)
    (less : ∀ d ∈ before, layout.keys answer d.key key = .lt)
    (equal : layout.keys answer e.key key = .eq)
    (greater : ∀ d ∈ after, layout.keys answer d.key key = .gt)
    (room : ∀ m', m.putValue layout.flags.fixed rule key value e = .ok m' →
      rest + m'.entries.size ≤ limit) :
    (reference layout.flags.fixed).Matches rest
      (((Holding.putValue layout limit rule value ⟨before ++ e :: after, rest + m.entries.size⟩
        before.length).eval answer).map (·.2))
      (m.putValue layout.flags.fixed rule key value e) := by
  have here : e ∈ m.entries := by simp [whole]
  obtain ⟨v, vs, values⟩ := List.exists_cons_of_ne_nil (m.inhabited e here)
  unfold putValue at room ⊢
  by_cases wrong : layout.flags.fixed = true ∧ v.length ≠ value.length
  · rw [Holding.eval_putValue_wrong answer values wrong, if_pos (by simpa [values] using wrong)]
    exact .refused _
  · have fits : ¬(layout.flags.fixed &&
        e.values.head?.map List.length != some value.length) = true := by
      simpa [values] using wrong
    rw [if_neg fits] at room ⊢
    obtain ⟨spot, located, cut⟩ := Contents.findIn_cuts (m.sorted e here) value
    cases cut with
    | @found smaller larger w among below same above =>
      have stored : e.values[smaller.length]? = some w := by simp [among]
      rw [Holding.eval_putValue_found answer values wrong located stored, among,
        Sorted.pick_found below same]
      dsimp only
      split
      · exact .existing _ w
      · exact .done whole.symm rfl
    | @absent smaller larger among below above =>
      have picked : Sorted.pick (fun v => layout.values answer v value) e.values = none := by
        rw [among, Sorted.pick_absent below above]
      have atEnd : Sorted.atEnd (fun v => layout.values answer v value) e.values =
          larger.isEmpty := by
        rw [among, Sorted.atEnd_absent below above]
      rw [picked] at room ⊢
      dsimp only at room ⊢
      rw [atEnd] at room ⊢
      by_cases refused : rule.appendDup = true ∧ larger ≠ []
      · have last := List.getLast?_eq_some_getLast (m.inhabited e here)
        have notLast : smaller.length ≠ e.values.length := by
          have := List.length_pos_iff.mpr refused.2
          rw [among, List.length_append]
          omega
        rw [Holding.eval_putValue_refused answer values wrong located refused.1 notLast last, last,
          if_pos (by simp [refused])]
        exact .existing _ _
      · rw [if_neg (by simpa using refused)] at room ⊢
        have added := addValue_found whole less equal greater among below above
        have grown : (m.addValue key value).entries.size = m.entries.size + value.length := by
          simp [added, whole, Entry.size, among]
          omega
        have enough := room _ rfl
        rw [Holding.eval_putValue_added answer values wrong among located (by simpa using refused)
          (by omega)]
        exact .done added.symm (by rw [reference_contents]; omega)

/-- A key that is not there is added, unless it has to come last and does not. -/
theorem addKey_matches (m : Of layout answer) {before after : Contents}
    (whole : m.entries = before ++ after)
    (less : ∀ d ∈ before, layout.keys answer d.key key = .lt)
    (greater : ∀ d ∈ after, layout.keys answer d.key key = .gt)
    (room : ¬(rule.append && !m.isLast key) = true →
      rest + (m.addKey key value).entries.size ≤ limit) :
    (reference layout.flags.fixed).Matches rest
      (((Holding.putNew limit rule key value ⟨m.entries, rest + m.entries.size⟩
        before.length).eval answer).map (·.2))
      (if rule.append && !m.isLast key then .error ⟨.keyExist, none⟩
        else .ok (m.addKey key value)) := by
  have isLast := isLast_absent whole less greater
  by_cases refused : rule.append = true ∧ after ≠ []
  · rw [whole, Holding.eval_putNew_refused answer refused.1 refused.2,
      if_pos (by simp [refused, isLast])]
    exact .refused _
  · have goes : ¬(rule.append && !m.isLast key) = true := by simpa [isLast] using refused
    rw [if_neg goes]
    have added := addKey_absent whole less greater value
    have grown : (m.addKey key value).entries.size =
        m.entries.size + (key.length + value.length) := by
      simp [added, whole, Entry.size]
      omega
    have enough := room goes
    rw [whole, Holding.eval_putNew answer (by rw [← whole]; omega) (by simpa using refused)]
    exact .done added.symm (by rw [reference_contents, ← whole]; omega)

theorem put_matches (m : Of layout answer) (dupSort : layout.flags.dupSort = true)
    (room : ∀ m', m.put layout.flags.fixed rule key value = .ok m' →
      rest + m'.entries.size ≤ limit) :
    (reference layout.flags.fixed).Matches rest
      (((((reference layout.flags.fixed).holding rest m).put layout limit rule key value).eval
        answer).map (·.2))
      (m.put layout.flags.fixed rule key value) := by
  obtain ⟨spot, located, cut⟩ := Contents.find_cuts m.ascending key
  rw [reference_holding]
  unfold put at room ⊢
  cases cut with
  | @found before after e whole less equal greater =>
    obtain ⟨v, vs, values⟩ := List.exists_cons_of_ne_nil (m.inhabited e (by simp [whole]))
    have isLast := isLast_found whole less equal greater
    rw [Holding.eval_put_found located]
    rw [find_found whole less equal] at room ⊢
    dsimp only at room ⊢
    by_cases noOverwrite : rule.noOverwrite = true
    · rw [if_pos noOverwrite, if_pos noOverwrite,
        Contents.eval_occupied answer (e := e) (v := v) (by simp [whole]) (by simp [values]),
        values]
      exact .existing _ v
    · rw [if_neg noOverwrite] at room
      rw [if_neg noOverwrite, if_neg noOverwrite]
      by_cases refused : rule.append = true ∧ after ≠ []
      · rw [if_pos (by simp [refused, dupSort, whole]), if_pos (by simp [refused, isLast])]
        exact .refused _
      · have goes : ¬(rule.append && !m.isLast key) = true := by simpa [isLast] using refused
        have goes' : ¬(rule.append && (!layout.flags.dupSort ||
            before.length + 1 != m.entries.length)) = true := by
          simpa [dupSort, whole] using refused
        rw [if_neg goes] at room
        rw [if_neg goes', if_neg goes, if_pos dupSort]
        have matched := putValue_matches m whole less equal greater room
        rwa [← whole] at matched
  | @absent before after whole less greater =>
    rw [Holding.eval_put_absent located]
    rw [find_absent whole less greater] at room ⊢
    exact addKey_matches m whole less greater fun goes => room _ (if_neg goes)

/-- A pair goes, and its key with it if it was the last. -/
theorem dropPair_matches (m : Of layout answer) {before after : Contents} {e : Entry}
    (whole : m.entries = before ++ e :: after)
    (less : ∀ d ∈ before, layout.keys answer d.key key = .lt)
    (equal : layout.keys answer e.key key = .eq)
    (greater : ∀ d ∈ after, layout.keys answer d.key key = .gt) {smaller larger : List Bytes}
    {v : Bytes} (among : e.values = smaller ++ v :: larger)
    (below : ∀ w ∈ smaller, layout.values answer w value = .lt)
    (same : layout.values answer v value = .eq)
    (above : ∀ w ∈ larger, layout.values answer w value = .gt) :
    (reference layout.flags.fixed).Matches rest
      (((Holding.removeAt ⟨before.length, smaller.length⟩ false
        ⟨m.entries, rest + m.entries.size⟩).eval answer).map (·.2))
      (.ok (m.dropPair key value)) := by
  have dropped := dropPair_found whole less equal greater among below same above
  have within : e.size ≤ rest + m.entries.size := by simp [whole]; omega
  by_cases others : smaller ++ larger = []
  · have alone : e.values.length = 1 := by
      have := congrArg List.length others
      simp only [List.length_append, List.length_nil] at this
      simp only [among, List.length_append, List.length_cons]
      omega
    rw [if_pos others] at dropped
    rw [whole] at within ⊢
    rw [Holding.eval_removeAt_all answer false (.inr alone) within, map_ok]
    exact .done dropped.symm (by simp [dropped]; omega)
  · rw [if_neg others] at dropped
    have size : e.size = (⟨e.key, smaller ++ larger⟩ : Entry).size + v.length := by
      simp [Entry.size, among]
      omega
    have small : v.length ≤ rest + m.entries.size := by omega
    rw [whole] at small ⊢
    obtain ⟨p, gone⟩ := Holding.eval_removeAt_one answer among others small
    rw [gone, map_ok]
    exact .done dropped.symm (by simp [dropped, size]; omega)

theorem remove_matches (m : Of layout answer) (dupSort : layout.flags.dupSort = true)
    (removed : Option Bytes) :
    (reference layout.flags.fixed).Matches rest
      ((((reference layout.flags.fixed).holding rest m).remove layout key removed).eval answer)
      ((m.remove key removed).elim (.error .notFound) .ok) := by
  obtain ⟨spot, located, cut⟩ := Contents.find_cuts m.ascending key
  rw [reference_holding]
  unfold remove
  cases cut with
  | @absent before after whole less greater =>
    rw [find_absent whole less greater, Holding.eval_remove_absent located]
    exact .refused _
  | @found before after e whole less equal greater =>
    have here : m.entries[before.length]? = some e := by simp [whole]
    have within : e.size ≤ rest + m.entries.size := by simp [whole]; omega
    rw [find_found whole less equal]
    cases removed with
    | none =>
      have dropped := dropKey_found whole less equal greater
      rw [whole] at within
      have gone : (Holding.removeAt ⟨before.length, 0⟩ true ⟨before ++ e :: after, _⟩).eval
          answer = _ := Holding.eval_removeAt_all answer true (.inl rfl) within
      rw [← whole] at gone within
      rw [Holding.eval_remove_key located (.inr rfl) gone]
      exact .done dropped.symm (by simp [dropped, whole]; omega)
    | some value =>
      obtain ⟨spot, placed, cut⟩ :=
        Contents.findIn_cuts (m.sorted e (List.mem_of_getElem? here)) value
      rw [Holding.eval_remove_value located dupSort here, placed, ok_bind]
      cases cut with
      | @absent smaller larger among below above =>
        dsimp only
        rw [among, Sorted.pick_absent below above]
        exact .refused _
      | @found smaller larger w among below same above =>
        dsimp only
        rw [among, Sorted.pick_found below same]
        exact dropPair_matches m whole less equal greater among below same above

theorem reference_simulates (dupSort : layout.flags.dupSort = true) :
    (reference layout.flags.fixed : Reference (Of layout answer)).Simulates layout answer where
  get m _ valid := get_matches m valid
  put m _ _ _ _ _ room := put_matches m dupSort room
  remove m _ _ value := remove_matches m dupSort value

end CollatedStore.PairSet
