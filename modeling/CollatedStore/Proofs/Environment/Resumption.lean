import CollatedStore.Proofs.Environment.Checks
import CollatedStore.Proofs.Environment.Deletion
import CollatedStore.Proofs.Environment.Finding
import CollatedStore.Proofs.InOrder

/-!
How a cursor goes on after a deletion through it. The step forward and the step to the next key heed
the mark that the deletion left; the moves by value go on from the item that has taken its place.
-/
namespace CollatedStore

namespace Contents

/-- The place of the item that stands behind that at `p`. -/
def successor (entries : Contents) (p : Place) : Place :=
  if entries.holds ⟨p.entry, p.value + 1⟩ then ⟨p.entry, p.value + 1⟩ else ⟨p.entry + 1, 0⟩

/-- The first item of the smallest key that is greater than this one, if a key is greater. -/
inductive FirstAfter (order : Order) (entries : Contents) (key : Bytes) :
    Option (Bytes × Bytes) → Prop
  | first {d : Entry} {v : Bytes} (stored : d ∈ entries) (head : d.values.head? = some v)
      (greater : order key d.key = .lt)
      (least : ∀ d' ∈ entries, order key d'.key = .lt → order d'.key d.key ≠ .lt) :
      FirstAfter order entries key (some (d.key, v))
  | none (last : ∀ d ∈ entries, order key d.key ≠ .lt) : FirstAfter order entries key none

/-- Where the cursor stands after a deletion at `p` in entry `e`: at the key that followed, or among
the values of the same key that are left. -/
inductive Resumes (entries entries' : Contents) (p : Place) (e : Entry) (all : Bool) :
    Place → Prop
  | next {i : Nat} (done : all = true ∨ e.values.length ≤ p.value + 1)
      (tail : ∀ k, entries'[i + k]? = entries[p.entry + 1 + k]?) :
      Resumes entries entries' p e all ⟨i, 0⟩
  | among (one : all = false) (more : p.value + 1 < e.values.length)
      (here : entries'[p.entry]? = some { e with values := e.values.eraseIdx p.value })
      (tail : ∀ k, entries'[p.entry + 1 + k]? = entries[p.entry + 1 + k]?) :
      Resumes entries entries' p e all p

section
variable {entries entries' : Contents} {p p' : Place} {e : Entry} {all : Bool}

theorem successor_among (stood : entries[p.entry]? = some e) (more : p.value + 1 < e.values.length) :
    entries.successor p = ⟨p.entry, p.value + 1⟩ := by
  have holds : entries.holds ⟨p.entry, p.value + 1⟩ = true := holds_iff.mpr ⟨e, stood, more⟩
  exact if_pos holds

theorem successor_next (stood : entries[p.entry]? = some e) (last : e.values.length ≤ p.value + 1) :
    entries.successor p = ⟨p.entry + 1, 0⟩ := by
  refine if_neg fun holds => ?_
  obtain ⟨e', stood', more⟩ := holds_iff.mp holds
  cases stood.symm.trans stood'
  exact absurd more (Nat.not_lt.mpr last)

theorem item?_congr {i i' : Nat} (same : entries'[i']? = entries[i]?) (j : Nat) :
    entries'.item? ⟨i', j⟩ = entries.item? ⟨i, j⟩ := by
  simp only [item?, same]

theorem page?_congr {i i' : Nat} (same : entries'[i']? = entries[i]?) (j : Nat) :
    entries'.page? ⟨i', j⟩ = entries.page? ⟨i, j⟩ := by
  simp only [page?, same]

/-- The value behind the place reached stood behind the successor of the deleted one. -/
theorem Resumes.valueAfter (resumes : Resumes entries entries' p e false p')
    (stood : entries[p.entry]? = some e) :
    entries'.valueAfter p' = entries.valueAfter (entries.successor p) := by
  cases resumes with
  | next done tail =>
    have last : e.values.length ≤ p.value + 1 := by simpa using done
    rw [successor_next stood last]
    exact item?_congr (tail 0) 1
  | among _ more here _ =>
    rw [successor_among stood more]
    unfold Contents.valueAfter
    rw [item?_eq here, item?_eq stood, List.getElem?_eraseIdx_of_ge (Nat.le_succ p.value)]

theorem Resumes.pageAfter (resumes : Resumes entries entries' p e false p')
    (stood : entries[p.entry]? = some e) :
    entries'.pageAfter p' = entries.pageAfter (entries.successor p) := by
  cases resumes with
  | next done tail =>
    have last : e.values.length ≤ p.value + 1 := by simpa using done
    rw [successor_next stood last]
    exact congrArg₂ Option.or (page?_congr (tail 0) 1) (page?_congr (tail 1) 0)
  | among _ more here tail =>
    have shorter : (e.values.eraseIdx p.value).length = e.values.length - 1 :=
      List.length_eraseIdx_of_lt (by omega)
    -- Without the deleted value, what stands behind its place stood one further on.
    have rest : (e.values.eraseIdx p.value).drop (p.value + 1) = e.values.drop (p.value + 2) := by
      refine List.ext_getElem? fun k => ?_
      rw [List.getElem?_drop, List.getElem?_drop, List.getElem?_eraseIdx_of_ge (by omega)]
      congr 1
      omega
    rw [successor_among stood more]
    unfold Contents.pageAfter
    rw [page?_eq here, page?_eq stood, page?_congr (tail 0), rest, shorter]
    simp only [Nat.lt_sub_iff_add_lt]

theorem firstAfter_keyAfter {order : Order} [Std.TransCmp order]
    (ascending : Search.Ascending order Entry.key entries)
    (inhabited : ∀ e ∈ entries, e.values ≠ []) (stood : entries[p.entry]? = some e) :
    FirstAfter order entries e.key (entries.keyAfter p) := by
  obtain ⟨before, after, rfl, here⟩ := exists_cut stood
  unfold keyAfter
  rw [← here]
  obtain ⟨_, tail, below⟩ := List.pairwise_append.mp ascending
  obtain ⟨above, increasing⟩ := List.pairwise_cons.mp tail
  have self : ∀ k, order k k = .eq := fun _ => Std.ReflCmp.compare_self
  have upTo : ∀ d ∈ before ++ [e], order e.key d.key ≠ .lt := by
    intro d hd less
    obtain hd | hd := List.mem_append.mp hd
    · rw [Std.OrientedCmp.gt_of_lt (below d hd e List.mem_cons_self)] at less
      cases less
    · rw [List.mem_singleton.mp hd, self e.key] at less
      cases less
  cases after with
  | nil =>
    rw [item?_none (by simp)]
    exact .none upTo
  | cons d rest =>
    obtain ⟨v, vs, values⟩ := List.exists_cons_of_ne_nil (inhabited d (by simp))
    have next : (before ++ e :: d :: rest)[before.length + 1]? = some d := by simp
    rw [item?_eq next, values]
    refine .first (by simp) (by rw [values]; rfl) (above d List.mem_cons_self) ?_
    intro d' hd' greater less
    have later : d' ∈ d :: rest := by
      have apart : before ++ e :: d :: rest = (before ++ [e]) ++ (d :: rest) := by simp
      rw [apart] at hd'
      exact (List.mem_append.mp hd').resolve_left fun earlier => upTo d' earlier greater
    obtain rfl | beyond := List.mem_cons.mp later
    · rw [self d'.key] at less
      cases less
    · have more := (List.pairwise_cons.mp increasing).1 d' beyond
      rw [Std.OrientedCmp.gt_of_lt more] at less
      cases less

end

end Contents

open Contents (Resumes FirstAfter)

theorem Holding.Removal.resumes {h h' : Holding} {p p' : Place} {e : Entry} {v : Bytes} {all : Bool}
    (removal : Holding.Removal h p e v all p' h') (stood : h.entries[p.entry]? = some e)
    (was : e.values[p.value]? = some v) : Resumes h.entries h'.entries p e all p' := by
  obtain ⟨inside, -⟩ := List.getElem?_eq_some_iff.mp stood
  obtain ⟨among, -⟩ := List.getElem?_eq_some_iff.mp was
  cases removal with
  | key whole =>
    refine .next (whole.imp_right fun single => by omega) fun k => ?_
    rw [List.getElem?_eraseIdx_of_ge (Nat.le_add_right _ _), Nat.add_right_comm]
  | last others last =>
    refine .next (.inr (by omega)) fun k => ?_
    exact List.getElem?_set_ne (by omega)
  | inner more =>
    refine .among rfl more (List.getElem?_set_self inside) fun k => ?_
    exact List.getElem?_set_ne (by omega)

namespace Environment

/-- How a deletion at `p` leaves its cursor. -/
structure Left (env' : Environment) (cursor : Handle) (layout : Layout) (entries : Contents)
    (p : Place) (e : Entry) (all : Bool) (c' : Cursor) (entries' : Contents) (p' : Place) :
    Prop where
  here : env'.cursors.get? cursor = some c'
  readable : env'.readable c'.txn c'.dbi = .ok (entries', layout)
  place : c'.place = some p'
  marked : c'.deleted = true
  inhabited : ∀ e ∈ entries', e.values ≠ []
  stands : entries'.holds p' = true ∨ entries'.length ≤ p'.entry
  resumes : Resumes entries entries' p e all p'

section
variable {env env' : Environment} {cursor : Handle} {c c' : Cursor} {layout : Layout}
  {entries entries' : Contents} {p p' : Place} {e : Entry} {v : Bytes} {flags : UInt32} {all : Bool}

theorem On.left (on : env.On cursor c layout entries p e v) (reached : Reachable env)
    (deleted : (env.perform (.cursorDel cursor flags)).Yields (.ok .success, env')) :
    ∃ c' entries' p',
      Left env' cursor layout entries p e (takesKey layout flags) c' entries' p' := by
  have later := reachable_balanced (reached.next _ ⟨_, deleted⟩)
  obtain ⟨db, p', holding, writable, rfl, rfl, removal, rfl⟩ :=
    on.deleted (reachable_balanced reached) deleted
  have readable := readable_keep writable holding
  have inhabited := readable_inhabited later readable
  refine ⟨{ c with place := some p', deleted := true }, holding.entries, p', ?_⟩
  exact ⟨Table.get?_insert_self _ _ _, readable, rfl, rfl, inhabited,
    removal.stands on.stood inhabited, removal.resumes on.stood on.was⟩

theorem Left.nextDup (left : Left env' cursor layout entries p e false c' entries' p')
    (stood : entries[p.entry]? = some e) (sorted : layout.flags.dupSort = true) :
    env'.Finds cursor .nextDup (entries.valueAfter (entries.successor p)) := by
  rw [← left.resumes.valueAfter stood]
  exact finds_of_reaches left.here left.readable rfl fun _ _ =>
    Contents.nextValue_reaches left.place sorted

theorem Left.nextMultiple (left : Left env' cursor layout entries p e false c' entries' p')
    (stood : entries[p.entry]? = some e) (fixed : layout.flags.fixed = true) :
    env'.Finds cursor .nextMultiple (entries.pageAfter (entries.successor p)) := by
  rw [← left.resumes.pageAfter stood]
  refine finds_of_reaches left.here left.readable rfl fun _ _ => ?_
  rw [Cursor.target, fixed]
  exact Contents.nextPage_reaches left.inhabited left.place left.stands

/-- Unless a value has moved up to the first place of the key, the step to the next key leaves it. -/
theorem Left.nextNoDup (left : Left env' cursor layout entries p e all c' entries' p')
    (leaves : all = true ∨ 0 < p.value ∨ e.values.length = 1) :
    env'.Finds cursor .nextNoDup (entries.keyAfter p) := by
  have resumes := left.resumes
  refine finds_of_reaches left.here left.readable rfl fun _ _ => ?_
  cases resumes with
  | next done tail =>
    have same : _ = entries.keyAfter p := Contents.item?_congr (tail 0) 0
    rw [← same]
    exact Contents.nextKey_marked_reaches left.inhabited left.place left.marked
  | among one more _ tail =>
    have later : 0 < p.value := by
      obtain whole | later | single := leaves
      · rw [one] at whole
        cases whole
      · exact later
      · omega
    have same : entries'.keyAfter p = entries.keyAfter p := Contents.item?_congr (tail 0) 0
    rw [← same]
    exact Contents.nextKey_reaches left.inhabited left.place (.inr later)

/-- If one has, the step leads to it. -/
theorem Left.nextNoDup_stays (left : Left env' cursor layout entries p e false c' entries' p')
    (stood : entries[p.entry]? = some e) (first : p.value = 0) (others : 1 < e.values.length) :
    env'.Finds cursor .nextNoDup (entries.valueAfter p) := by
  have resumes := left.resumes
  refine finds_of_reaches left.here left.readable rfl fun _ _ => ?_
  cases resumes with
  | next done _ =>
    have last : e.values.length ≤ p.value + 1 := by simpa using done
    omega
  | among _ _ here _ =>
    have place : c'.place = some ⟨p.entry, 0⟩ := by rw [left.place, ← first]
    have reaches := Contents.nextKey_marked_reaches left.inhabited place left.marked
    rw [Contents.item?_eq here, first, List.getElem?_eraseIdx_of_ge (Nat.le_refl 0)] at reaches
    rw [Contents.valueAfter, Contents.item?_eq stood, first]
    exact reaches

end

/-- A key with three values, and another with a fourth. -/
def fourItems : Contents := [⟨[1], [[5], [6], [7]]⟩, ⟨[2], [[8]]⟩]

/-- The first of them is deleted by itself. -/
theorem first_value_deleted :
    ∃ env env' c layout e, Reachable env ∧ On env 2 c layout fourItems ⟨0, 0⟩ e [5] ∧
      layout.flags.dupSort = true ∧ takesKey layout 0 = false ∧ 1 < e.values.length ∧
      c.deleted = false ∧
      (env.perform (.cursorDel 2 0)).Yields (.ok .success, env') := by
  have start : Reachable (Environment.new 1 "" {}) := ⟨1, "", {}, 0, .start⟩
  have begun := start.next (.txnBegin none 0) ⟨_, .done _⟩
  have opened := begun.next
    (.dbiOpen 1 (some "values") (Flags.dupSort ||| Flags.dupFixed ||| Flags.create)) ⟨_, .done _⟩
  have first := opened.next (.put 1 2 (some (.filled [1])) (some (.filled [5])) 0) ⟨_, .done _⟩
  have second := first.next (.put 1 2 (some (.filled [1])) (some (.filled [6])) 0) ⟨_, .done _⟩
  have third := second.next (.put 1 2 (some (.filled [1])) (some (.filled [7])) 0) ⟨_, .done _⟩
  have other := third.next (.put 1 2 (some (.filled [2])) (some (.filled [8])) 0) ⟨_, .done _⟩
  have cursor := other.next (.cursorOpen 1 2) ⟨_, .done _⟩
  have moved := cursor.next (.cursorGet 2 none none CursorOp.first.code) ⟨_, .done _⟩
  exact ⟨_, _, _, _, _, moved, ⟨rfl, rfl, rfl, rfl, rfl⟩, rfl, rfl, by decide, rfl, .done _⟩

/-! ## The moves by value -/

section
variable {env env' : Environment} {cursor : Handle} {c : Cursor} {layout : Layout}
  {entries : Contents} {p : Place} {e : Entry} {v : Bytes} {flags : UInt32}

/-- How the moves by value go on after the item at `p` was deleted by itself. -/
structure PassesOver (env' : Environment) (cursor : Handle) (layout : Layout)
    (entries : Contents) (p : Place) : Prop where
  /-- They go on behind the item that followed, and so pass over it. -/
  value : env'.Finds cursor .nextDup (entries.valueAfter (entries.successor p))
  page : layout.flags.fixed = true →
    env'.Finds cursor .nextMultiple (entries.pageAfter (entries.successor p))
  /-- They find what stood behind the deleted item where there is nothing to pass over. -/
  value_due : entries.valueAfter p = none → entries.valueAfter ⟨p.entry + 1, 0⟩ = none →
    env'.Finds cursor .nextDup (entries.valueAfter p)
  page_due : layout.flags.fixed = true → ¬entries.holds (entries.successor p) = true →
    env'.Finds cursor .nextMultiple (entries.pageAfter p)

/-- **After a deletion the moves by value pass over the item that followed**: the next value of the
key, or the first of the next key. -/
theorem moves_by_value_pass_over_the_successor (reached : Reachable env)
    (on : env.On cursor c layout entries p e v) (sorted : layout.flags.dupSort = true)
    (one : Flags.has flags Flags.noDupData = false)
    (deleted : (env.perform (.cursorDel cursor flags)).Yields (.ok .success, env')) :
    PassesOver env' cursor layout entries p := by
  have inhabited := readable_inhabited (reachable_balanced reached) on.readable
  have single : takesKey layout flags = false := by simp [takesKey, sorted, one]
  obtain ⟨c', entries', p', left⟩ := on.left reached deleted
  rw [single] at left
  have value := left.nextDup on.stood sorted
  constructor
  case value => exact value
  case page => exact left.nextMultiple on.stood
  case value_due =>
    intro none_here none_next
    have last : e.values.length ≤ p.value + 1 := by
      rw [Contents.valueAfter, Contents.item?_eq on.stood] at none_here
      simpa using none_here
    rw [Contents.successor_next on.stood last, none_next] at value
    rwa [none_here]
  case page_due =>
    intro fixed nothing
    have page := left.nextMultiple on.stood fixed
    have last : e.values.length ≤ p.value + 1 := Nat.le_of_not_lt fun more => by
      rw [Contents.successor_among on.stood more] at nothing
      exact nothing (Contents.holds_iff.mpr ⟨e, on.stood, more⟩)
    rw [Contents.successor_next on.stood last] at page nothing
    have past : entries.length ≤ p.entry + 1 :=
      Nat.le_of_not_lt fun inside => nothing (Contents.holds_first inhabited inside)
    have none_here : entries.pageAfter p = none := by
      rw [Contents.pageAfter, Contents.page?_eq on.stood, if_neg (Nat.not_lt.mpr last),
        Contents.page?_none past]
      rfl
    have none_next : entries.pageAfter ⟨p.entry + 1, 0⟩ = none := by
      rw [Contents.pageAfter, Contents.page?_none past, Contents.page?_none (Nat.le_succ_of_le past)]
      rfl
    rwa [none_here, ← none_next]

/-- The second value is passed over: the third one follows the first. -/
theorem moves_by_value_pass_over_the_second_value :
    ∃ env env' c layout e, Reachable env ∧ On env 2 c layout fourItems ⟨0, 0⟩ e [5] ∧
      layout.flags.dupSort = true ∧ Flags.has 0 Flags.noDupData = false ∧
      (env.perform (.cursorDel 2 0)).Yields (.ok .success, env') ∧
      PassesOver env' 2 layout fourItems ⟨0, 0⟩ ∧
      env'.Finds 2 .nextDup (some ([1], [7])) := by
  obtain ⟨env, env', c, layout, e, reached, on, sorted, single, others, unmarked, deleted⟩ :=
    first_value_deleted
  have passes := moves_by_value_pass_over_the_successor reached on sorted (by decide) deleted
  exact ⟨env, env', c, layout, e, reached, on, sorted, by decide, deleted, passes, passes.value⟩

/-- So the value that follows the deleted one is not found. -/
theorem second_value_is_missed :
    ∃ env env' c layout e, Reachable env ∧ On env 2 c layout fourItems ⟨0, 0⟩ e [5] ∧
      layout.flags.dupSort = true ∧
      (env.perform (.cursorDel 2 0)).Yields (.ok .success, env') ∧
      ¬env'.Finds 2 .nextDup (some ([1], [6])) := by
  obtain ⟨env, env', c, layout, e, reached, on, sorted, single, others, unmarked, deleted⟩ :=
    first_value_deleted
  obtain ⟨c', entries', p', left⟩ := on.left reached deleted
  rw [single] at left
  refine ⟨env, env', c, layout, e, reached, on, sorted, deleted, fun finds => ?_⟩
  have same := finds.unique (left.nextDup on.stood sorted)
  exact absurd same (by decide)

/-! ## The step to the next key -/

/-- Where the step to the next key leads from the item at `p`, of entry `e`. -/
structure StepsToKey (env : Environment) (cursor : Handle) (c : Cursor) (layout : Layout)
    (entries : Contents) (p : Place) (e : Entry) : Prop where
  /-- It leaves the key of a cursor without a mark. -/
  unmarked : c.deleted = false → env.Finds cursor .nextNoDup (entries.keyAfter p)
  /-- It leaves the key of which something was deleted, unless that was the first of several values,
  by itself. -/
  deleted : ∀ {flags env'},
    (env.perform (.cursorDel cursor flags)).Yields (.ok .success, env') →
    takesKey layout flags = true ∨ 0 < p.value ∨ e.values.length = 1 →
      env'.Finds cursor .nextNoDup (entries.keyAfter p)
  /-- If it was, the step leads to the value that is now the first. -/
  stays : ∀ {flags env'},
    (env.perform (.cursorDel cursor flags)).Yields (.ok .success, env') →
    takesKey layout flags = false → p.value = 0 → 1 < e.values.length →
      env'.Finds cursor .nextNoDup (entries.valueAfter p)
  /-- Among keys in order, the next one is the smallest that is greater. -/
  least : ∀ (order : Order) [Std.TransCmp order], Search.Ascending order Entry.key entries →
    FirstAfter order entries e.key (entries.keyAfter p)

/-- **The step to the next key leaves the key**, from an item and after a deletion alike, except
after that of the first of several values. -/
theorem step_to_next_key_leaves_the_key (reached : Reachable env)
    (on : env.On cursor c layout entries p e v) :
    StepsToKey env cursor c layout entries p e := by
  have inhabited := readable_inhabited (reachable_balanced reached) on.readable
  constructor
  case unmarked =>
    intro unmarked
    exact finds_of_reaches on.here on.readable rfl fun _ _ =>
      Contents.nextKey_reaches inhabited on.place (.inl unmarked)
  case deleted =>
    intro flags env' deleted leaves
    obtain ⟨c', entries', p', left⟩ := on.left reached deleted
    exact left.nextNoDup leaves
  case stays =>
    intro flags env' deleted single first others
    obtain ⟨c', entries', p', left⟩ := on.left reached deleted
    rw [single] at left
    exact left.nextNoDup_stays on.stood first others
  case least =>
    intro order _ ascending
    exact Contents.firstAfter_keyAfter ascending inhabited on.stood

/-- Nothing deleted yet, the step leads to the other key. -/
theorem step_to_next_key_leaves_three_values :
    ∃ env c layout e, Reachable env ∧ On env 2 c layout fourItems ⟨0, 0⟩ e [5] ∧
      StepsToKey env 2 c layout fourItems ⟨0, 0⟩ e ∧
      env.Finds 2 .nextNoDup (some ([2], [8])) := by
  obtain ⟨env, env', c, layout, e, reached, on, sorted, single, others, unmarked, deleted⟩ :=
    first_value_deleted
  have steps := step_to_next_key_leaves_the_key reached on
  exact ⟨env, c, layout, e, reached, on, steps, steps.unmarked unmarked⟩

/-- Once the first value is deleted, it does not. -/
theorem step_to_next_key_stays :
    ∃ env env' c layout e, Reachable env ∧ On env 2 c layout fourItems ⟨0, 0⟩ e [5] ∧
      (env.perform (.cursorDel 2 0)).Yields (.ok .success, env') ∧
      ¬env'.Finds 2 .nextNoDup (some ([2], [8])) := by
  obtain ⟨env, env', c, layout, e, reached, on, sorted, single, others, unmarked, deleted⟩ :=
    first_value_deleted
  obtain ⟨c', entries', p', left⟩ := on.left reached deleted
  rw [single] at left
  refine ⟨env, env', c, layout, e, reached, on, deleted, fun finds => ?_⟩
  have same := finds.unique (left.nextNoDup_stays on.stood rfl others)
  exact absurd same (by decide)

end

end Environment

end CollatedStore
