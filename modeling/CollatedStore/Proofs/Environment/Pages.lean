import CollatedStore.Proofs.Environment.Enumeration

/-!
Scans by page. Forward, the pages from an item on hold the items that the steps forward come to,
each once. Backward, a page ends right before the cursor and the cursor comes to stand at its end, so
that the next page begins where this one did.
-/
namespace CollatedStore

namespace Entry

/-- The values of a key joined, with that key. -/
def page (e : Entry) : Bytes × Bytes := (e.key, e.values.flatten)

/-- The runs of values that begin with the first, one for each value that they end with. -/
def runs (e : Entry) : List Entry :=
  (List.range e.values.length).map fun j => { e with values := e.values.take (j + 1) }

section
variable {e : Entry} {run : Entry} {j k : Nat}

theorem length_runs (e : Entry) : e.runs.length = e.values.length := by simp [runs]

theorem take_runs (e : Entry) : e.runs.take e.values.length = e.runs :=
  List.take_of_length_le (Nat.le_of_eq e.length_runs)

theorem take_items (e : Entry) : e.items.take e.values.length = e.items :=
  List.take_of_length_le (Nat.le_of_eq e.length_items)

theorem runs_eq_some (there : e.runs[j]? = some run) :
    j < e.values.length ∧ run = { e with values := e.values.take (j + 1) } := by
  obtain ⟨inside, same⟩ := List.getElem?_eq_some_iff.mp there
  rw [length_runs] at inside
  refine ⟨inside, ?_⟩
  rw [← same]
  simp [runs]

theorem runs_take_succ (inside : k < e.values.length) :
    e.runs.take (k + 1) = e.runs.take k ++ [{ e with values := e.values.take (k + 1) }] := by
  have within : k < e.runs.length := (length_runs e).symm ▸ inside
  rw [← List.take_append_getElem within, (runs_eq_some (List.getElem?_eq_getElem within)).2]

theorem items_runs_succ (inside : k < e.values.length) :
    Contents.items (e.runs.take (k + 1)) =
      Contents.items (e.runs.take k) ++ e.items.take (k + 1) := by
  rw [runs_take_succ inside, Contents.items_append, Contents.items_cons, Contents.items_nil,
    List.append_nil, items, items, List.map_take]

theorem runs_ends (e : Entry) :
    (e.runs.map fun run => run.items.getLast?) = e.items.map some := by
  refine List.ext_getElem (by simp [runs, items]) fun j inside _ => ?_
  have among : j < e.values.length := by simpa [runs] using inside
  simp [runs, items, List.getLast?_eq_getElem?, Nat.min_eq_left (Nat.succ_le_of_lt among)]

/-- The runs that end before the value at `k` hold the values before it. -/
theorem mem_items_runs {x : Bytes × Bytes} (k : Nat) :
    x ∈ Contents.items (e.runs.take k) ↔ x ∈ e.items.take k := by
  induction k with
  | zero => simp
  | succ k ih =>
    by_cases inside : k < e.values.length
    · rw [items_runs_succ inside, List.mem_append, ih]
      have fewer : e.items.take k ⊆ e.items.take (k + 1) :=
        (List.take_prefix_take_left (Nat.le_succ k)).subset
      exact ⟨fun there => there.elim (fun early => fewer early) id, .inr⟩
    · have few : e.values.length ≤ k := Nat.le_of_not_lt inside
      rw [List.take_of_length_le (by rw [length_runs]; omega),
        List.take_of_length_le (by rw [length_items]; omega)]
      rwa [List.take_of_length_le (by rw [length_runs]; omega),
        List.take_of_length_le (by rw [length_items]; omega)] at ih

/-- There are `1 + 2 + … + k` of them. -/
theorem length_items_runs (inside : k ≤ e.values.length) :
    2 * (Contents.items (e.runs.take k)).length = k * (k + 1) := by
  induction k with
  | zero => rfl
  | succ k ih =>
    have before := ih (Nat.le_of_succ_le inside)
    rw [items_runs_succ inside, List.length_append, List.length_take, length_items,
      Nat.min_eq_left inside, Nat.mul_add, before, ← Nat.add_mul, Nat.mul_comm]

theorem length_items_le (inside : k ≤ e.values.length) :
    (e.items.take k).length ≤ (Contents.items (e.runs.take k)).length := by
  have total := length_items_runs inside
  rw [List.length_take, length_items, Nat.min_eq_left inside]
  cases k with
  | zero => exact Nat.zero_le _
  | succ k =>
    have more : (k + 1) * 2 ≤ (k + 1) * (k + 1 + 1) := Nat.mul_le_mul_left _ (by omega)
    omega

theorem items_runs_eq_iff (inside : k ≤ e.values.length) :
    Contents.items (e.runs.take k) = e.items.take k ↔ k ≤ 1 := by
  constructor
  · intro same
    have total := length_items_runs inside
    rw [same, List.length_take, length_items, Nat.min_eq_left inside, Nat.mul_comm] at total
    obtain rfl | pos := Nat.eq_zero_or_pos k
    · exact Nat.zero_le 1
    · have two := Nat.eq_of_mul_eq_mul_left pos total
      omega
  · intro few
    obtain rfl | rfl : k = 0 ∨ k = 1 := by omega
    · rfl
    · rw [items_runs_succ inside]
      rfl

end

end Entry

namespace Contents

/-- What stands from `p` on: the rest of its entry, and the entries behind. -/
def entriesFrom (entries : Contents) (p : Place) : Contents :=
  match entries[p.entry]? with
  | some e => { e with values := e.values.drop p.value } :: entries.drop (p.entry + 1)
  | none => []

/-- For each item before `p`, the run of values that ends with it. -/
def runsBefore (entries : Contents) (p : Place) : Contents := entries.before Entry.runs p

/-- The pages from `p` on. -/
def pagesFrom (entries : Contents) (p : Place) : List (Bytes × Bytes) :=
  (entries.entriesFrom p).map Entry.page

/-- The pages behind the item at `p`. -/
def pagesAfter (entries : Contents) (p : Place) : List (Bytes × Bytes) :=
  entries.pagesFrom (entries.successor p)

/-- The pages back from `p`. -/
def pagesBefore (entries : Contents) (p : Place) : List (Bytes × Bytes) :=
  ((entries.runsBefore p).map Entry.page).reverse

section
variable {entries : Contents} {p q : Place} {e : Entry} {v : Bytes} {c : Cursor} {i : Nat}

theorem entriesFrom_eq (stood : entries[p.entry]? = some e) : entries.entriesFrom p =
    { e with values := e.values.drop p.value } :: entries.drop (p.entry + 1) := by
  rw [entriesFrom, stood]

theorem entriesFrom_head (entries : Contents) (i : Nat) :
    entries.entriesFrom ⟨i, 0⟩ = entries.drop i := by
  unfold entriesFrom
  split
  · rename_i e stood
    obtain ⟨inside, rfl⟩ := List.getElem?_eq_some_iff.mp stood
    exact (List.drop_eq_getElem_cons inside).symm
  · rename_i past
    exact (List.drop_eq_nil_of_le (List.getElem?_eq_none_iff.mp past)).symm

theorem mem_entriesFrom {run : Entry} (there : run ∈ entries.entriesFrom p) :
    ∃ e ∈ entries, run.values ⊆ e.values := by
  unfold entriesFrom at there
  split at there
  · rename_i e stood
    obtain rfl | later := List.mem_cons.mp there
    · exact ⟨e, List.mem_of_getElem? stood, List.drop_subset _ _⟩
    · exact ⟨run, List.mem_of_mem_drop later, List.Subset.refl _⟩
  · cases there

theorem items_entriesFrom (entries : Contents) (p : Place) :
    (entries.entriesFrom p).items = entries.itemsFrom p := by
  unfold entriesFrom itemsFrom
  cases stood : entries[p.entry]? with
  | none =>
    have past := List.getElem?_eq_none_iff.mp stood
    rw [List.drop_eq_nil_of_le (Nat.le_succ_of_le past)]
    rfl
  | some e => simp [Entry.items]

/-! ## Forward -/

/-- The page from a place on ends with the last value of its key. -/
theorem pageFrom_serves (stood : entries[p.entry]? = some e) (inside : p.value < e.values.length) :
    entries.Serves entries.pagesAfter (entries.pagesFrom p)
      (Cursor.pageFrom entries p.entry p.value) := by
  obtain ⟨last, length⟩ := Nat.exists_eq_add_one_of_ne_zero (Nat.ne_zero_of_lt inside)
  have lands : entries.Lands
      (some (⟨p.entry, last⟩, e.key, ((e.values.take (last + 1)).drop p.value).flatten))
      (pure (.page p.entry p.value (last + 1))) :=
    .page (p := ⟨p.entry, last⟩) stood (by dsimp only; omega) (by dsimp only; omega)
  rw [List.take_of_length_le (by omega)] at lands
  have rest : entries.successor ⟨p.entry, last⟩ = ⟨p.entry + 1, 0⟩ :=
    successor_next stood (by dsimp only; omega)
  have pages : entries.pagesFrom p =
      (e.key, (e.values.drop p.value).flatten) :: entries.pagesAfter ⟨p.entry, last⟩ := by
    rw [pagesAfter, rest, pagesFrom, pagesFrom, entriesFrom_eq stood, entriesFrom_head]
    rfl
  rw [pages, Cursor.pageFrom, Work.itemAt_eq stood, pure_bind, length]
  exact .item lands

theorem headPage_serves (inhabited : ∀ e ∈ entries, e.values ≠ []) (i : Nat) :
    entries.Serves entries.pagesAfter (entries.pagesFrom ⟨i, 0⟩)
      (do Cursor.pageFrom entries (← Cursor.headOf entries i).entry 0) := by
  obtain ⟨past, none_there⟩ | ⟨e, v, stood, _, head⟩ := headOf_cases inhabited i
  · rw [none_there, pagesFrom, entriesFrom_head, List.drop_eq_nil_of_le past]
    exact .nothing .nothing
  · have some_value := List.length_pos_iff.mpr (inhabited e (List.mem_of_getElem? stood))
    rw [head, pure_bind]
    exact pageFrom_serves (p := ⟨i, 0⟩) stood some_value

theorem nextPage_serves (inhabited : ∀ e ∈ entries, e.values ≠ []) (holds : entries.holds p = true)
    (place : c.place = some p) :
    entries.Serves entries.pagesAfter (entries.pagesAfter p) (c.nextPage entries) := by
  obtain ⟨e, stood, inside⟩ := holds_iff.mp holds
  simp only [Cursor.nextPage, place, holds, if_true, lastValue_eq stood (by omega), pure_bind]
  unfold pagesAfter
  by_cases more : p.value + 1 < e.values.length
  · rw [if_pos (by omega), successor_among stood more]
    exact pageFrom_serves (p := ⟨p.entry, p.value + 1⟩) stood more
  · rw [if_neg (by omega), successor_next stood (by omega)]
    exact headPage_serves inhabited (p.entry + 1)

/-! ## Backward -/

/-- The page before an item ends with the item that it follows. -/
theorem prevPage_of_follows (follows : entries.Follows p q) (place : c.place = some q) :
    c.prevPage entries = pure (.page p.entry 0 (p.value + 1)) := by
  rw [Cursor.prevPage, Cursor.positioned_of_holds place follows.holds_right, pure_bind]
  cases follows with
  | value stood more => exact if_pos (Nat.succ_pos _)
  | key stood last next inhabited =>
    rw [if_neg (Nat.lt_irrefl 0), if_pos (Nat.succ_pos _), Nat.add_sub_cancel, Cursor.pageFrom,
      Work.itemAt_eq stood, pure_bind, last]

theorem prevPage_serves (inhabited : ∀ e ∈ entries, e.values ≠ []) (holds : entries.holds q = true)
    (place : c.place = some q) :
    entries.Serves entries.pagesBefore (entries.pagesBefore q) (c.prevPage entries) := by
  obtain ⟨p, follows⟩ | rfl := follows_or_first inhabited holds
  · obtain ⟨e, run, stood, was, longer⟩ := before_follows Entry.length_runs follows
    obtain ⟨among, rfl⟩ := Entry.runs_eq_some was
    have lands := Lands.page stood (Nat.zero_le p.value) among
    have pages : entries.pagesBefore q =
        (e.key, (e.values.take (p.value + 1)).flatten) :: entries.pagesBefore p := by
      rw [pagesBefore, runsBefore, longer, List.map_append, List.reverse_append]
      rfl
    rw [pages, prevPage_of_follows follows place]
    exact .item lands
  · have first : c.prevPage entries = Work.refuse .notFound := by
      rw [Cursor.prevPage, Cursor.positioned_of_holds place holds]
      rfl
    have none_before : entries.pagesBefore ⟨0, 0⟩ = [] := by cases entries <;> rfl
    rw [first, none_before]
    exact .nothing .nothing

/-- One page for each item before `p`, the last of them. -/
theorem runsBefore_ends (entries : Contents) (p : Place) :
    (entries.runsBefore p).map (fun run => run.items.getLast?) =
      (entries.itemsBefore p).map some := by
  have same : (fun e : Entry => e.runs.map fun run => run.items.getLast?) =
      fun e => e.items.map some := funext Entry.runs_ends
  have items : entries.itemsBefore p = entries.before Entry.items p := rfl
  rw [items, runsBefore, map_before, map_before, same]

theorem items_runs_cons (e : Entry) (rest : Contents) :
    items ((e :: rest).flatMap Entry.runs) =
      items (e.runs.take e.values.length) ++ items (rest.flatMap Entry.runs) := by
  rw [List.flatMap_cons, items_append, e.take_runs]

theorem mem_items_runs {x : Bytes × Bytes} (es : Contents) :
    x ∈ items (es.flatMap Entry.runs) ↔ x ∈ es.items := by
  induction es with
  | nil => rfl
  | cons e rest ih =>
    rw [items_runs_cons, items_cons, List.mem_append, List.mem_append, Entry.mem_items_runs,
      e.take_items, ih]

theorem length_items_le_runs (es : Contents) :
    es.items.length ≤ (items (es.flatMap Entry.runs)).length := by
  induction es with
  | nil => exact Nat.le_refl 0
  | cons e rest ih =>
    have own := Entry.length_items_le (Nat.le_refl e.values.length)
    rw [e.take_items] at own
    rw [items_runs_cons, items_cons, List.length_append, List.length_append]
    exact Nat.add_le_add own ih

/-- Two lists that are no shorter than two others make up the same only if each is the same. -/
theorem append_eq_append_iff_of_length_le {α : Type} {xs ys xs' ys' : List α}
    (first : xs.length ≤ xs'.length) (second : ys.length ≤ ys'.length) :
    xs' ++ ys' = xs ++ ys ↔ xs' = xs ∧ ys' = ys := by
  constructor
  · intro same
    have lengths := congrArg List.length same
    simp only [List.length_append] at lengths
    exact List.append_inj same (by omega)
  · rintro ⟨rfl, rfl⟩
    rfl

theorem items_runs_eq_iff (es : Contents) :
    items (es.flatMap Entry.runs) = es.items ↔ ∀ e ∈ es, e.values.length ≤ 1 := by
  induction es with
  | nil => simp
  | cons e rest ih =>
    have own := Entry.length_items_le (Nat.le_refl e.values.length)
    have single := Entry.items_runs_eq_iff (Nat.le_refl e.values.length)
    rw [e.take_items] at own single
    rw [items_runs_cons, items_cons,
      append_eq_append_iff_of_length_le own (length_items_le_runs rest), single, ih,
      List.forall_mem_cons]

/-- The runs hold what stands before `p`, and nothing else. -/
theorem mem_items_runsBefore {x : Bytes × Bytes} :
    x ∈ (entries.runsBefore p).items ↔ x ∈ entries.itemsBefore p := by
  unfold runsBefore before itemsBefore
  rw [items_append, List.mem_append, List.mem_append, mem_items_runs]
  cases entries[p.entry]? with
  | none => rfl
  | some e => exact or_congr_right (Entry.mem_items_runs p.value)

/-- None of it is there twice exactly if no key before has more than one value, and no more than
one value of its own key stands before `p`. -/
theorem items_runsBefore_eq_iff (holds : entries.holds p = true) :
    (entries.runsBefore p).items = entries.itemsBefore p ↔
      (∀ e ∈ entries.take p.entry, e.values.length ≤ 1) ∧ p.value ≤ 1 := by
  obtain ⟨e, stood, inside⟩ := holds_iff.mp holds
  have upTo := Nat.le_of_lt inside
  unfold runsBefore before itemsBefore
  simp only [stood]
  rw [items_append, append_eq_append_iff_of_length_le (length_items_le_runs _)
    (Entry.length_items_le upTo), items_runs_eq_iff, Entry.items_runs_eq_iff upTo]

end

end Contents

namespace Cursor

variable {c : Cursor} {layout : Layout} {entries : Contents} {key data : Bytes}

theorem needs_fixed (fixed : layout.flags.fixed = true) :
    needs layout.flags.fixed = pure () := by
  rw [fixed]
  rfl

theorem target_nextMultiple (fixed : layout.flags.fixed = true) :
    c.target layout entries .nextMultiple key data = c.nextPage entries := by
  rw [target, needs_fixed fixed, pure_bind]

theorem target_prevMultiple (fixed : layout.flags.fixed = true) :
    c.target layout entries .prevMultiple key data = c.prevPage entries := by
  rw [target, needs_fixed fixed, pure_bind]

end Cursor

namespace Environment

/-- What forward scans by page come to, where these are the entries of a database of values of a
fixed length. -/
structure ScansForward (env : Environment) (txn : Handle) (dbi : Dbi) (entries : Contents)
    (layout : Layout) : Prop where
  /-- From a new cursor on there is one page for each key. -/
  fresh : ∀ {cursor}, env.cursors.get? cursor = some (.new txn dbi) →
    env.Repeats cursor .nextMultiple (entries.map Entry.page)
  ordered : ∀ {keys values : Order}, entries.InOrder keys values →
    (entries.map Entry.page).Pairwise fun x y => keys x.1 y.1 = .lt
  /-- From an item on, there are the rest of its key and then the other keys. -/
  onward : ∀ {cursor c p e v}, env.On cursor c layout entries p e v → ∀ n,
    env.Recites cursor (.getMultiple :: List.replicate n .nextMultiple)
      ((List.range (n + 1)).map ((entries.pagesFrom p)[·]?))
  /-- These are the item itself and all that the steps forward come to. -/
  items : ∀ {cursor c p e v}, env.On cursor c layout entries p e v →
    (entries.entriesFrom p).items = (e.key, v) :: entries.itemsAfter p ∧
      (c.deleted = false → env.Repeats cursor .next (entries.itemsAfter p))
  /-- A page cut into pieces of its key's record length comes apart into the items it was made of. -/
  cut : ∀ {p run r}, run ∈ entries.entriesFrom p → r ∈ run.values → r ≠ [] →
    (Records.split r.length run.page.2).map (fun piece => (run.page.1, piece)) = run.items

/-- What a backward scan by page comes to from a place. -/
structure ScansBack (env : Environment) (cursor : Handle) (entries : Contents) (p : Place) :
    Prop where
  /-- From an item on, there is a page for each item before it, and then nothing. -/
  pages : entries.holds p = true →
    env.Repeats cursor .prevMultiple (entries.pagesBefore p)
  /-- Each page ends with the item that it is for. -/
  ends : (entries.runsBefore p).map (fun run => run.items.getLast?) =
    (entries.itemsBefore p).map some
  /-- All that stands before is there, and nothing else. -/
  covers : ∀ x, x ∈ (entries.runsBefore p).items ↔ x ∈ entries.itemsBefore p
  /-- It is there once exactly if no key before has several values, and at most one value of the
  same key stands before. -/
  once : entries.holds p = true → ((entries.runsBefore p).items = entries.itemsBefore p ↔
    (∀ e ∈ entries.take p.entry, e.values.length ≤ 1) ∧ p.value ≤ 1)
  /-- From where no item stands there is nothing. -/
  gone : ¬entries.holds p = true → env.Repeats cursor .prevMultiple []

section
variable {env : Environment} {cursor : Handle} {c : Cursor} {txn : Handle} {dbi : Dbi}
  {entries : Contents} {layout : Layout} {p : Place} {e : Entry} {v : Bytes}

/-- Pages on from a place where the cursor comes to stand, or has not stood yet. -/
theorem repeats_nextMultiple (inhabited : ∀ e ∈ entries, e.values ≠ [])
    (here : env.cursors.get? cursor = some c)
    (readable : env.readable c.txn c.dbi = .ok (entries, layout))
    (fixed : layout.flags.fixed = true) {xs : List (Bytes × Bytes)}
    (serves : entries.Serves entries.pagesAfter xs (c.nextPage entries)) :
    env.Repeats cursor .nextMultiple xs := by
  have first : ∀ key data,
      entries.Serves entries.pagesAfter xs (c.target layout entries .nextMultiple key data) := by
    intro key data
    rw [Cursor.target_nextMultiple fixed]
    exact serves
  refine repeats_of_serves rfl here readable (fun _ _ => rfl)
    (fun place _ holds key data => ?_) first
  rw [Cursor.target_nextMultiple fixed]
  exact Contents.nextPage_serves inhabited holds place

/-- Pages back from a place where the cursor stands. -/
theorem repeats_prevMultiple (inhabited : ∀ e ∈ entries, e.values ≠ [])
    (here : env.cursors.get? cursor = some c)
    (readable : env.readable c.txn c.dbi = .ok (entries, layout))
    (fixed : layout.flags.fixed = true) {xs : List (Bytes × Bytes)}
    (serves : entries.Serves entries.pagesBefore xs (c.prevPage entries)) :
    env.Repeats cursor .prevMultiple xs := by
  have first : ∀ key data,
      entries.Serves entries.pagesBefore xs (c.target layout entries .prevMultiple key data) := by
    intro key data
    rw [Cursor.target_prevMultiple fixed]
    exact serves
  refine repeats_of_serves rfl here readable (fun _ _ => rfl)
    (fun place _ holds key data => ?_) first
  rw [Cursor.target_prevMultiple fixed]
  exact Contents.prevPage_serves inhabited holds place

theorem On.target_getMultiple (on : env.On cursor c layout entries p e v)
    (fixed : layout.flags.fixed = true) (key data : Bytes) :
    c.target layout entries .getMultiple key data = Cursor.pageFrom entries p.entry p.value := by
  rw [Cursor.target, Cursor.needs_fixed fixed, pure_bind,
    Cursor.positioned_of_holds on.place on.holds, pure_bind]

/-- One page holds the rest of the key. -/
theorem On.finds_page (on : env.On cursor c layout entries p e v)
    (fixed : layout.flags.fixed = true) :
    env.Finds cursor .getMultiple (some (e.key, (e.values.drop p.value).flatten)) := by
  refine finds_of_reaches on.here on.readable rfl fun key data => ?_
  rw [on.target_getMultiple fixed, Cursor.pageFrom, Work.itemAt_eq on.stood, pure_bind]
  exact .page on.stood (List.getElem?_eq_some_iff.mp on.was).1

theorem On.forward_pages (on : env.On cursor c layout entries p e v)
    (inhabited : ∀ e ∈ entries, e.values ≠ []) (fixed : layout.flags.fixed = true) (n : Nat) :
    env.Recites cursor (.getMultiple :: List.replicate n .nextMultiple)
      ((List.range (n + 1)).map ((entries.pagesFrom p)[·]?)) := by
  have target := on.target_getMultiple fixed
  have serves := Contents.pageFrom_serves on.stood (List.getElem?_eq_some_iff.mp on.was).1
  generalize pages : entries.pagesFrom p = xs at serves ⊢
  generalize Cursor.pageFrom entries p.entry p.value = step at serves target
  cases serves with
  | nothing =>
    rw [Contents.pagesFrom, Contents.entriesFrom_eq on.stood] at pages
    cases pages
  | @item q x _ lands =>
    have placed : (env.setCursor cursor (c.landed (some (q, x)))).cursors.get? cursor =
        some (c.landed (some (q, x))) := Table.get?_insert_self _ _ _
    have rest := repeats_nextMultiple inhabited placed on.readable fixed
      (Contents.nextPage_serves inhabited lands.holds rfl)
    rw [List.range_succ_eq_map, List.map_cons, List.map_map]
    exact recites_cons on.here on.readable rfl (fun key data => target key data ▸ lands) (rest n)

/-- **Forward scans by page agree with walks by item**, from every item of a database of values of a
fixed length. -/
theorem forward_pages_hold_the_items (reached : Reachable env)
    (readable : env.readable txn dbi = .ok (entries, layout))
    (fixed : layout.flags.fixed = true) : ScansForward env txn dbi entries layout := by
  have inhabited := readable_inhabited (reachable_balanced reached) readable
  have conforms := readable_conforms reached readable
  obtain ⟨sorted, sized⟩ : layout.flags.dupSort = true ∧ layout.flags.dupFixed = true := by
    simpa [DbFlags.fixed] using fixed
  constructor
  case fresh =>
    intro cursor fresh
    have first := Contents.headPage_serves inhabited 0
    rw [← Contents.firstItem_eq, Contents.pagesFrom, Contents.entriesFrom_head] at first
    exact repeats_nextMultiple inhabited fresh readable fixed first
  case ordered =>
    intro keys values inOrder
    exact List.pairwise_map.mpr inOrder.keys
  case onward =>
    intro cursor c p e v on n
    exact on.forward_pages inhabited fixed n
  case items =>
    intro cursor c p e v on
    refine ⟨?_, fun unmarked => on.walks_on unmarked inhabited⟩
    rw [Contents.items_entriesFrom, Contents.itemsFrom_cons on.stood on.was]
  case cut =>
    intro p run r there own filled
    -- All values of the run are values of one entry, and so as long as `r`.
    obtain ⟨e, stored, taken⟩ := Contents.mem_entriesFrom there
    have uniform : ∀ r' ∈ run.values, r'.length = r.length := fun r' other =>
      (conforms e stored).uniform sorted sized r' (taken other) r (taken own)
    rw [Entry.page, Records.split_flatten (List.length_pos_iff.mpr filled) uniform]
    rfl

/-- From the second of three values on there are two pages, of three items. -/
theorem forward_pages_hold_three_items :
    ∃ env c layout e, Reachable env ∧ env.readable 1 2 = .ok (fourItems, layout) ∧
      layout.flags.fixed = true ∧ env.cursors.get? 2 = some (.new 1 2) ∧
      On env 3 c layout fourItems ⟨0, 1⟩ e [6] ∧ ScansForward env 1 2 fourItems layout ∧
      env.Repeats 2 .nextMultiple [([1], [5, 6, 7]), ([2], [8])] ∧
      env.Recites 3 [.getMultiple, .nextMultiple, .nextMultiple]
        [some ([1], [6, 7]), some ([2], [8]), none] ∧
      env.Repeats 3 .next [([1], [7]), ([2], [8])] ∧
      (Records.split 1 [6, 7]).map (fun piece => (([1], piece) : Bytes × Bytes)) =
        [([1], [6]), ([1], [7])] := by
  obtain ⟨env, c, _, layout, reached, readable, fixed, fresh, on, unmarked, -⟩ :=
    four_items_three_cursors
  have scans := forward_pages_hold_the_items reached readable fixed
  have rest : (⟨[1], [[6], [7]]⟩ : Entry) ∈ fourItems.entriesFrom ⟨0, 1⟩ := List.mem_cons_self
  have cut := scans.cut (r := [6]) rest List.mem_cons_self (by decide)
  exact ⟨env, c, layout, _, reached, readable, fixed, fresh, on, scans, scans.fresh fresh,
    scans.onward on 2, (scans.items on).2 unmarked, cut⟩

/-- **Backward scans by page** come from every place to an end, and hand out what stands before it;
but a page ends with each of these items in turn, and begins with the first value of its key. -/
theorem backward_pages_end_with_each_item (reached : Reachable env)
    (here : env.cursors.get? cursor = some c)
    (readable : env.readable c.txn c.dbi = .ok (entries, layout))
    (fixed : layout.flags.fixed = true) (place : c.place = some p) :
    ScansBack env cursor entries p := by
  have inhabited := readable_inhabited (reachable_balanced reached) readable
  constructor
  case pages =>
    intro holds
    exact repeats_prevMultiple inhabited here readable fixed
      (Contents.prevPage_serves inhabited holds place)
  case ends => exact Contents.runsBefore_ends entries p
  case covers =>
    intro x
    exact Contents.mem_items_runsBefore
  case once =>
    intro holds
    exact Contents.items_runsBefore_eq_iff holds
  case gone =>
    intro gone
    have refused : c.prevPage entries = Work.refuse .notFound := by
      rw [Cursor.prevPage, Cursor.positioned_of_gone place gone]
      rfl
    exact repeats_prevMultiple inhabited here readable fixed (refused ▸ .nothing .nothing)

/-- From the item behind three values of one key. -/
theorem backward_pages_end_with_each_of_three_values :
    ∃ env d layout, Reachable env ∧ env.cursors.get? 4 = some d ∧
      env.readable d.txn d.dbi = .ok (fourItems, layout) ∧ layout.flags.fixed = true ∧
      d.place = some ⟨1, 0⟩ ∧ ScansBack env 4 fourItems ⟨1, 0⟩ ∧
      env.Repeats 4 .prevMultiple [([1], [5, 6, 7]), ([1], [5, 6]), ([1], [5])] := by
  obtain ⟨env, _, d, layout, reached, _, fixed, _, _, _, on, _⟩ := four_items_three_cursors
  have scans := backward_pages_end_with_each_item reached on.here on.readable fixed on.place
  exact ⟨env, d, layout, reached, on.here, on.readable, fixed, on.place, scans,
    scans.pages on.holds⟩

/-- The first of these values is in three pages, and the last in one. -/
theorem backward_pages_repeat_records :
    ∃ env d layout, Reachable env ∧ On env 4 d layout fourItems ⟨1, 0⟩ ⟨[2], [[8]]⟩ [8] ∧
      layout.flags.fixed = true ∧
      env.Recites 4 [.prevMultiple, .prevMultiple, .prevMultiple, .prevMultiple]
        [some ([1], [5, 6, 7]), some ([1], [5, 6]), some ([1], [5]), none] ∧
      (Records.split 1 [5, 6, 7], Records.split 1 [5, 6], Records.split 1 [5]) =
        ([[5], [6], [7]], [[5], [6]], [[5]]) := by
  obtain ⟨env, _, d, layout, reached, readable, fixed, _, _, _, on, _⟩ := four_items_three_cursors
  have inhabited := readable_inhabited (reachable_balanced reached) readable
  have pages := repeats_prevMultiple inhabited on.here on.readable fixed
    (Contents.prevPage_serves inhabited on.holds on.place)
  exact ⟨env, d, layout, reached, on, fixed, pages 4, by decide⟩

end

end Environment

end CollatedStore
