import CollatedStore.Proofs.Environment.Refinement
import Mathlib.Algebra.GroupWithZero.Nat

/-!
Pairs that are put one after another, each to come last. An empty database takes those that come
after all it has taken before, and so it takes all pairs exactly if their keys ascend.
-/
namespace CollatedStore

namespace PutRule

/-- The key has to come last, as `Flags.append` asks. -/
def last : PutRule := ⟨false, false, true, false⟩

end PutRule

/-- The bytes of a pair that is put. -/
def Descriptor.pair (x : Descriptor × Descriptor) : Bytes × Bytes := (x.1.bytes, x.2.bytes)

/-- Is the key greater than the keys of all these items? -/
def Past (order : Order) (items : List (Bytes × Bytes)) (key : Bytes) : Prop :=
  ∀ x ∈ items, order x.1 key = .lt

instance (order : Order) (items : List (Bytes × Bytes)) (key : Bytes) :
    Decidable (Past order items key) :=
  inferInstanceAs (Decidable (∀ x ∈ items, order x.1 key = .lt))

/-- The items that there are once each of these pairs was added if it came last. -/
def taken (order : Order) (items : List (Bytes × Bytes)) :
    List (Bytes × Bytes) → List (Bytes × Bytes)
  | [] => items
  | x :: rest => taken order (if Past order items x.1 then items ++ [x] else items) rest

/-- The bytes of all these keys and values. -/
def bytesOf (items : List (Bytes × Bytes)) : Nat :=
  (items.map fun x => x.1.length + x.2.length).sum

section
variable {order : Order} {items : List (Bytes × Bytes)}

theorem taken_append (items xs ys : List (Bytes × Bytes)) :
    taken order items (xs ++ ys) = taken order (taken order items xs) ys := by
  induction xs generalizing items with
  | nil => rfl
  | cons x xs ih => exact ih _

theorem prefix_taken (items xs : List (Bytes × Bytes)) : items <+: taken order items xs := by
  induction xs generalizing items with
  | nil => exact List.prefix_refl items
  | cons x xs ih =>
    refine List.IsPrefix.trans ?_ (ih _)
    split
    · exact List.prefix_append items [x]
    · exact List.prefix_refl items

theorem bytesOf_taken_take (items xs : List (Bytes × Bytes)) (n : Nat) :
    bytesOf (taken order items (xs.take n)) ≤ bytesOf (taken order items xs) := by
  have more : taken order items (xs.take n) <+:
      taken order (taken order items (xs.take n)) (xs.drop n) := prefix_taken _ _
  rw [← taken_append, List.take_append_drop] at more
  obtain ⟨later, whole⟩ := more
  rw [← whole, bytesOf, bytesOf, List.map_append, List.sum_append]
  exact Nat.le_add_right _ _

end

/-! ## Ordered maps -/

namespace OrderedMap

section
variable {order : Order} {m : OrderedMap order} {key value : Bytes}

theorem past_iff : Past order m.items key ↔ m.find key = none ∧ m.isLast key = true := by
  simp only [Past, find, Sorted.pick, isLast, Sorted.atEnd, List.find?_eq_none, List.all_eq_true]
  constructor
  · intro past
    exact ⟨fun x there => by simp [past x there], fun x there => by simp [past x there]⟩
  · rintro ⟨differ, notGreater⟩ x there
    have differ := differ x there
    have notGreater := notGreater x there
    cases h : order x.1 key <;> simp_all

theorem size_contents (m : OrderedMap order) : m.contents.size = bytesOf m.items := by
  unfold contents
  induction m.items with
  | nil => rfl
  | cons x xs ih =>
    rw [List.map_cons, Contents.size_cons, ih]
    simp [bytesOf, entry, Entry.size]

end

section
variable {order : Order} [Std.TransCmp order] {m : OrderedMap order}

/-- The map once the pair was added if it came last. -/
def extend (m : OrderedMap order) (x : Bytes × Bytes) : OrderedMap order :=
  if Past order m.items x.1 then m.add x.1 x.2 else m

theorem extend_items (m : OrderedMap order) (x : Bytes × Bytes) :
    (m.extend x).items = if Past order m.items x.1 then m.items ++ [x] else m.items := by
  unfold extend
  split
  · rename_i past
    exact add_absent (List.append_nil m.items).symm past (List.forall_mem_nil _) x.2
  · rfl

theorem put_last (m : OrderedMap order) (x : Bytes × Bytes) :
    m.put .last x.1 x.2 =
      if Past order m.items x.1 then .ok (m.extend x) else .error ⟨.keyExist, none⟩ := by
  by_cases past : Past order m.items x.1
  · obtain ⟨found, isLast⟩ := past_iff.mp past
    simp [put, found, isLast, past, extend]
  · rw [if_neg past, put]
    cases found : m.find x.1 with
    | some y => rfl
    | none =>
      have before : m.isLast x.1 = false := by simpa [past_iff, found] using past
      rw [before]
      rfl

end

end OrderedMap

/-- Puts the pairs one after another, each to come last. -/
def Request.loads (xs : List (Descriptor × Descriptor)) : List Request :=
  xs.map fun x => .put (some x.1) (some x.2) .last

/-- The pairs of which a success was told. -/
def accepted (xs : List (Descriptor × Descriptor)) (told : List (Outcome × Option Descriptor)) :
    List (Bytes × Bytes) :=
  (xs.zip told).filterMap fun t =>
    if t.2.1.toOption = some .success then some (Descriptor.pair t.1) else none

namespace OrderedMap

section
variable {order : Order} [Std.TransCmp order] (m : OrderedMap order)
  {x : Descriptor × Descriptor} {xs : List (Descriptor × Descriptor)}

theorem answer_last (valid : validKey x.1.bytes = true) :
    reference.answer m (.put (some x.1) (some x.2) .last) =
      (if Past order m.items x.1.bytes then .success else ⟨.keyExist, none⟩,
        m.extend (Descriptor.pair x)) := by
  have settled : reference.put m .last x.1.bytes x.2.bytes =
      if Past order m.items x.1.bytes then .ok (m.extend (Descriptor.pair x))
      else .error ⟨.keyExist, none⟩ := put_last m (Descriptor.pair x)
  simp only [Reference.answer, Reference.answerPut, if_pos valid, settled]
  by_cases past : Past order m.items x.1.bytes
  · rw [if_pos past, if_pos past]
    rfl
  · have stays : m.extend (Descriptor.pair x) = m := if_neg past
    rw [if_neg past, if_neg past, stays]
    rfl

theorem run_loads_cons (valid : validKey x.1.bytes = true) :
    reference.run m (Request.loads (x :: xs)) =
      ((.ok (if Past order m.items x.1.bytes then .success else .keyExist), some x.2) ::
          (reference.run (m.extend (Descriptor.pair x)) (Request.loads xs)).1,
        (reference.run (m.extend (Descriptor.pair x)) (Request.loads xs)).2) := by
  rw [Request.loads, List.map_cons, Reference.run, answer_last m valid]
  by_cases past : Past order m.items x.1.bytes
  · rw [if_pos past, if_pos past]
    rfl
  · rw [if_neg past, if_neg past]
    rfl

/-- The map takes what comes last. -/
theorem run_loads_items (valid : ∀ x ∈ xs, validKey x.1.bytes = true) :
    (reference.run m (Request.loads xs)).2.items =
      taken order m.items (xs.map Descriptor.pair) := by
  induction xs generalizing m with
  | nil => rfl
  | cons x xs ih =>
    obtain ⟨first, others⟩ := List.forall_mem_cons.mp valid
    rw [run_loads_cons m first, ih _ others, extend_items]
    rfl

theorem length_run_loads (valid : ∀ x ∈ xs, validKey x.1.bytes = true) :
    (reference.run m (Request.loads xs)).1.length = xs.length := by
  induction xs generalizing m with
  | nil => rfl
  | cons x xs ih =>
    obtain ⟨first, others⟩ := List.forall_mem_cons.mp valid
    rw [run_loads_cons m first, List.length_cons, ih _ others, List.length_cons]

/-- Each pair is answered by what was taken before it. -/
theorem run_loads_told (valid : ∀ x ∈ xs, validKey x.1.bytes = true) {n : Nat}
    (there : xs[n]? = some x) :
    (reference.run m (Request.loads xs)).1[n]? = some
      (.ok (if Past order (taken order m.items ((xs.take n).map Descriptor.pair)) x.1.bytes
        then .success else .keyExist), some x.2) := by
  induction xs generalizing m n with
  | nil => cases there
  | cons y xs ih =>
    obtain ⟨first, others⟩ := List.forall_mem_cons.mp valid
    rw [run_loads_cons m first]
    cases n with
    | zero =>
      cases there
      rfl
    | succ n =>
      rw [List.getElem?_cons_succ, ih _ others there, extend_items]
      rfl

/-- What the map has taken is what was accepted. -/
theorem run_loads_accepted (valid : ∀ x ∈ xs, validKey x.1.bytes = true) (n : Nat) :
    taken order m.items ((xs.take n).map Descriptor.pair) =
      m.items ++ accepted (xs.take n) (reference.run m (Request.loads xs)).1 := by
  induction xs generalizing m n with
  | nil => simp [taken, accepted]
  | cons x xs ih =>
    obtain ⟨first, others⟩ := List.forall_mem_cons.mp valid
    cases n with
    | zero => simp [taken, accepted]
    | succ n =>
      have later := ih (m.extend (Descriptor.pair x)) others n
      rw [extend_items] at later
      rw [run_loads_cons m first, List.take_succ_cons, List.map_cons, taken, later]
      by_cases past : Past order m.items x.1.bytes
      · simp [accepted, past, Descriptor.pair, Except.toOption]
      · have refused : Status.keyExist ≠ .success := by decide
        simp [accepted, past, refused, Descriptor.pair, Except.toOption]

/-- All are taken exactly if their keys ascend, past those of the map. -/
theorem run_loads_all (valid : ∀ x ∈ xs, validKey x.1.bytes = true) :
    (∀ told ∈ (reference.run m (Request.loads xs)).1, told.1 = .ok .success) ↔
      (m.items ++ xs.map Descriptor.pair).Pairwise fun x y => order x.1 y.1 = .lt := by
  induction xs generalizing m with
  | nil =>
    rw [List.map_nil, List.append_nil]
    exact ⟨fun _ => m.ascending, fun _ _ there => absurd there List.not_mem_nil⟩
  | cons x xs ih =>
    obtain ⟨first, others⟩ := List.forall_mem_cons.mp valid
    rw [run_loads_cons m first, List.forall_mem_cons, ih _ others, extend_items]
    by_cases past : Past order m.items x.1.bytes
    · simp [past, Descriptor.pair]
    · have refused : (if Past order m.items x.1.bytes then Status.success else .keyExist) ≠
          .success := by
        rw [if_neg past]
        decide
      constructor
      · rintro ⟨accepted, -⟩
        exact absurd (Except.ok.inj accepted) refused
      · intro ascending
        have apart := (List.pairwise_append.mp ascending).2.2
        exact absurd (fun y there => apart y there _ (List.mem_cons_self ..)) past

end

end OrderedMap

/-! ## Databases -/

namespace Environment

section
variable {answer : Question → Ordering} {env : Environment} {txn : Handle} {dbi : Dbi}

/-- The last of some requests is made where the others have led. -/
theorem eval_requests_snoc (requests : List Request) (request : Request) :
    (env.requests txn dbi (requests ++ [request])).eval answer =
      let (told, env') := (env.requests txn dbi requests).eval answer
      let reply := (env'.request txn dbi request).eval answer
      (told ++ [(reply.ended, reply.out)], reply.store) := by
  induction requests generalizing env with
  | nil => simp [Environment.requests, Inquiry.eval_bind]
  | cons first rest ih => simp [Environment.requests, Inquiry.eval_bind, ih]

/-- A put by key that does not succeed leaves everything as it was. -/
theorem put_refused {key data : Option Descriptor} {flags : UInt32}
    (refused : ((env.put txn dbi key data flags).eval answer).ended ≠ .ok .success) :
    ((env.put txn dbi key data flags).eval answer).store = env := by
  unfold put at refused ⊢
  cases admitted : env.admitPut txn dbi key data flags with
  | error s => rfl
  | ok found =>
    simp only [admitted, Inquiry.eval_bind, Work.eval_run] at refused ⊢
    generalize Work.eval answer _ = result at refused ⊢
    rcases result with stop | stored
    · cases stop <;> rfl
    · exact absurd rfl refused

end

/-- What loading these pairs tells, and the environment that it leaves. -/
def loaded (answer : Question → Ordering) (env : Environment) (txn : Handle) (dbi : Dbi)
    (xs : List (Descriptor × Descriptor)) : List (Outcome × Option Descriptor) × Environment :=
  (env.requests txn dbi (Request.loads xs)).eval answer

/-- What becomes of pairs that are put one after another, each to come last. -/
structure LoadsInTurn (answer : Question → Ordering) (env : Environment) (txn : Handle) (dbi : Dbi)
    (order : Order) (xs : List (Descriptor × Descriptor)) : Prop where
  /-- A pair that comes after all that were taken before it is taken. -/
  takes : ∀ {n x}, xs[n]? = some x →
    Past order (taken order [] ((xs.take n).map Descriptor.pair)) x.1.bytes →
      (env.loaded answer txn dbi xs).1[n]? = some (.ok .success, some x.2)
  /-- Any other is refused and changes nothing. -/
  refuses : ∀ {n x}, xs[n]? = some x →
    ¬Past order (taken order [] ((xs.take n).map Descriptor.pair)) x.1.bytes →
      (env.loaded answer txn dbi xs).1[n]? = some (.ok .keyExist, some x.2) ∧
        (env.loaded answer txn dbi (xs.take (n + 1))).2 =
          (env.loaded answer txn dbi (xs.take n)).2
  /-- Those taken are those that succeeded. -/
  succeeded : ∀ n, taken order [] ((xs.take n).map Descriptor.pair) =
    accepted (xs.take n) (env.loaded answer txn dbi xs).1
  /-- All are taken exactly if their keys ascend. -/
  all : (∀ told ∈ (env.loaded answer txn dbi xs).1, told.1 = .ok .success) ↔
    xs.Pairwise fun x y => order x.1.bytes y.1.bytes = .lt
  /-- At every point, a walk finds those taken so far, in the order they were put. -/
  walks : ∀ n, (env.loaded answer txn dbi (xs.take n)).2.Walks txn dbi
    (taken order [] ((xs.take n).map Descriptor.pair))

section
variable {answer : Question → Ordering} {env : Environment} {txn : Handle} {dbi : Dbi}
  {layout : Layout} {rest : Nat} {xs : List (Descriptor × Descriptor)}

/-- If the last pair is refused, nothing has changed since the one before. -/
theorem loaded_refused {x : Descriptor × Descriptor} {outcome : Outcome} {out : Option Descriptor}
    (last : (env.loaded answer txn dbi (xs ++ [x])).1.getLast? = some (outcome, out))
    (refused : outcome ≠ .ok .success) :
    (env.loaded answer txn dbi (xs ++ [x])).2 = (env.loaded answer txn dbi xs).2 := by
  have snoc : Request.loads (xs ++ [x]) =
      Request.loads xs ++ [.put (some x.1) (some x.2) .last] := by simp [Request.loads]
  unfold loaded at last ⊢
  rw [snoc, eval_requests_snoc] at last ⊢
  rw [List.getLast?_concat] at last
  obtain ⟨rfl, -⟩ := Prod.mk.inj (Option.some.inj last)
  exact put_refused refused

section
variable [Std.TransCmp (layout.keys answer)] (plain : layout.flags.dupSort = false)
  (here : env.Serves txn dbi layout ⟨[], rest⟩) (valid : ∀ x ∈ xs, validKey x.1.bytes = true)
  (room : rest + bytesOf (taken (layout.keys answer) [] (xs.map Descriptor.pair)) ≤
    env.config.mapSize)

include plain here valid room

/-- At every point the database has done what a map does. -/
theorem loaded_reaches (n : Nat) :
    (env.loaded answer txn dbi (xs.take n)).1 = (OrderedMap.reference.run
        (.empty : OrderedMap.Of layout answer) (Request.loads (xs.take n))).1 ∧
      (env.loaded answer txn dbi (xs.take n)).2.Walks txn dbi
        (taken (layout.keys answer) [] ((xs.take n).map Descriptor.pair)) := by
  let m : OrderedMap.Of layout answer := .empty
  have among : ∀ k, ∀ x ∈ xs.take k, validKey x.1.bytes = true :=
    fun k x there => valid x (List.mem_of_mem_take there)
  have suits : ∀ request ∈ Request.loads (xs.take n), env.Suits txn dbi request := by
    intro request there
    obtain ⟨x, _, rfl⟩ := List.mem_map.mp there
    trivial
  have enough : ∀ k, rest + (OrderedMap.reference.contents (OrderedMap.reference.run m
      ((Request.loads (xs.take n)).take k)).2).size ≤ env.config.mapSize := by
    intro k
    rw [Request.loads, ← List.map_take, List.take_take, ← Request.loads,
      OrderedMap.reference_contents, OrderedMap.size_contents,
      OrderedMap.run_loads_items m (among _), List.map_take]
    exact Nat.le_trans (Nat.add_le_add_left (bytesOf_taken_take _ _ _) rest) room
  obtain ⟨env', reached, _, walks⟩ := requests_walk (OrderedMap.reference_simulates plain)
    OrderedMap.inhabited (m := m) here (Request.loads (xs.take n)) suits enough
  rw [OrderedMap.reference_contents, OrderedMap.contents_items,
    OrderedMap.run_loads_items m (among n)] at walks
  have loaded : env.loaded answer txn dbi (xs.take n) = _ := reached
  rw [loaded]
  exact ⟨rfl, walks⟩

/-- Each pair is answered as a map answers it. -/
theorem loaded_told {n : Nat} {x : Descriptor × Descriptor} (there : xs[n]? = some x) {k : Nat}
    (before : n < k) : (env.loaded answer txn dbi (xs.take k)).1[n]? = some
      (.ok (if Past (layout.keys answer)
          (taken (layout.keys answer) [] ((xs.take n).map Descriptor.pair)) x.1.bytes
        then .success else .keyExist), some x.2) := by
  have among : ∀ x ∈ xs.take k, validKey x.1.bytes = true :=
    fun x there => valid x (List.mem_of_mem_take there)
  have still : (xs.take k)[n]? = some x := by rw [List.getElem?_take, if_pos before, there]
  rw [(loaded_reaches plain here valid room k).1, OrderedMap.run_loads_told _ among still,
    List.take_take, Nat.min_eq_left (Nat.le_of_lt before)]
  rfl

/-- **An empty database takes what comes last, pair by pair**, and so all pairs if their keys
ascend. -/
theorem loads_take_what_comes_last :
    LoadsInTurn answer env txn dbi (layout.keys answer) xs := by
  have reaches := loaded_reaches plain here valid room
  have told := fun {n x} (there : xs[n]? = some x) k =>
    loaded_told plain here valid room there (k := k)
  have whole := (reaches xs.length).1
  rw [List.take_length] at whole
  have told_whole {n x} (there : xs[n]? = some x) := told there xs.length
    (List.getElem?_eq_some_iff.mp there).1
  rw [List.take_length] at told_whole
  constructor
  case takes =>
    intro n x there past
    rw [told_whole there, if_pos past]
  case refuses =>
    intro n x there before
    have inside := (List.getElem?_eq_some_iff.mp there).1
    refine ⟨by rw [told_whole there, if_neg before], ?_⟩
    have among : ∀ x ∈ xs.take (n + 1), validKey x.1.bytes = true :=
      fun x there => valid x (List.mem_of_mem_take there)
    have cut : xs.take (n + 1) = xs.take n ++ [x] := by
      rw [List.take_add_one, there]
      rfl
    have length : (env.loaded answer txn dbi (xs.take (n + 1))).1.length = n + 1 := by
      rw [(reaches (n + 1)).1, OrderedMap.length_run_loads _ among, List.length_take_of_le inside]
    have last : (env.loaded answer txn dbi (xs.take (n + 1))).1.getLast? =
        some (.ok .keyExist, some x.2) := by
      rw [List.getLast?_eq_getElem?, length, Nat.add_sub_cancel,
        told there (n + 1) (Nat.lt_succ_self n), if_neg before]
    rw [cut] at last ⊢
    exact loaded_refused last (by decide)
  case succeeded =>
    intro n
    rw [whole]
    exact OrderedMap.run_loads_accepted (.empty : OrderedMap (layout.keys answer)) valid n
  case all =>
    rw [whole, OrderedMap.run_loads_all _ valid]
    exact List.pairwise_map
  case walks => exact fun n => (reaches n).2

end

end

/-- Keys of one length are one key here: [2] does not come after [1], and [4, 4] does. -/
theorem loads_take_what_is_longer :
    ∃ env : Environment, env.Serves 1 rootDbi ⟨some .single, none, .plain⟩ ⟨[], 0⟩ ∧
      LoadsInTurn (fun q => Order.length q.left q.right) env 1 rootDbi Order.length
        [(.filled [1], .filled [5]), (.filled [2], .filled [6]), (.filled [4, 4], .filled [8])] ∧
      (env.loaded (fun q => Order.length q.left q.right) 1 rootDbi
        [(.filled [1], .filled [5]), (.filled [2], .filled [6]),
          (.filled [4, 4], .filled [8])]).1.map (·.1) =
        [.ok .success, .ok .keyExist, .ok .success] := by
  let begun := ((Environment.new 1 "" {}).txnBegin none 0).store
  let env := (begun.setOrder .keys 1 rootDbi (some .single)).store
  have loads := @loads_take_what_comes_last (fun q => Order.length q.left q.right) env 1 rootDbi
    ⟨some .single, none, .plain⟩ 0
    [(.filled [1], .filled [5]), (.filled [2], .filled [6]), (.filled [4, 4], .filled [8])]
    (inferInstanceAs (Std.TransCmp Order.length)) rfl ⟨_, rfl, rfl, rfl⟩ (by decide)
    (Nat.le_of_ble_eq_true rfl)
  refine ⟨env, ⟨_, rfl, rfl, rfl⟩, loads, ?_⟩
  decide +kernel

end Environment

end CollatedStore
