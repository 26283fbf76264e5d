import CollatedStore.Proofs.Environment.Requests
import CollatedStore.Proofs.Environment.Walk
import CollatedStore.Proofs.Orders
import CollatedStore.Proofs.Reference.SingleValues
import CollatedStore.Proofs.Reference.SortedValues

/-!
Databases as sorted sets and as ordered maps, whatever total preorders they are sorted by.
-/
namespace CollatedStore.Environment

section
variable {answer : Question → Ordering} {layout : Layout} {env : Environment} {txn : Handle}
  {dbi : Dbi} {rest : Nat}

/-- After requests, a walk finds what the reference holds. -/
theorem requests_walk {M : Type} {ref : Reference M} {m : M}
    (sim : ref.Simulates layout answer) (inhabited : ∀ m, ∀ e ∈ ref.contents m, e.values ≠ [])
    (here : env.Serves txn dbi layout (ref.holding rest m)) (requests : List Request)
    (suits : ∀ request ∈ requests, env.Suits txn dbi request)
    (room : ∀ n, rest + (ref.contents (ref.run m (requests.take n)).2).size ≤ env.config.mapSize) :
    ∃ env', (env.requests txn dbi requests).eval answer = ((ref.run m requests).1, env') ∧
      env'.Serves txn dbi layout (ref.holding rest (ref.run m requests).2) ∧
        env'.Walks txn dbi (ref.contents (ref.run m requests).2).items := by
  obtain ⟨env', answered, serves, _⟩ := requests_answers sim here requests suits room
  obtain ⟨db, writable, _, holds⟩ := serves.database
  have entries : db.entries = ref.contents (ref.run m requests).2 := congrArg Holding.entries holds
  have walks := readable_walks (readable_of_writable writable) (entries ▸ inhabited _)
  exact ⟨env', answered, serves, entries ▸ walks⟩

/-- **A database with sorted values is a sorted set of pairs.** It answers requests as the set does,
and afterwards it stands for what the set has become, which is what a walk finds. An empty database
stands for the empty set. -/
theorem sorted_values_refine_pairs [Std.TransCmp (layout.keys answer)]
    [Std.TransCmp (layout.values answer)] (dupSort : layout.flags.dupSort = true)
    (m : PairSet (layout.keys answer) (layout.values answer))
    (here : env.Serves txn dbi layout ⟨m.entries, rest + m.entries.size⟩) (requests : List Request)
    (suits : ∀ request ∈ requests, env.Suits txn dbi request)
    (room : ∀ n, rest + ((PairSet.reference layout.flags.fixed).run m
      (requests.take n)).2.entries.size ≤ env.config.mapSize) :
    ∃ told m' env', (PairSet.reference layout.flags.fixed).run m requests = (told, m') ∧
      (env.requests txn dbi requests).eval answer = (told, env') ∧
      env'.Serves txn dbi layout ⟨m'.entries, rest + m'.entries.size⟩ ∧
      env'.Walks txn dbi m'.items := by
  obtain ⟨env', answered, serves, walks⟩ := requests_walk (PairSet.reference_simulates dupSort)
    PairSet.inhabited here requests suits room
  exact ⟨_, _, env', rfl, answered, serves, walks⟩

/-- Values of one length are one value here. -/
theorem sorted_values_refine_pairs_by_length :
    ∃ env env' : Environment,
      env.Serves 1 2 ⟨none, some .single, ⟨true, false⟩⟩ ⟨[], 0⟩ ∧
      (env.requests 1 2
        [.put (some (.filled [1])) (some (.filled [5])) ⟨false, false, false, false⟩,
          .cursorPut 2 (some (.filled [1])) (some (.filled [6, 6])) ⟨false, false, false, true⟩,
          .put (some (.filled [1])) (some (.filled [7])) ⟨false, true, false, false⟩,
          .get (some (.filled [1])) (some .empty),
          .del (some (.filled [1])) (some (.filled [8]))]).eval
        (fun q => Order.length q.left q.right) =
        ([(.ok .success, some (.filled [5])), (.ok .success, some (.filled [6, 6])),
          (.ok .keyExist, some (.filled [5])), (.ok .success, some (.filled [5])),
          (.ok .success, some (.filled [8]))], env') ∧
      env'.Walks 1 2 [([1], [6, 6])] := by
  let opened := (((Environment.new 1 "" {}).txnBegin none 0).store.dbiOpen 1 (some "lengths")
    (Flags.dupSort ||| Flags.create)).store
  let env := ((opened.setOrder .values 1 2 (some .single)).store.cursorOpen 1 2).store
  obtain ⟨told, m', env', ran, answered, _, walks⟩ :=
    @sorted_values_refine_pairs (fun q => Order.length q.left q.right)
      ⟨none, some .single, ⟨true, false⟩⟩ env 1 2 0
      (inferInstanceAs (Std.TransCmp Order.baseline)) (inferInstanceAs (Std.TransCmp Order.length))
      rfl .empty ⟨_, rfl, rfl, rfl⟩
      [.put (some (.filled [1])) (some (.filled [5])) ⟨false, false, false, false⟩,
        .cursorPut 2 (some (.filled [1])) (some (.filled [6, 6])) ⟨false, false, false, true⟩,
        .put (some (.filled [1])) (some (.filled [7])) ⟨false, true, false, false⟩,
        .get (some (.filled [1])) (some .empty),
        .del (some (.filled [1])) (some (.filled [8]))]
      (by simp only [List.forall_mem_cons]; exact ⟨trivial, ⟨_, rfl, rfl, rfl⟩, by simp [Suits]⟩)
      (by
        intro n
        obtain _ | _ | _ | _ | _ | n := n
        case succ.succ.succ.succ.succ =>
          rw [List.take_of_length_le (by simp)]
          exact Nat.le_of_ble_eq_true rfl
        all_goals exact Nat.le_of_ble_eq_true rfl)
  cases ran
  exact ⟨env, env', ⟨_, rfl, rfl, rfl⟩, answered, walks⟩

/-- **A plain database is an ordered map.** It answers requests as the map does, and afterwards it
stands for what the map has become, which is what a walk finds. An empty database stands for the
empty map. -/
theorem plain_refines_map [Std.TransCmp (layout.keys answer)]
    (plain : layout.flags.dupSort = false) (m : OrderedMap (layout.keys answer))
    (here : env.Serves txn dbi layout ⟨m.contents, rest + m.contents.size⟩)
    (requests : List Request) (suits : ∀ request ∈ requests, env.Suits txn dbi request)
    (room : ∀ n, rest + (OrderedMap.reference.run m (requests.take n)).2.contents.size ≤
      env.config.mapSize) :
    ∃ told m' env', OrderedMap.reference.run m requests = (told, m') ∧
      (env.requests txn dbi requests).eval answer = (told, env') ∧
      env'.Serves txn dbi layout ⟨m'.contents, rest + m'.contents.size⟩ ∧
      env'.Walks txn dbi m'.items := by
  obtain ⟨env', answered, serves, walks⟩ := requests_walk (OrderedMap.reference_simulates plain)
    OrderedMap.inhabited here requests suits room
  rw [OrderedMap.reference_contents, OrderedMap.contents_items] at walks
  exact ⟨_, _, env', rfl, answered, serves, walks⟩

/-- Keys of one length are one key here, with the bytes first stored. The root is plain. -/
theorem plain_refines_map_by_length :
    ∃ env env' : Environment, env.Serves 1 rootDbi ⟨some .single, none, .plain⟩ ⟨[], 0⟩ ∧
      (env.requests 1 rootDbi
        [.put (some (.filled [1])) (some (.filled [5])) ⟨false, false, false, false⟩,
          .put (some (.filled [2])) (some (.filled [6])) ⟨false, false, false, false⟩,
          .put (some (.filled [3])) (some (.filled [7])) ⟨false, false, true, false⟩,
          .put (some (.filled [4, 4])) (some (.filled [8])) ⟨true, false, true, false⟩,
          .get (some (.filled [9])) (some .empty)]).eval
        (fun q => Order.length q.left q.right) =
        ([(.ok .success, some (.filled [5])), (.ok .success, some (.filled [6])),
          (.ok .keyExist, some (.filled [7])), (.ok .success, some (.filled [8])),
          (.ok .success, some (.filled [6]))], env') ∧
      env'.Walks 1 rootDbi [([1], [6]), ([4, 4], [8])] := by
  let begun := ((Environment.new 1 "" {}).txnBegin none 0).store
  let env := (begun.setOrder .keys 1 rootDbi (some .single)).store
  obtain ⟨told, m', env', ran, answered, _, walks⟩ :=
    @plain_refines_map (fun q => Order.length q.left q.right) ⟨some .single, none, .plain⟩ env 1
      rootDbi 0 (inferInstanceAs (Std.TransCmp Order.length)) rfl .empty ⟨_, rfl, rfl, rfl⟩
      [.put (some (.filled [1])) (some (.filled [5])) ⟨false, false, false, false⟩,
        .put (some (.filled [2])) (some (.filled [6])) ⟨false, false, false, false⟩,
        .put (some (.filled [3])) (some (.filled [7])) ⟨false, false, true, false⟩,
        .put (some (.filled [4, 4])) (some (.filled [8])) ⟨true, false, true, false⟩,
        .get (some (.filled [9])) (some .empty)]
      (by simp [Suits])
      (by
        intro n
        obtain _ | _ | _ | _ | _ | n := n
        case succ.succ.succ.succ.succ =>
          rw [List.take_of_length_le (by simp)]
          exact Nat.le_of_ble_eq_true rfl
        all_goals exact Nat.le_of_ble_eq_true rfl)
  cases ran
  exact ⟨env, env', ⟨_, rfl, rfl, rfl⟩, answered, walks⟩

end

end CollatedStore.Environment
