import CollatedStore.Proofs.Environment.Finding
import CollatedStore.Proofs.Environment.Stale

/-!
The step back. It does not ask whether an item stands at the cursor's place, and so it can be trusted
only as long as the key there has not lost too many of its values.
-/
namespace CollatedStore

namespace Contents

section
variable {entries : Contents} {c : Cursor} {p : Place} {e : Entry} {v : Bytes} {i : Nat}

theorem mem_items (stored : e ∈ entries) (value : v ∈ e.values) : (e.key, v) ∈ entries.items :=
  List.mem_flatMap.mpr ⟨e, stored, List.mem_map.mpr ⟨v, value, rfl⟩⟩

end

end Contents

namespace Environment

section
variable {env : Environment} {cursor : Handle} {c : Cursor} {entries : Contents} {layout : Layout}

end

end Environment

end CollatedStore
