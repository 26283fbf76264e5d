import CollatedStore.Proofs.Registry.Installation

/-!
No idle slot stays occupied: whatever an operation leaves idle, it frees. Only between the record of
an installation and the store's answer may a slot be idle, the one that the site has just left.
-/
namespace CollatedStore.Registry

/-- An occupied slot is idle only where `p` allows it. -/
def IdleOnly (r : Registry) (p : SlotIndex → Prop) : Prop :=
  ∀ i s, r.slots i = some s → s.idle = true → p i

def Swept (r : Registry) : Prop := IdleOnly r fun _ => False

section
variable {r r' : Registry} {p : SlotIndex → Prop}

theorem IdleOnly.mono {q : SlotIndex → Prop} (h : IdleOnly r p) (weaker : ∀ i, p i → q i) :
    IdleOnly r q :=
  fun i s hs idle => weaker i (h i s hs idle)

theorem new_swept : Swept new := by
  intro i s hs
  cases hs

theorem IdleOnly.sweep {i : SlotIndex} (h : IdleOnly r (· = i)) : Swept (r.sweep i) := by
  intro j t ht idle
  have hj : r.slots j = some t → j = i := fun hs => h j t hs idle
  unfold Registry.sweep at ht
  split at ht
  · rw [setSlot_slots] at ht
    split at ht
    · cases ht
    · rename_i other
      exact other (hj ht)
  · rename_i busy
    have here := hj ht
    subst here
    exact busy (by rw [ht]; exact idle)

/-- Where one slot is changed, only that slot can become idle. -/
theorem Swept.modifySlot (h : Swept r) (i : SlotIndex) (f : Slot → Slot) :
    IdleOnly (r.modifySlot i f) (· = i) := by
  intro j t ht idle
  obtain ⟨s, hs, rfl⟩ := modifySlot_eq_some ht
  by_cases hj : j = i
  · exact hj
  · rw [if_neg hj] at idle
    exact (h j s hs idle).elim

theorem Swept.retire (h : Swept r) (id : ContextId) (i : SlotIndex) : Swept (r.retire id i) :=
  (Swept.modifySlot (r := { r with byId := r.byId.erase id }) h i _).sweep

theorem Swept.register (h : Swept r) {id : ContextId} {collation : Collation} {g : Guard}
    (hr : r.register id collation = .ok (g, r')) : Swept r' := by
  obtain ⟨_, _, _, t, rfl, _, _, live, _⟩ := register_eq_ok hr
  intro j s hs idle
  simp only [setSlot_slots] at hs
  split at hs
  · cases hs
    obtain ⟨e, he⟩ := Option.isSome_iff_exists.mp live
    simp [Slot.idle, he] at idle
  · exact h j s hs idle

theorem Swept.exportFn (h : Swept r) {mode : Dispatch} {fn : CompareFn}
    (hr : r.exportFn mode = .ok (fn, r')) : Swept r' := by
  obtain rfl | ⟨i, rfl⟩ := exportFn_cases hr
  · exact h
  · intro j t ht idle
    have here : j = i := h.modifySlot i _ j t ht idle
    obtain ⟨s, _, rfl⟩ := modifySlot_eq_some ht
    simp [Slot.idle, here] at idle

theorem Swept.reclaim (h : Swept r) {id : ContextId} {freed : Bool}
    (hr : r.reclaim id = .ok (freed, r')) : Swept r' := by
  obtain rfl | ⟨i, rfl⟩ := reclaim_cases hr
  · exact h
  · exact (h.modifySlot i _).sweep

/-! ## Records of use -/

/-- A record can leave idle only the slot that the site has left. If the slot it comes to was the
idle one, that ends with it. -/
theorem IdleOnly.record {slot : Option SlotIndex} (h : IdleOnly r fun i => slot = some i)
    (linked : Linked r) (site : Site) :
    IdleOnly (r.record site slot).2 fun i => r.installs.get? site = some i ∧ slot ≠ some i := by
  intro i t ht idle
  rw [record_slots linked] at ht
  obtain ⟨s, hs, rfl⟩ := Option.map_eq_some_iff.mp ht
  by_cases here : slot = some i
  · have used : s.users.insert site ≠ [] := List.ne_nil_of_mem List.mem_insert_self
    simp [Slot.idle, here, used] at idle
  · refine ⟨(linked.installs site i).mpr ⟨s, hs, ?_⟩, here⟩
    by_contra absent
    have same : s.users.erase site = s.users := List.erase_of_not_mem absent
    rw [if_neg here, same] at idle
    exact here (h i s hs idle)

theorem IdleOnly.sweepUnless {slot other : Option SlotIndex}
    (h : IdleOnly r fun i => slot = some i ∧ other ≠ some i) : Swept (r.sweepUnless slot other) := by
  cases slot with
  | none => exact h.mono fun i left => by simp at left
  | some i =>
    unfold Registry.sweepUnless
    by_cases both : other = some i
    · simp only [both, if_true]
      refine h.mono fun j left => ?_
      obtain ⟨same, apart⟩ := left
      cases same
      exact apart both
    · simp only [both, if_false]
      exact (h.mono fun j left => (Option.some.inj left.1).symm).sweep

/-- Whatever the store answers, an installation ends with nothing idle. -/
theorem Swept.install (h : Swept r) (linked : Linked r) {site : Site} {mode : Dispatch}
    {i : Installing} (hb : r.beginInstall site mode = .ok (i, r')) (taken : Bool) :
    Swept (r'.endInstall i taken) := by
  have linked' := linked.beginInstall hb
  obtain ⟨rfl, _, previous, rfl⟩ := beginInstall_eq_ok hb
  have left : IdleOnly (r.record i.site i.slot).2
      fun j => i.previous = some j ∧ i.slot ≠ some j := by
    rw [previous]
    exact IdleOnly.record (h.mono fun _ => False.elim) linked i.site
  cases taken with
  | true => exact left.sweepUnless
  | false =>
    have back := IdleOnly.record (left.mono fun _ => And.left) linked' i.site
    rw [record_installs, if_pos rfl] at back
    exact back.sweepUnless

theorem forgetSite_eq (r : Registry) (site : Site) :
    r.forgetSite site = (r.record site none).2.sweepUnless (r.installs.get? site) none := by
  unfold forgetSite record
  cases r.installs.get? site <;> rfl

theorem Swept.forgetSite (h : Swept r) (linked : Linked r) (site : Site) :
    Swept (r.forgetSite site) := by
  rw [forgetSite_eq]
  exact (IdleOnly.record (h.mono fun _ => False.elim) linked site).sweepUnless

theorem Swept.forgetEnvironment (h : Swept r) (linked : Linked r) (envId : UInt64) :
    Swept (r.forgetEnvironment envId).2 := by
  unfold Registry.forgetEnvironment
  generalize r.installs.keys.filter _ = sites
  induction sites generalizing r with
  | nil => exact h
  | cons site rest ih => exact ih (h.forgetSite linked site) (linked.forgetSite site)

end

end CollatedStore.Registry
