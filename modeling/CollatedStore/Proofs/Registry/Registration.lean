import CollatedStore.Proofs.Registry.Linked

/-!
Registering and releasing keep the tables linked, and move no slot that a database uses to another
context.
-/
namespace CollatedStore.Registry

theorem Linked.live? {r : Registry} (h : Linked r) (id : ContextId) (i : SlotIndex)
    (e : Enrolment) :
    r.live? id = some (i, e) ↔ ∃ s, r.slots i = some s ∧ s.id = id ∧ s.enrolment = some e := by
  simp only [Registry.live?, Option.bind_eq_bind, Option.bind_eq_some_iff, Option.pure_def,
    Option.some.injEq, Prod.mk.injEq]
  constructor
  · rintro ⟨j, hj, s, hs, e', he, rfl, rfl⟩
    obtain ⟨t, ht, hid, _⟩ := (h.byId id j).mp hj
    rw [hs] at ht; cases ht
    exact ⟨s, hs, hid, he⟩
  · rintro ⟨s, hs, hid, he⟩
    exact ⟨i, (h.byId id i).mpr ⟨s, hs, hid, by simp [he]⟩, s, hs, e, he, rfl, rfl⟩

/-- The first half of retiring: `id` leaves slot `i`, which is not freed yet. -/
def unbind (r : Registry) (id : ContextId) (i : SlotIndex) : Registry :=
  modifySlot { r with byId := r.byId.erase id } i fun s => { s with enrolment := none }

theorem unbind_descends (r : Registry) (id : ContextId) (i : SlotIndex) :
    Descends (r.unbind id i) r :=
  modifySlot_descends { r with byId := r.byId.erase id } i (fun _ => rfl) fun _ => rfl

theorem unbind_byId (r : Registry) (id : ContextId) (i : SlotIndex) :
    (r.unbind id i).byId = r.byId.erase id := rfl

theorem unbind_installs (r : Registry) (id : ContextId) (i : SlotIndex) :
    (r.unbind id i).installs = r.installs := rfl

theorem unbind_slots (r : Registry) (id : ContextId) (i j : SlotIndex) :
    (r.unbind id i).slots j =
      if j = i then (r.slots j).map fun s => { s with enrolment := none } else r.slots j :=
  modifySlot_slots { r with byId := r.byId.erase id } i j _

theorem Linked.unbind {r : Registry} (h : Linked r) {id : ContextId} {i : SlotIndex}
    (bound : r.byId.get? id = some i) : Linked (r.unbind id i) := by
  obtain ⟨s, hs, rfl, _⟩ := (h.byId id i).mp bound
  refine h.descend (unbind_descends r s.id i) (fun id j => ?_) (fun site j => ?_)
    (fun {j t} ht => ?_)
  · rw [unbind_byId, Table.get?_erase, unbind_slots]
    by_cases hj : j = i
    · subst hj
      by_cases hid : id = s.id
      · simp [hid, hs]
      · have other : ¬ s.id = id := Ne.symm hid
        simp [hid, hs, h.byId, other]
    · by_cases hid : id = s.id
      · have other : ∀ t, r.slots j = some t → t.id ≠ s.id := fun t ht he => hj (h.ids ht hs he)
        simp only [hid, ↓reduceIte, reduceCtorEq, hj, false_iff]
        rintro ⟨t, ht, he, _⟩
        exact other t ht he
      · simpa [hid, hj] using h.byId id j
  · rw [unbind_installs, h.installs, unbind_slots]
    by_cases hj : j = i
    · subst hj; simp [hs]
    · simp [hj]
  · rw [unbind_slots] at ht
    split at ht
    · obtain ⟨u, hu, rfl⟩ := Option.map_eq_some_iff.mp ht
      exact h.users (s := u) hu
    · exact h.users ht

theorem Linked.retire {r : Registry} (h : Linked r) {id : ContextId} {i : SlotIndex}
    (bound : r.byId.get? id = some i) : Linked (r.retire id i) :=
  (h.unbind bound).sweep i

theorem retire_descends (r : Registry) (id : ContextId) (i : SlotIndex) :
    Descends (r.retire id i) r :=
  (sweep_descends _ i).trans (unbind_descends r id i)

theorem Pins.retire {r : Registry} {site : Site} {j : SlotIndex} {x : ContextId}
    (pins : Pins r site j x) (h : Linked r) {id : ContextId} {i : SlotIndex}
    (bound : r.byId.get? id = some i) : Pins (r.retire id i) site j x := by
  have unbound : Pins (r.unbind id i) site j x :=
    modifySlot_pins (r := { r with byId := r.byId.erase id }) pins i fun _ => rfl
  exact unbound.sweep (h.unbind bound) i

/-- Deregistering retires the slot of a registered context. -/
theorem deregister_eq_ok {r r' : Registry} (h : Linked r) {id : ContextId}
    (hr : r.deregister id = .ok r') :
    ∃ i, r.byId.get? id = some i ∧ r' = r.retire id i := by
  unfold deregister at hr
  split at hr
  · rename_i i e live
    cases hr
    obtain ⟨s, hs, hid, he⟩ := (h.live? id i e).mp live
    exact ⟨i, (h.byId id i).mpr ⟨s, hs, hid, by simp [he]⟩, rfl⟩
  · cases hr

/-- Dropping a guard retires its slot, or nothing. -/
theorem release_cases {r : Registry} (h : Linked r) {g : Guard} (named : Names r g) :
    r.release g = r ∨ r.byId.get? g.id = some g.slot ∧ r.release g = r.retire g.id g.slot := by
  unfold release
  cases hs : r.slots g.slot with
  | none => exact Or.inl rfl
  | some s =>
    simp only [Option.any_some]
    split
    · rename_i current
      simp only [Bool.and_eq_true, beq_iff_eq] at current
      obtain ⟨_, hid⟩ := named.2 _ _ hs current.1
      exact Or.inr ⟨(h.byId _ _).mpr ⟨s, hs, hid, current.2⟩, rfl⟩
    · exact Or.inl rfl

theorem findSlot?_some {r : Registry} {p : Option Slot → Bool} {i : SlotIndex}
    (h : r.findSlot? p = some i) : p (r.slots i) = true :=
  List.find?_some (p := fun i => p (r.slots i)) h

theorem findSlot?_none {r : Registry} {p : Option Slot → Bool} (h : r.findSlot? p = none)
    (i : SlotIndex) : p (r.slots i) = false := by
  simpa using List.find?_eq_none.mp h i (List.mem_finRange i)

/-- A registration takes the slot that its id still has, or an empty one when it has none. -/
theorem register_eq_ok {r r' : Registry} {id : ContextId} {collation : Collation} {g : Guard}
    (h : r.register id collation = .ok (g, r')) :
    r.byId.get? id = none ∧ g.id = id ∧ g.generation = r.generation + 1 ∧ ∃ t,
      r' = { r.setSlot g.slot (some t) with
        byId := r.byId.insert id g.slot, generation := r.generation + 1 } ∧
      t.id = id ∧ t.generation = r.generation + 1 ∧ t.enrolment.isSome = true ∧
      ((∃ s, r.slots g.slot = some s ∧ s.enrolment = none ∧ s.id = id ∧ t.users = s.users) ∨
        r.slots g.slot = none ∧ t.users = [] ∧ ∀ i s, r.slots i = some s → s.enrolment = none →
          s.id ≠ id) := by
  unfold register at h
  split at h
  · cases h
  · rename_i unbound
    have unbound' : r.byId.get? id = none := by simpa [Table.contains] using unbound
    split at h
    · cases h
    · rename_i i found
      simp only [Except.ok.injEq, Prod.mk.injEq] at h
      obtain ⟨rfl, rfl⟩ := h
      refine ⟨unbound', rfl, rfl, _, rfl, ?_⟩
      cases hreleased : r.released? id with
      | some j =>
        rw [hreleased] at found
        cases found
        have hj := findSlot?_some hreleased
        obtain ⟨s, hs, released⟩ : ∃ s, r.slots i = some s ∧ s.releasedBy id = true := by
          cases hs : r.slots i with
          | none => simp [hs] at hj
          | some s => exact ⟨s, rfl, by simpa [hs] using hj⟩
        simp only [Slot.releasedBy, Bool.and_eq_true, Option.isNone_iff_eq_none,
          decide_eq_true_eq] at released
        simp only [hs]
        exact ⟨released.2, by simp, by simp, Or.inl ⟨s, rfl, released.1, released.2, rfl⟩⟩
      | none =>
        rw [hreleased] at found
        have empty : r.slots i = none := by simpa using findSlot?_some found
        simp only [empty]
        refine ⟨by simp, by simp, by simp, Or.inr ⟨by simp, by simp, ?_⟩⟩
        intro j s hs released hid
        have := findSlot?_none hreleased j
        simp [hs, Slot.releasedBy, released, hid] at this

/-- No slot of another id can be meant by a registration under `id`. -/
theorem register_fresh {r r' : Registry} (h : Linked r) {id : ContextId} {collation : Collation}
    {g : Guard} (hr : r.register id collation = .ok (g, r')) {i : SlotIndex} {s : Slot}
    (hs : r.slots i = some s) (hi : i ≠ g.slot) : s.id ≠ id := by
  obtain ⟨unbound, _, _, t, _, _, _, _, taken⟩ := register_eq_ok hr
  rintro rfl
  cases live : s.enrolment with
  | some e =>
    have bound := (h.byId s.id i).mpr ⟨s, hs, rfl, by simp [live]⟩
    rw [unbound] at bound
    cases bound
  | none =>
    obtain ⟨u, hu, _, hid, _⟩ | ⟨_, _, none_left⟩ := taken
    · exact hi (h.ids hs hu hid.symm)
    · exact none_left i s hs live rfl

theorem Linked.register {r r' : Registry} (h : Linked r) {id : ContextId} {collation : Collation}
    {g : Guard} (hr : r.register id collation = .ok (g, r')) : Linked r' := by
  have fresh := fun {i s} => register_fresh h hr (i := i) (s := s)
  obtain ⟨unbound, _, _, t, rfl, hid, hgen, live, taken⟩ := register_eq_ok hr
  have hlt : ∀ {i s}, r.slots i = some s → s.generation ≠ t.generation := by
    intro i s hs
    have := h.generation hs
    omega
  have before : ∀ {i s}, i ≠ g.slot → (if i = g.slot then some t else r.slots i) = some s →
      r.slots i = some s := by
    intro i s hi hs; simpa [hi] using hs
  constructor
  case byId =>
    intro x i
    simp only [Table.get?_insert, setSlot_slots]
    by_cases hi : i = g.slot
    · subst hi
      by_cases hx : x = id
      · simp [hx, hid, live]
      · have other : ∀ s, r.slots g.slot = some s → ¬ (s.id = x ∧ s.enrolment.isSome = true) := by
          obtain ⟨u, hu, released, _, _⟩ | ⟨empty, _, _⟩ := taken
          · simp [hu, released]
          · simp [empty]
        have absent : r.byId.get? x ≠ some g.slot := by
          intro hb
          obtain ⟨s, hs, rest⟩ := (h.byId x g.slot).mp hb
          exact other s hs rest
        simp [hx, absent, hid, Ne.symm hx]
    · by_cases hx : x = id
      · simp only [hx, ↓reduceIte, Option.some.injEq, hi, Ne.symm hi, false_iff]
        rintro ⟨s, hs, hsid, _⟩
        exact fresh hs hi hsid
      · simp only [hx, ↓reduceIte, hi, h.byId]
  case ids =>
    intro i j s u hs hu he
    simp only [setSlot_slots] at hs hu
    by_cases hi : i = g.slot <;> by_cases hj : j = g.slot
    · exact hi.trans hj.symm
    · rw [if_pos hi] at hs
      cases hs
      exact absurd (he.symm.trans hid) (fresh (before hj hu) hj)
    · rw [if_pos hj] at hu
      cases hu
      exact absurd (he.trans hid) (fresh (before hi hs) hi)
    · exact h.ids (before hi hs) (before hj hu) he
  case installs =>
    intro site i
    simp only [setSlot_slots]
    refine (h.installs site i).trans ?_
    by_cases hi : i = g.slot
    · subst hi
      obtain ⟨u, hu, _, _, users⟩ | ⟨empty, users, _⟩ := taken
      · simp [hu, users]
      · simp [empty, users]
    · simp [hi]
  case users =>
    intro i s hs
    simp only [setSlot_slots] at hs
    by_cases hi : i = g.slot
    · rw [if_pos hi] at hs
      cases hs
      obtain ⟨u, hu, _, _, users⟩ | ⟨_, users, _⟩ := taken
      · exact users ▸ h.users hu
      · simp [users]
    · exact h.users (before hi hs)
  case generation =>
    intro i s hs
    simp only [setSlot_slots] at hs
    by_cases hi : i = g.slot
    · rw [if_pos hi] at hs
      cases hs
      exact Nat.le_of_eq hgen
    · exact Nat.le_succ_of_le (h.generation (before hi hs))
  case generations =>
    intro i j s u hs hu he
    simp only [setSlot_slots] at hs hu
    by_cases hi : i = g.slot <;> by_cases hj : j = g.slot
    · exact hi.trans hj.symm
    · rw [if_pos hi] at hs
      cases hs
      exact absurd he.symm (hlt (before hj hu))
    · rw [if_pos hj] at hu
      cases hu
      exact absurd he (hlt (before hi hs))
    · exact h.generations (before hi hs) (before hj hu) he

theorem Pins.register {r r' : Registry} {site : Site} {j : SlotIndex} {x : ContextId}
    (pins : Pins r site j x) (h : Linked r) {id : ContextId} {collation : Collation} {g : Guard}
    (hr : r.register id collation = .ok (g, r')) : Pins r' site j x := by
  obtain ⟨_, _, _, t, rfl, hid, _, _, taken⟩ := register_eq_ok hr
  refine ⟨pins.1, ?_⟩
  obtain ⟨s, hs, hsite⟩ := (h.installs site j).mp pins.1
  by_cases hj : j = g.slot
  · subst hj
    have hx : s.id = x := by simpa [hs] using pins.2
    obtain ⟨u, hu, _, huid, _⟩ | ⟨empty, _, _⟩ := taken
    · rw [hs] at hu; cases hu
      simp [hid, ← hx, huid]
    · rw [empty] at hs; cases hs
  · simpa [hj] using pins.2

theorem Names.register {r r' : Registry} {g : Guard} (named : Names r g) {id : ContextId}
    {collation : Collation} {g' : Guard} (hr : r.register id collation = .ok (g', r')) :
    Names r' g := by
  obtain ⟨_, _, _, t, rfl, _, hgen, _, _⟩ := register_eq_ok hr
  refine ⟨Nat.le_succ_of_le named.1, fun i s hs hg => ?_⟩
  simp only [setSlot_slots] at hs
  split at hs
  · cases hs
    have := named.1
    omega
  · exact named.2 i s hs hg

/-- A new guard names its slot. -/
theorem register_names {r r' : Registry} (h : Linked r) {id : ContextId} {collation : Collation}
    {g : Guard} (hr : r.register id collation = .ok (g, r')) : Names r' g := by
  obtain ⟨_, own, hg, t, rfl, hid, _, _, _⟩ := register_eq_ok hr
  refine ⟨Nat.le_of_eq hg, fun i s hs hgen => ?_⟩
  simp only [setSlot_slots] at hs
  split at hs
  · rename_i hi
    cases hs
    exact ⟨hi, hid.trans own.symm⟩
  · have := h.generation hs
    omega

end CollatedStore.Registry
