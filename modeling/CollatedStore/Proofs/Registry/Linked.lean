import CollatedStore.Registry.Install

/-!
The registry's tables tell one story: ids, slots and installation records agree at every moment,
also between the record of an installation and the store's answer.
-/
namespace CollatedStore.Registry

/-- A slot belongs to one id, an id owns one slot, and a record of use stands on both sides. -/
structure Linked (r : Registry) : Prop where
  byId : ∀ id i, r.byId.get? id = some i ↔
    ∃ s, r.slots i = some s ∧ s.id = id ∧ s.enrolment.isSome = true
  ids : ∀ {i j s t}, r.slots i = some s → r.slots j = some t → s.id = t.id → i = j
  installs : ∀ site i, r.installs.get? site = some i ↔ ∃ s, r.slots i = some s ∧ site ∈ s.users
  users : ∀ {i s}, r.slots i = some s → s.users.Nodup
  generation : ∀ {i s}, r.slots i = some s → s.generation ≤ r.generation
  generations : ∀ {i j s t}, r.slots i = some s → r.slots j = some t →
    s.generation = t.generation → i = j

/-- `site` uses slot `i`, which belongs to `id`. -/
def Pins (r : Registry) (site : Site) (i : SlotIndex) (id : ContextId) : Prop :=
  r.installs.get? site = some i ∧ (r.slots i).map Slot.id = some id

/-- A guard's generation stands in no slot but its own, and there only with its id. -/
def Names (r : Registry) (g : Guard) : Prop :=
  g.generation ≤ r.generation ∧
    ∀ i s, r.slots i = some s → s.generation = g.generation → i = g.slot ∧ s.id = g.id

/-- No registration has begun since `r`, though some may have ended. -/
def Descends (r' r : Registry) : Prop :=
  r'.generation = r.generation ∧ ∀ i t, r'.slots i = some t →
    ∃ s, r.slots i = some s ∧ t.id = s.id ∧ t.generation = s.generation

theorem Descends.refl (r : Registry) : Descends r r := ⟨rfl, fun _ t ht => ⟨t, ht, rfl, rfl⟩⟩

theorem Descends.trans {r r' r'' : Registry} (h : Descends r'' r') (h' : Descends r' r) :
    Descends r'' r := by
  refine ⟨h.1.trans h'.1, fun i u hu => ?_⟩
  obtain ⟨t, ht, hid, hg⟩ := h.2 i u hu
  obtain ⟨s, hs, hid', hg'⟩ := h'.2 i t ht
  exact ⟨s, hs, hid.trans hid', hg.trans hg'⟩

theorem Names.descend {r r' : Registry} {g : Guard} (h : Names r g) (d : Descends r' r) :
    Names r' g := by
  refine ⟨d.1 ▸ h.1, fun i t ht hg => ?_⟩
  obtain ⟨s, hs, hid, hsg⟩ := d.2 i t ht
  have own := h.2 i s hs (hsg ▸ hg)
  exact ⟨own.1, hid.trans own.2⟩

/-- What remains to be shown where no registration begins. -/
theorem Linked.descend {r r' : Registry} (h : Linked r) (d : Descends r' r)
    (byId : ∀ id i, r'.byId.get? id = some i ↔
      ∃ s, r'.slots i = some s ∧ s.id = id ∧ s.enrolment.isSome = true)
    (installs : ∀ site i, r'.installs.get? site = some i ↔
      ∃ s, r'.slots i = some s ∧ site ∈ s.users)
    (users : ∀ {i s}, r'.slots i = some s → s.users.Nodup) : Linked r' where
  byId := byId
  installs := installs
  users := users
  ids ha hb hid := by
    obtain ⟨s, hs, hsid, _⟩ := d.2 _ _ ha
    obtain ⟨t, ht, htid, _⟩ := d.2 _ _ hb
    exact h.ids hs ht (hsid ▸ htid ▸ hid)
  generation ha := by
    obtain ⟨s, hs, _, hg⟩ := d.2 _ _ ha
    exact hg ▸ d.1 ▸ h.generation hs
  generations ha hb hg := by
    obtain ⟨s, hs, _, hsg⟩ := d.2 _ _ ha
    obtain ⟨t, ht, _, htg⟩ := d.2 _ _ hb
    exact h.generations hs ht (hsg ▸ htg ▸ hg)

/-! ## Changing one slot -/

@[simp] theorem setSlot_slots (r : Registry) (i j : SlotIndex) (s : Option Slot) :
    (r.setSlot i s).slots j = if j = i then s else r.slots j := rfl

theorem modifySlot_slots (r : Registry) (i j : SlotIndex) (f : Slot → Slot) :
    (r.modifySlot i f).slots j = if j = i then (r.slots j).map f else r.slots j := by
  by_cases h : j = i
  · subst h; simp [modifySlot]
  · simp [modifySlot, h]

theorem modifySlot_eq_some {r : Registry} {i j : SlotIndex} {f : Slot → Slot} {t : Slot}
    (h : (r.modifySlot i f).slots j = some t) :
    ∃ s, r.slots j = some s ∧ t = if j = i then f s else s := by
  rw [modifySlot_slots] at h
  split at h
  · rename_i hj
    obtain ⟨s, hs, rfl⟩ := Option.map_eq_some_iff.mp h
    exact ⟨s, hs, by simp [hj]⟩
  · rename_i hj
    exact ⟨t, h, by simp [hj]⟩

theorem modifySlot_descends (r : Registry) (i : SlotIndex) {f : Slot → Slot}
    (id : ∀ s, (f s).id = s.id) (generation : ∀ s, (f s).generation = s.generation) :
    Descends (r.modifySlot i f) r := by
  refine ⟨rfl, fun j t ht => ?_⟩
  obtain ⟨s, hs, rfl⟩ := modifySlot_eq_some ht
  refine ⟨s, hs, ?_, ?_⟩
  · split
    · exact id s
    · rfl
  · split
    · exact generation s
    · rfl

theorem modifySlot_pins {r : Registry} {site : Site} {j : SlotIndex} {id : ContextId}
    (h : Pins r site j id) (i : SlotIndex) {f : Slot → Slot} (keeps : ∀ s, (f s).id = s.id) :
    Pins (r.modifySlot i f) site j id := by
  refine ⟨h.1, ?_⟩
  rw [modifySlot_slots]
  split
  · rw [Option.map_map, show Slot.id ∘ f = Slot.id from funext keeps]
    exact h.2
  · exact h.2

theorem new_linked : Linked new where
  byId := by simp [new]
  ids := by simp [new]
  installs := by simp [new]
  users := by simp [new]
  generation := by simp [new]
  generations := by simp [new]

/-! ## Sweeping -/

theorem sweep_cases (r : Registry) (i : SlotIndex) :
    r.sweep i = r ∨ ∃ s, r.slots i = some s ∧ s.enrolment = none ∧ s.users = [] ∧
      s.exported = false ∧ r.sweep i = r.setSlot i none := by
  unfold sweep
  cases hs : r.slots i with
  | none => exact Or.inl rfl
  | some s =>
    cases hidle : s.idle with
    | false => exact Or.inl (by simp [hidle])
    | true =>
      simp only [Slot.idle, Bool.and_eq_true, Option.isNone_iff_eq_none, List.isEmpty_iff,
        Bool.not_eq_true'] at hidle
      obtain ⟨⟨released, unused⟩, unexported⟩ := hidle
      exact Or.inr ⟨s, rfl, released, unused, unexported, by
        simp [Slot.idle, released, unused, unexported]⟩

theorem sweep_byId (r : Registry) (i : SlotIndex) : (r.sweep i).byId = r.byId := by
  unfold sweep
  split <;> rfl

theorem sweep_installs (r : Registry) (i : SlotIndex) : (r.sweep i).installs = r.installs := by
  unfold sweep
  split <;> rfl

theorem sweep_single (r : Registry) (i : SlotIndex) : (r.sweep i).single = r.single := by
  unfold sweep
  split <;> rfl

theorem sweep_settings (r : Registry) (i : SlotIndex) : (r.sweep i).settings = r.settings := by
  unfold sweep
  split <;> rfl

theorem sweep_slots_self {r : Registry} {i : SlotIndex} {s : Slot} (hs : r.slots i = some s) :
    (r.sweep i).slots i = if s.idle = true then none else some s := by
  unfold sweep
  rw [hs, Option.any_some]
  split
  · exact if_pos rfl
  · exact hs

theorem sweep_slots_of_ne (r : Registry) {i j : SlotIndex} (h : j ≠ i) :
    (r.sweep i).slots j = r.slots j := by
  unfold sweep
  split
  · exact if_neg h
  · rfl

theorem vacate_descends (r : Registry) (i : SlotIndex) : Descends (r.setSlot i none) r := by
  refine ⟨rfl, fun j t ht => ?_⟩
  rw [setSlot_slots] at ht
  split at ht
  · cases ht
  · exact ⟨t, ht, rfl, rfl⟩

theorem sweep_descends (r : Registry) (i : SlotIndex) : Descends (r.sweep i) r := by
  obtain same | ⟨_, _, _, _, _, freed⟩ := sweep_cases r i
  · rw [same]; exact .refl r
  · rw [freed]; exact vacate_descends r i

theorem Linked.sweep {r : Registry} (h : Linked r) (i : SlotIndex) : Linked (r.sweep i) := by
  obtain same | ⟨s, hs, released, unused, _, freed⟩ := sweep_cases r i
  · rwa [same]
  · rw [freed]
    have gone : ∀ {j t}, (r.setSlot i none).slots j = some t ↔ j ≠ i ∧ r.slots j = some t := by
      intro j t; rw [setSlot_slots]; split <;> simp_all
    refine h.descend (vacate_descends r i) (fun id j => ?_) (fun site j => ?_)
      (fun ht => h.users (gone.mp ht).2)
    · refine (h.byId id j).trans ⟨?_, ?_⟩
      · rintro ⟨t, ht, hid, live⟩
        refine ⟨t, gone.mpr ⟨?_, ht⟩, hid, live⟩
        rintro rfl
        rw [hs] at ht; cases ht
        simp [released] at live
      · rintro ⟨t, ht, hid, live⟩
        exact ⟨t, (gone.mp ht).2, hid, live⟩
    · refine (h.installs site j).trans ⟨?_, ?_⟩
      · rintro ⟨t, ht, hsite⟩
        refine ⟨t, gone.mpr ⟨?_, ht⟩, hsite⟩
        rintro rfl
        rw [hs] at ht; cases ht
        simp [unused] at hsite
      · rintro ⟨t, ht, hsite⟩
        exact ⟨t, (gone.mp ht).2, hsite⟩

theorem Pins.sweep {r : Registry} {site : Site} {j : SlotIndex} {id : ContextId}
    (pins : Pins r site j id) (h : Linked r) (i : SlotIndex) : Pins (r.sweep i) site j id := by
  obtain same | ⟨s, hs, _, unused, _, freed⟩ := sweep_cases r i
  · rwa [same]
  · obtain ⟨t, ht, hsite⟩ := (h.installs site j).mp pins.1
    have hj : j ≠ i := by
      rintro rfl
      rw [hs] at ht; cases ht
      simp [unused] at hsite
    rw [freed]
    exact ⟨pins.1, by simpa [hj] using pins.2⟩

end CollatedStore.Registry
