import CollatedStore.Proofs.Registry.Registration
import Mathlib.Data.List.Nodup

/-!
Installing, handing out, reclaiming and forgetting keep the tables linked. An installation moves one
site, and a refused one puts it back.
-/
namespace CollatedStore.Registry

/-! ## Handing out and reclaiming -/

theorem mark_descends (r : Registry) (i : SlotIndex) (exported : Bool) :
    Descends (r.modifySlot i fun s => { s with exported }) r :=
  modifySlot_descends r i (fun _ => rfl) fun _ => rfl

theorem Linked.mark {r : Registry} (h : Linked r) (i : SlotIndex) (exported : Bool) :
    Linked (r.modifySlot i fun s => { s with exported }) := by
  refine h.descend (mark_descends r i exported) (fun id j => ?_) (fun site j => ?_) fun ht => ?_
  · refine (h.byId id j).trans ?_
    rw [modifySlot_slots]
    split
    · cases r.slots j <;> simp
    · rfl
  · refine (h.installs site j).trans ?_
    rw [modifySlot_slots]
    split
    · cases r.slots j <;> simp
    · rfl
  · obtain ⟨s, hs, rfl⟩ := modifySlot_eq_some ht
    split
    · exact h.users (s := s) hs
    · exact h.users hs

/-- Handing out a function marks at most the slot it comes from. -/
theorem exportFn_cases {r r' : Registry} {mode : Dispatch} {fn : CompareFn}
    (h : r.exportFn mode = .ok (fn, r')) :
    r' = r ∨ ∃ i, r' = r.modifySlot i fun s => { s with exported := true } := by
  unfold exportFn at h
  split at h
  · cases h
  · cases h; exact Or.inl rfl
  · cases h; exact Or.inr ⟨_, rfl⟩

/-- Reclaiming takes the mark off at most one slot. -/
theorem reclaim_cases {r r' : Registry} {id : ContextId} {freed : Bool}
    (h : r.reclaim id = .ok (freed, r')) :
    r' = r ∨ ∃ i, r' = (r.modifySlot i fun s => { s with exported := false }).sweep i := by
  unfold reclaim at h
  split at h
  · cases h; exact Or.inl rfl
  · dsimp only at h
    split at h
    · cases h; exact Or.inr ⟨_, rfl⟩
    · cases h

/-! ## Records of use -/

/-- Beside the slots, recording changes what the site is recorded on. -/
theorem record_tables (r : Registry) (site : Site) (slot : Option SlotIndex) :
    (r.record site slot).2.byId = r.byId ∧ (r.record site slot).2.generation = r.generation ∧
      (r.record site slot).2.installs =
        slot.elim (r.installs.erase site) (r.installs.insert site) := by
  cases slot with
  | none => simp only [record]; split <;> exact ⟨rfl, rfl, rfl⟩
  | some i =>
    simp only [record]
    split
    · split <;> exact ⟨rfl, rfl, rfl⟩
    · exact ⟨rfl, rfl, rfl⟩

theorem record_single (r : Registry) (site : Site) (slot : Option SlotIndex) :
    (r.record site slot).2.single = r.single := by
  cases slot with
  | none => simp only [record]; split <;> rfl
  | some i =>
    simp only [record]
    split
    · split <;> rfl
    · rfl

theorem record_settings (r : Registry) (site : Site) (slot : Option SlotIndex) :
    (r.record site slot).2.settings = r.settings := by
  cases slot with
  | none => simp only [record]; split <;> rfl
  | some i =>
    simp only [record]
    split
    · split <;> rfl
    · rfl

theorem record_installs (r : Registry) (site x : Site) (slot : Option SlotIndex) :
    (r.record site slot).2.installs.get? x = if x = site then slot else r.installs.get? x := by
  obtain ⟨_, _, kept⟩ := record_tables r site slot
  rw [kept]
  cases slot with
  | none => exact Table.get?_erase _ _ _
  | some i => exact Table.get?_insert _ _ _ _

/-- Recording a site takes it off every other slot. -/
theorem record_slots {r : Registry} (h : Linked r) (site : Site) (slot : Option SlotIndex)
    (j : SlotIndex) :
    (r.record site slot).2.slots j = (r.slots j).map fun s =>
      { s with users := if slot = some j then s.users.insert site else s.users.erase site } := by
  cases hs : r.slots j with
  | none =>
    cases slot <;> cases hp : r.installs.get? site <;> simp only [record, hp]
    · exact hs
    · simp [modifySlot_slots, hs]
    · simp [modifySlot_slots, hs]
    · split <;> simp [modifySlot_slots, hs]
  | some s =>
    have elsewhere : r.installs.get? site ≠ some j → s.users.erase site = s.users := by
      intro hne
      exact List.erase_of_not_mem fun hmem => hne ((h.installs site j).mpr ⟨s, hs, hmem⟩)
    cases hp : r.installs.get? site with
    | none =>
      rw [hp] at elsewhere
      cases slot with
      | none => simp [record, hp, hs, elsewhere]
      | some i =>
        by_cases hj : i = j
        · subst hj; simp [record, hp, modifySlot_slots, hs]
        · simp [record, hp, modifySlot_slots, hs, hj, Ne.symm hj, elsewhere]
    | some p =>
      rw [hp] at elsewhere
      by_cases hjp : p = j
      · subst hjp
        cases slot with
        | none => simp [record, hp, modifySlot_slots, hs]
        | some i =>
          by_cases hj : i = p
          · subst hj; simp [record, hp, modifySlot_slots, hs]
          · simp [record, hp, modifySlot_slots, hs, hj, Ne.symm hj]
      · cases slot with
        | none => simp [record, hp, modifySlot_slots, hs, elsewhere, hjp, Ne.symm hjp]
        | some i =>
          by_cases hj : i = j
          · subst hj; simp [record, hp, modifySlot_slots, hs, Ne.symm hjp]
          · by_cases hip : i = p
            · subst hip; simp [record, hp, modifySlot_slots, hs, hj, Ne.symm hj, elsewhere]
            · simp [record, hp, modifySlot_slots, hs, hip, hj, Ne.symm hj, hjp, Ne.symm hjp,
                elsewhere]

theorem record_descends {r : Registry} (h : Linked r) (site : Site) (slot : Option SlotIndex) :
    Descends (r.record site slot).2 r := by
  refine ⟨(record_tables r site slot).2.1, fun j t ht => ?_⟩
  rw [record_slots h] at ht
  obtain ⟨s, hs, rfl⟩ := Option.map_eq_some_iff.mp ht
  exact ⟨s, hs, rfl, rfl⟩

theorem Linked.record {r : Registry} (h : Linked r) (site : Site) {slot : Option SlotIndex}
    (occupied : ∀ i, slot = some i → (r.slots i).isSome = true) :
    Linked (r.record site slot).2 := by
  have d := record_descends h site slot
  refine h.descend d (fun id j => ?_) (fun x j => ?_) fun {j t} ht => ?_
  · rw [(record_tables r site slot).1, h.byId, record_slots h]
    cases r.slots j <;> simp
  · rw [record_installs, record_slots h]
    by_cases hx : x = site
    · subst hx
      simp only [↓reduceIte]
      constructor
      · rintro rfl
        obtain ⟨s, hs⟩ := Option.isSome_iff_exists.mp (occupied j rfl)
        exact ⟨_, by rw [hs]; rfl, by simp⟩
      · rintro ⟨t, ht, hmem⟩
        obtain ⟨s, hs, rfl⟩ := Option.map_eq_some_iff.mp ht
        by_cases hj : slot = some j
        · exact hj
        · simp only [hj, ↓reduceIte] at hmem
          exact absurd hmem (h.users hs).not_mem_erase
    · simp only [hx, ↓reduceIte, h.installs]
      cases hs : r.slots j with
      | none => simp
      | some s =>
        simp only [Option.some.injEq, exists_eq_left', Option.map_some]
        split
        · simp [hx]
        · rw [List.mem_erase_of_ne hx]
  · rw [record_slots h] at ht
    obtain ⟨s, hs, rfl⟩ := Option.map_eq_some_iff.mp ht
    dsimp only
    split
    · exact List.Nodup.insert (h.users hs)
    · exact (h.users hs).erase site

theorem record_owner {r : Registry} (h : Linked r) (site : Site) (slot : Option SlotIndex)
    (j : SlotIndex) :
    ((r.record site slot).2.slots j).map Slot.id = (r.slots j).map Slot.id := by
  rw [record_slots h, Option.map_map]
  rfl

theorem Pins.record_other {r : Registry} {site x : Site} {j : SlotIndex} {id : ContextId}
    (pins : Pins r x j id) (h : Linked r) (slot : Option SlotIndex) (hx : x ≠ site) :
    Pins (r.record site slot).2 x j id :=
  ⟨by rw [record_installs, if_neg hx]; exact pins.1, by rw [record_owner h]; exact pins.2⟩

theorem record_pins {r : Registry} (h : Linked r) (site : Site) {i : SlotIndex} {id : ContextId}
    (owner : (r.slots i).map Slot.id = some id) : Pins (r.record site (some i)).2 site i id :=
  ⟨by rw [record_installs, if_pos rfl], by rw [record_owner h]; exact owner⟩

/-! ## Installing -/

theorem sweepUnless_cases (r : Registry) (slot other : Option SlotIndex) :
    r.sweepUnless slot other = r ∨ ∃ i, r.sweepUnless slot other = r.sweep i := by
  unfold sweepUnless
  split
  · split
    · exact Or.inl rfl
    · exact Or.inr ⟨_, rfl⟩
  · exact Or.inl rfl

theorem sweepUnless_settings (r : Registry) (slot other : Option SlotIndex) :
    (r.sweepUnless slot other).settings = r.settings := by
  obtain same | ⟨i, swept⟩ := sweepUnless_cases r slot other
  · rw [same]
  · rw [swept, sweep_settings]

theorem Linked.sweepUnless {r : Registry} (h : Linked r) (slot other : Option SlotIndex) :
    Linked (r.sweepUnless slot other) := by
  obtain same | ⟨i, swept⟩ := sweepUnless_cases r slot other
  · rwa [same]
  · rw [swept]; exact h.sweep i

theorem sweepUnless_descends (r : Registry) (slot other : Option SlotIndex) :
    Descends (r.sweepUnless slot other) r := by
  obtain same | ⟨i, swept⟩ := sweepUnless_cases r slot other
  · rw [same]; exact .refl r
  · rw [swept]; exact sweep_descends r i

theorem Pins.sweepUnless {r : Registry} {site : Site} {j : SlotIndex} {id : ContextId}
    (pins : Pins r site j id) (h : Linked r) (slot other : Option SlotIndex) :
    Pins (r.sweepUnless slot other) site j id := by
  obtain same | ⟨i, swept⟩ := sweepUnless_cases r slot other
  · rwa [same]
  · rw [swept]; exact pins.sweep h i

/-- The slot that a mode stands for is that of a registered context. -/
theorem resolve_slot {r : Registry} (h : Linked r) {mode : Dispatch} {fn : CompareFn}
    {i : SlotIndex} (hr : r.resolve mode = .ok (fn, some i)) :
    ∃ id s, mode = .context id ∧ fn = .slot i ∧ r.slots i = some s ∧ s.id = id := by
  cases mode with
  | baseline => simp [resolve] at hr
  | single =>
    simp only [resolve] at hr
    split at hr <;> simp at hr
  | context id =>
    simp only [resolve] at hr
    split at hr
    · rename_i j e live
      simp only [Except.ok.injEq, Prod.mk.injEq, Option.some.injEq] at hr
      obtain ⟨rfl, rfl⟩ := hr
      obtain ⟨s, hs, hid, _⟩ := (h.live? id j e).mp live
      exact ⟨id, s, rfl, rfl, hs, hid⟩
    · cases hr

theorem resolve_context {r : Registry} {id : ContextId} {fn : CompareFn} {slot : Option SlotIndex}
    (hr : r.resolve (.context id) = .ok (fn, slot)) : ∃ i, slot = some i := by
  simp only [resolve] at hr
  split at hr
  · cases hr; exact ⟨_, rfl⟩
  · cases hr

theorem beginInstall_eq_ok {r r' : Registry} {site : Site} {mode : Dispatch} {i : Installing}
    (h : r.beginInstall site mode = .ok (i, r')) :
    i.site = site ∧ r.resolve mode = .ok (i.fn, i.slot) ∧ i.previous = r.installs.get? site ∧
      r' = (r.record site i.slot).2 := by
  unfold beginInstall at h
  split at h
  · cases h
  · rename_i fn slot resolved
    cases h
    exact ⟨rfl, resolved, rfl, rfl⟩

section
variable {r r' : Registry} {site : Site} {mode : Dispatch} {i : Installing}

theorem Linked.beginInstall (h : Linked r) (hb : r.beginInstall site mode = .ok (i, r')) :
    Linked r' := by
  obtain ⟨_, resolved, _, rfl⟩ := beginInstall_eq_ok hb
  refine h.record site fun j hj => ?_
  rw [hj] at resolved
  obtain ⟨_, s, _, _, hs, _⟩ := resolve_slot h resolved
  simp [hs]

theorem previous_occupied (h : Linked r) (hb : r.beginInstall site mode = .ok (i, r')) :
    ∀ j, i.previous = some j → (r'.slots j).isSome = true := by
  obtain ⟨_, _, previous, rfl⟩ := beginInstall_eq_ok hb
  intro j hj
  obtain ⟨s, hs, _⟩ := (h.installs site j).mp (previous ▸ hj)
  simp [record_slots h, hs]

theorem Linked.install (h : Linked r) (hb : r.beginInstall site mode = .ok (i, r'))
    (taken : Bool) : Linked (r'.endInstall i taken) := by
  have h' := h.beginInstall hb
  cases taken with
  | true => exact h'.sweepUnless _ _
  | false => exact (h'.record i.site (previous_occupied h hb)).sweepUnless _ _

theorem install_descends (h : Linked r) (hb : r.beginInstall site mode = .ok (i, r'))
    (taken : Bool) : Descends (r'.endInstall i taken) r := by
  have h' := h.beginInstall hb
  obtain ⟨_, _, _, rfl⟩ := beginInstall_eq_ok hb
  refine .trans ?_ (record_descends h site i.slot)
  cases taken with
  | true => exact sweepUnless_descends _ _ _
  | false =>
    exact (sweepUnless_descends _ _ _).trans (record_descends h' i.site i.previous)

theorem install_settings (hb : r.beginInstall site mode = .ok (i, r')) (taken : Bool) :
    (r'.endInstall i taken).settings = r.settings := by
  obtain ⟨_, _, _, rfl⟩ := beginInstall_eq_ok hb
  cases taken with
  | true => exact (sweepUnless_settings _ _ _).trans (record_settings _ _ _)
  | false =>
    calc ((r.record site i.slot).2.endInstall i false).settings
        = ((r.record site i.slot).2.record i.site i.previous).2.settings :=
          sweepUnless_settings _ _ _
      _ = (r.record site i.slot).2.settings := record_settings _ _ _
      _ = r.settings := record_settings _ _ _

/-- Whatever the store answers, the other sites keep their slots. -/
theorem Pins.install_other {x : Site} {j : SlotIndex} {id : ContextId} (pins : Pins r x j id)
    (h : Linked r) (hb : r.beginInstall site mode = .ok (i, r')) (taken : Bool) (hx : x ≠ site) :
    Pins (r'.endInstall i taken) x j id := by
  have h' := h.beginInstall hb
  have back := h'.record i.site (previous_occupied h hb)
  obtain ⟨hsite, _, _, rfl⟩ := beginInstall_eq_ok hb
  have moved := pins.record_other h i.slot hx
  cases taken with
  | true => exact moved.sweepUnless h' _ _
  | false => exact (moved.record_other h' i.previous (hsite ▸ hx)).sweepUnless back _ _

/-- A refused installation leaves its site on the slot it used before. -/
theorem Pins.install_refused {j : SlotIndex} {id : ContextId} (pins : Pins r site j id)
    (h : Linked r) (hb : r.beginInstall site mode = .ok (i, r')) :
    Pins (r'.endInstall i false) site j id := by
  have h' := h.beginInstall hb
  have back := h'.record i.site (previous_occupied h hb)
  obtain ⟨hsite, _, previous, rfl⟩ := beginInstall_eq_ok hb
  rw [pins.1] at previous
  have owner : ((r.record site i.slot).2.slots j).map Slot.id = some id := by
    rw [record_owner h]; exact pins.2
  have restored := record_pins h' i.site owner
  rw [hsite] at restored
  refine Pins.sweepUnless ?_ back _ _
  rw [hsite, previous]
  exact restored

/-- An installation that the store has taken puts its site on the slot of the mode's context. -/
theorem install_pins {id : ContextId} (h : Linked r)
    (hb : r.beginInstall site (.context id) = .ok (i, r')) :
    ∃ j, i.fn = .slot j ∧ Pins (r'.endInstall i true) site j id := by
  have h' := h.beginInstall hb
  obtain ⟨_, resolved, _, rfl⟩ := beginInstall_eq_ok hb
  obtain ⟨j, hj⟩ := resolve_context resolved
  rw [hj] at resolved
  obtain ⟨_, s, hmode, hfn, hs, hid⟩ := resolve_slot h resolved
  cases hmode
  have pins : Pins (r.record site i.slot).2 site j id := by
    rw [hj]
    exact record_pins h site (by simp [hs, hid])
  exact ⟨j, hfn, pins.sweepUnless h' _ _⟩

end

/-! ## Forgetting -/

theorem forgetSite_cases (r : Registry) (site : Site) :
    r.forgetSite site = (r.record site none).2 ∨
      ∃ i, r.forgetSite site = (r.record site none).2.sweep i := by
  unfold forgetSite
  split
  · rename_i i r' h
    exact Or.inr ⟨i, by rw [h]⟩
  · rename_i r' h
    exact Or.inl (by rw [h])

theorem forgetSite_installs (r : Registry) (site x : Site) :
    (r.forgetSite site).installs.get? x = if x = site then none else r.installs.get? x := by
  rw [← record_installs]
  obtain kept | ⟨i, swept⟩ := forgetSite_cases r site
  · rw [kept]
  · rw [swept, sweep_installs]

theorem forgetSites_installs (sites : List Site) (r : Registry) (x : Site) :
    (sites.foldl forgetSite r).installs.get? x = if x ∈ sites then none else r.installs.get? x := by
  induction sites generalizing r with
  | nil => simp
  | cons site rest ih =>
    rw [List.foldl_cons, ih, forgetSite_installs]
    by_cases later : x ∈ rest
    · simp [later]
    · simp [later]

/-- Beside the slots and the records nothing is touched. -/
theorem forgetSites_tables (sites : List Site) (r : Registry) :
    (sites.foldl forgetSite r).byId = r.byId ∧ (sites.foldl forgetSite r).single = r.single ∧
      (sites.foldl forgetSite r).settings = r.settings ∧
      (sites.foldl forgetSite r).generation = r.generation := by
  induction sites generalizing r with
  | nil => exact ⟨rfl, rfl, rfl, rfl⟩
  | cons site rest ih =>
    obtain ⟨byId, single, settings, generation⟩ := ih (r.forgetSite site)
    rw [List.foldl_cons, byId, single, settings, generation]
    obtain kept | ⟨i, swept⟩ := forgetSite_cases r site
    · rw [kept, record_single, record_settings]
      exact ⟨(record_tables r site none).1, rfl, rfl, (record_tables r site none).2.1⟩
    · rw [swept, sweep_byId, sweep_single, sweep_settings, record_single, record_settings]
      exact ⟨(record_tables r site none).1, rfl, rfl,
        (sweep_descends _ i).1.trans (record_tables r site none).2.1⟩

theorem Linked.forgetSite {r : Registry} (h : Linked r) (site : Site) :
    Linked (r.forgetSite site) := by
  have h' := h.record site (nofun : ∀ i, none = some i → _)
  obtain kept | ⟨i, swept⟩ := forgetSite_cases r site
  · rwa [kept]
  · rw [swept]; exact h'.sweep i

theorem forgetSite_descends {r : Registry} (h : Linked r) (site : Site) :
    Descends (r.forgetSite site) r := by
  have d := record_descends h site none
  obtain kept | ⟨i, swept⟩ := forgetSite_cases r site
  · rwa [kept]
  · rw [swept]; exact (sweep_descends _ i).trans d

theorem Pins.forgetSite {r : Registry} {site x : Site} {j : SlotIndex} {id : ContextId}
    (pins : Pins r x j id) (h : Linked r) (hx : x ≠ site) : Pins (r.forgetSite site) x j id := by
  have pins' := pins.record_other h none hx
  obtain kept | ⟨i, swept⟩ := forgetSite_cases r site
  · rwa [kept]
  · rw [swept]
    exact pins'.sweep (h.record site (nofun : ∀ i, none = some i → _)) i

theorem forgetSites_spec (sites : List Site) {r : Registry} (h : Linked r) :
    Linked (sites.foldl Registry.forgetSite r) ∧
      Descends (sites.foldl Registry.forgetSite r) r ∧
      ∀ {x j id}, Pins r x j id → x ∉ sites → Pins (sites.foldl Registry.forgetSite r) x j id := by
  induction sites generalizing r with
  | nil => exact ⟨h, .refl r, fun pins _ => pins⟩
  | cons site rest ih =>
    obtain ⟨linked, d, frame⟩ := ih (h.forgetSite site)
    refine ⟨linked, d.trans (forgetSite_descends h site), fun pins hx => ?_⟩
    rw [List.mem_cons, not_or] at hx
    exact frame (pins.forgetSite h hx.1) hx.2

theorem Linked.forgetEnvironment {r : Registry} (h : Linked r) (envId : UInt64) :
    Linked (r.forgetEnvironment envId).2 :=
  (forgetSites_spec _ h).1

theorem forgetEnvironment_descends {r : Registry} (h : Linked r) (envId : UInt64) :
    Descends (r.forgetEnvironment envId).2 r :=
  (forgetSites_spec _ h).2.1

theorem Pins.forgetEnvironment {r : Registry} {x : Site} {j : SlotIndex} {id : ContextId}
    (pins : Pins r x j id) (h : Linked r) {envId : UInt64} (hx : x.envId ≠ envId) :
    Pins (r.forgetEnvironment envId).2 x j id := by
  refine (forgetSites_spec _ h).2.2 pins fun hmem => hx ?_
  simpa using (List.mem_filter.mp hmem).2

end CollatedStore.Registry
