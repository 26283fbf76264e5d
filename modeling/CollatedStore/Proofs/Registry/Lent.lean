import CollatedStore.Foreign
import CollatedStore.Proofs.Registry.Operations

/-!
Orders that stay lent. While a registration lasts, no operation on the registry changes the function
that stands for it, nor the collation that this function runs.
-/
namespace CollatedStore

/-! ## Lending an order -/

/-- The sign by which `n` reports an order. -/
def SignOf : Ordering → Int32 → Prop
  | .lt, n => n < 0
  | .eq, n => n = 0
  | .gt, n => 0 < n

instance (o : Ordering) (n : Int32) : Decidable (SignOf o n) :=
  match o with
  | .lt => inferInstanceAs (Decidable (n < 0))
  | .eq => inferInstanceAs (Decidable (n = 0))
  | .gt => inferInstanceAs (Decidable (0 < n))

/-- Only the sign counts, the smallest integer included. -/
theorem SignOf.ofCode {o : Ordering} {n : Int32} (h : SignOf o n) : Order.ofCode n = o := by
  unfold Order.ofCode
  cases o with
  | lt => exact if_pos h
  | eq =>
    have zero : n = 0 := h
    subst zero
    decide
  | gt =>
    have above : 0 < n := h
    have not_below : ¬ n < 0 := Int32.lt_asymm above
    have not_zero : n ≠ 0 := fun zero => Int32.lt_irrefl (zero ▸ above)
    rw [if_neg not_below, if_neg not_zero]

/-- A collation lends the order `f`: it is `f`, or a callback that reports the signs of `f`. -/
inductive Collation.Lends (f : Order) : Collation → Prop
  | order : Lends f (.ofOrder f)
  | callback {report : Bytes → Bytes → Int32} (signs : ∀ a b, SignOf (f a b) (report a b)) :
      Lends f (.ofCallback report)

theorem Collation.Lends.answers {f : Order} {collation : Collation} (h : collation.Lends f)
    (a b : Bytes) : collation a b = .ok (f a b) := by
  cases h with
  | order => rfl
  | callback signs => exact congrArg Except.ok (signs a b).ofCode

theorem Enrolment.judge_lends {e : Enrolment} {f : Order} (h : e.collation.Lends f) (a b : Bytes) :
    e.judge a b = .sound (f a b) := by
  rw [Enrolment.judge, h.answers]

namespace Registry

/-! ## What an operation can leave -/

/-- Every collation of `r'` was there in `r`, in the same slot and for the same context. -/
structure Narrows (r' r : Registry) : Prop where
  single : ∀ e, r'.single = some e → r.single = some e
  slots : ∀ i t e, r'.slots i = some t → t.enrolment = some e →
    ∃ s, r.slots i = some s ∧ s.id = t.id ∧ s.enrolment = some e

theorem Narrows.refl (r : Registry) : Narrows r r :=
  ⟨fun _ h => h, fun _ t _ ht he => ⟨t, ht, rfl, he⟩⟩

theorem Narrows.trans {r r' r'' : Registry} (h : Narrows r'' r') (h' : Narrows r' r) :
    Narrows r'' r := by
  refine ⟨fun e he => h'.single e (h.single e he), fun i u e hu he => ?_⟩
  obtain ⟨t, ht, hid, he⟩ := h.slots i u e hu he
  obtain ⟨s, hs, hid', he⟩ := h'.slots i t e ht he
  exact ⟨s, hs, hid'.trans hid, he⟩

theorem modifySlot_narrows (r : Registry) (i : SlotIndex) (f : Slot → Slot)
    (id : ∀ s, (f s).id = s.id)
    (kept : ∀ s e, (f s).enrolment = some e → s.enrolment = some e) :
    Narrows (r.modifySlot i f) r := by
  refine ⟨fun e h => h, fun j t e ht he => ?_⟩
  obtain ⟨s, hs, rfl⟩ := modifySlot_eq_some ht
  split at he
  · exact ⟨s, hs, by rw [if_pos ‹_›, id], kept s e he⟩
  · exact ⟨s, hs, by rw [if_neg ‹_›], he⟩

theorem sweep_narrows (r : Registry) (i : SlotIndex) : Narrows (r.sweep i) r := by
  obtain same | ⟨_, _, _, _, _, freed⟩ := sweep_cases r i
  · rw [same]
    exact .refl r
  · rw [freed]
    refine ⟨fun e h => h, fun j t e ht he => ?_⟩
    rw [setSlot_slots] at ht
    split at ht
    · cases ht
    · exact ⟨t, ht, rfl, he⟩

theorem retire_narrows (r : Registry) (id : ContextId) (i : SlotIndex) :
    Narrows (r.retire id i) r := by
  have emptied := modifySlot_narrows { r with byId := r.byId.erase id } i
    (fun s => { s with enrolment := none }) (fun _ => rfl) nofun
  have unbound : Narrows (r.unbind id i) r := ⟨emptied.single, emptied.slots⟩
  exact (sweep_narrows _ i).trans unbound

theorem mark_narrows (r : Registry) (i : SlotIndex) (exported : Bool) :
    Narrows (r.modifySlot i fun s => { s with exported }) r :=
  modifySlot_narrows r i _ (fun _ => rfl) fun _ _ h => h

theorem record_narrows {r : Registry} (h : Linked r) (site : Site) (slot : Option SlotIndex) :
    Narrows (r.record site slot).2 r := by
  refine ⟨fun e he => (record_single r site slot) ▸ he, fun i t e ht he => ?_⟩
  rw [record_slots h] at ht
  obtain ⟨s, hs, rfl⟩ := Option.map_eq_some_iff.mp ht
  exact ⟨s, hs, rfl, he⟩

theorem sweepUnless_narrows (r : Registry) (slot other : Option SlotIndex) :
    Narrows (r.sweepUnless slot other) r := by
  obtain same | ⟨i, swept⟩ := sweepUnless_cases r slot other
  · rw [same]
    exact .refl r
  · rw [swept]
    exact sweep_narrows r i

theorem install_narrows {r r' : Registry} (h : Linked r) {site : Site} {mode : Dispatch}
    {i : Installing} (hb : r.beginInstall site mode = .ok (i, r')) (taken : Bool) :
    Narrows (r'.endInstall i taken) r := by
  have linked := h.beginInstall hb
  obtain ⟨_, _, _, rfl⟩ := beginInstall_eq_ok hb
  have recorded := record_narrows h site i.slot
  cases taken with
  | true => exact (sweepUnless_narrows _ _ _).trans recorded
  | false =>
    exact ((sweepUnless_narrows _ _ _).trans (record_narrows linked i.site i.previous)).trans
      recorded

theorem forgetEnvironment_narrows {r : Registry} (h : Linked r) (envId : UInt64) :
    Narrows (r.forgetEnvironment envId).2 r := by
  unfold Registry.forgetEnvironment
  generalize r.installs.keys.filter _ = sites
  induction sites generalizing r with
  | nil => exact .refl r
  | cons site rest ih =>
    have first : Narrows (r.forgetSite site) r := by
      rw [forgetSite_eq]
      exact (sweepUnless_narrows _ _ _).trans (record_narrows h site none)
    exact (ih (h.forgetSite site)).trans first

/-! ## Registrations that last -/

/-- What is registered after a step in which nothing was registered was so before. -/
theorem Narrows.was_live? {r r' : Registry} (n : Narrows r' r) (h : Linked r) (h' : Linked r')
    {id : ContextId} {i : SlotIndex} {e : Enrolment} (live : r'.live? id = some (i, e)) :
    r.live? id = some (i, e) := by
  obtain ⟨t, ht, hid, he⟩ := (h'.live? id i e).mp live
  obtain ⟨s, hs, hid', he⟩ := n.slots i t e ht he
  exact (h.live? id i e).mpr ⟨s, hs, hid'.trans hid, he⟩

theorem register_live? {r r' : Registry} {id : ContextId} {collation : Collation} {g : Guard}
    (hr : r.register id collation = .ok (g, r')) :
    r'.live? id = some (g.slot, ⟨collation, r.settings.policy⟩) := by
  unfold register at hr
  split at hr
  · cases hr
  · split at hr
    · cases hr
    · rename_i i found
      cases hr
      cases hs : r.slots i with
      | none => simp [Registry.live?, setSlot]
      | some s => simp [Registry.live?, setSlot]

/-- A registration leaves the other contexts alone. -/
theorem register_other_live? {r r' : Registry} (h : Linked r) {id other : ContextId}
    {collation : Collation} {g : Guard} (hr : r.register id collation = .ok (g, r'))
    (apart : other ≠ id) : r'.live? other = r.live? other := by
  obtain ⟨_, _, _, t, rfl, _, _, _, taken⟩ := register_eq_ok hr
  have byId : (r.byId.insert id g.slot).get? other = r.byId.get? other := by
    rw [Table.get?_insert, if_neg apart]
  cases found : r.byId.get? other with
  | none => simp [Registry.live?, byId, found]
  | some i =>
    have away : i ≠ g.slot := by
      rintro rfl
      obtain ⟨s, hs, _, live⟩ := (h.byId other g.slot).mp found
      obtain ⟨u, hu, released, _⟩ | ⟨empty, _⟩ := taken
      · rw [hs] at hu
        cases hu
        rw [released] at live
        cases live
      · rw [hs] at empty
        cases empty
    simp [Registry.live?, byId, found, setSlot_slots, away]

namespace Registrar

section
variable {o : Registrar} {id : ContextId} {i : SlotIndex} {e : Enrolment}

/-- A collation is new after an operation only if the operation registered it. -/
theorem perform_cases (h : Sound o) (operation : Operation) :
    Narrows (o.perform operation).registry o.registry ∨
      (∃ id collation g, operation = .register id collation ∧
        o.registry.register id collation = .ok (g, (o.perform operation).registry)) ∨
      ∃ collation, operation = .registerSingle collation ∧
        o.registry.registerSingle collation = .ok (o.perform operation).registry := by
  have change := perform_change h operation
  generalize (o.perform operation).registry = r at change
  cases change with
  | nothing operation => exact .inl (.refl _)
  | configure settings => exact .inl ⟨fun _ h => h, (Narrows.refl o.registry).slots⟩
  | clearSingle => exact .inl ⟨nofun, (Narrows.refl o.registry).slots⟩
  | registerSingle registered => exact .inr (.inr ⟨_, rfl, registered⟩)
  | register registered => exact .inr (.inl ⟨_, _, _, rfl, registered⟩)
  | deregister bound | drop bound => exact .inl (retire_narrows _ _ _)
  | install begun taken => exact .inl (install_narrows h.linked begun taken)
  | exportFn handed =>
    obtain rfl | ⟨i, rfl⟩ := exportFn_cases handed
    · exact .inl (.refl _)
    · exact .inl (mark_narrows _ i true)
  | reclaim reclaimed =>
    obtain rfl | ⟨i, rfl⟩ := reclaim_cases reclaimed
    · exact .inl (.refl _)
    · exact .inl ((sweep_narrows _ i).trans (mark_narrows _ i false))
  | forgetEnvironment envId => exact .inl (forgetEnvironment_narrows h.linked envId)

/-- A context that is registered after an operation was so before, or has just been registered. -/
theorem perform_live?_cases (h : Sound o) {operation : Operation}
    (live : (o.perform operation).registry.live? id = some (i, e)) :
    o.registry.live? id = some (i, e) ∨ ∃ collation g, operation = .register id collation ∧
      o.registry.register id collation = .ok (g, (o.perform operation).registry) ∧
      g.slot = i ∧ e = ⟨collation, o.registry.settings.policy⟩ := by
  obtain narrows | ⟨other, collation, g, rfl, made⟩ | ⟨collation, rfl, made⟩ :=
    perform_cases h operation
  · exact .inl (narrows.was_live? h.linked (perform_sound h operation).linked live)
  · by_cases same : id = other
    · subst same
      rw [register_live? made] at live
      cases live
      exact .inr ⟨collation, g, rfl, made, rfl, rfl⟩
    · rw [register_other_live? h.linked made same] at live
      exact .inl live
  · obtain ⟨_, tables⟩ := registerSingle_eq_ok made
    rw [tables] at live
    exact .inl live

/-- A registration stays as it is for as long as its context is registered. -/
theorem perform_live? (h : Sound o) {operation : Operation}
    (live : o.registry.live? id = some (i, e))
    (still : (o.perform operation).registry.isRegistered id = true) :
    (o.perform operation).registry.live? id = some (i, e) := by
  obtain ⟨⟨j, e'⟩, live'⟩ := Option.isSome_iff_exists.mp still
  obtain before | ⟨collation, g, _, made, _, _⟩ := perform_live?_cases h live'
  · rw [live', ← before, live]
  · obtain ⟨vacant, _⟩ := register_eq_ok made
    simp [Registry.live?, vacant] at live

theorem perform_single_cases (h : Sound o) {operation : Operation}
    (there : (o.perform operation).registry.single = some e) :
    o.registry.single = some e ∨ ∃ collation, operation = .registerSingle collation ∧
      o.registry.registerSingle collation = .ok (o.perform operation).registry ∧
      e = ⟨collation, o.registry.settings.policy⟩ := by
  obtain narrows | ⟨id, collation, g, rfl, made⟩ | ⟨collation, rfl, made⟩ :=
    perform_cases h operation
  · exact .inl (narrows.single e there)
  · obtain ⟨_, _, _, t, tables, _⟩ := register_eq_ok made
    rw [tables] at there
    exact .inl there
  · obtain ⟨_, tables⟩ := registerSingle_eq_ok made
    rw [tables] at there
    exact .inr ⟨collation, rfl, made, (Option.some.inj there).symm⟩

theorem perform_single (h : Sound o) {operation : Operation} (there : o.registry.single = some e)
    (still : (o.perform operation).registry.single.isSome = true) :
    (o.perform operation).registry.single = some e := by
  obtain ⟨e', there'⟩ := Option.isSome_iff_exists.mp still
  obtain before | ⟨collation, _, made, _⟩ := perform_single_cases h there'
  · rw [there', ← before, there]
  · rw [(registerSingle_eq_ok made).1] at there
    cases there

end

end Registrar

/-! ## Orders that were lent -/

/-- `f` has been lent under `mode` and is still registered. `fn` is the function of that mode. -/
inductive Lent : Order → Registrar → Dispatch → CompareFn → Prop
  /-- The baseline order is there without being registered. -/
  | baseline (before : List Operation) :
      Lent Order.baseline (Registrar.new.run before) .baseline .baseline
  | single {f : Order} (before : List Operation) {collation : Collation} {r : Registry}
      (lends : collation.Lends f)
      (registered : (Registrar.new.run before).registry.registerSingle collation = .ok r) :
      Lent f ⟨r, (Registrar.new.run before).guards⟩ .single .single
  | context {f : Order} (before : List Operation) {id : ContextId} {collation : Collation}
      {g : Guard} {r : Registry} (lends : collation.Lends f)
      (registered : (Registrar.new.run before).registry.register id collation = .ok (g, r)) :
      Lent f ⟨r, g :: (Registrar.new.run before).guards⟩ (.context id) (.slot g.slot)
  /-- Whatever is asked of the registry, if it leaves the mode registered. -/
  | later {f : Order} {o : Registrar} {mode : Dispatch} {fn : CompareFn} (lent : Lent f o mode fn)
      (operation : Operation) (still : ((o.perform operation).registry.resolve mode).isOk = true) :
      Lent f (o.perform operation) mode fn

/-- What a registry holds of an order that is lent. -/
inductive Held (f : Order) (r : Registry) : Dispatch → CompareFn → Prop
  | baseline (standard : f = Order.baseline) : Held f r .baseline .baseline
  | single {e : Enrolment} (held : r.single = some e) (lends : e.collation.Lends f) :
      Held f r .single .single
  | context {id : ContextId} {i : SlotIndex} {e : Enrolment} (live : r.live? id = some (i, e))
      (lends : e.collation.Lends f) : Held f r (.context id) (.slot i)

section
variable {f : Order} {r : Registry} {mode : Dispatch} {fn : CompareFn}

theorem isRegistered_of_resolve {id : ContextId} (h : (r.resolve (.context id)).isOk = true) :
    r.isRegistered id = true := by
  rw [resolve] at h
  rw [isRegistered]
  cases live : r.live? id with
  | some held => rfl
  | none =>
    rw [live] at h
    cases h

theorem single_of_resolve (h : (r.resolve .single).isOk = true) : r.single.isSome = true := by
  rw [resolve] at h
  split at h
  · assumption
  · cases h

/-- One operation, if it leaves the mode registered, leaves the same order lent there. -/
theorem Held.perform {o : Registrar} (h : o.Sound) (held : Held f o.registry mode fn)
    (operation : Operation)
    (still : ((o.perform operation).registry.resolve mode).isOk = true) :
    Held f (o.perform operation).registry mode fn := by
  cases held with
  | baseline standard => exact .baseline standard
  | single held lends =>
    exact .single (Registrar.perform_single h held (single_of_resolve still)) lends
  | context live lends =>
    exact .context (Registrar.perform_live? h live (isRegistered_of_resolve still)) lends

/-- **What is lent stays lent** while it is registered. -/
theorem Lent.held {o : Registrar} (lent : Lent f o mode fn) :
    o.Sound ∧ Held f o.registry mode fn := by
  induction lent with
  | baseline before =>
    exact ⟨Registrar.run_sound Registrar.new_sound before, .baseline rfl⟩
  | @single f before collation r lends registered =>
    have sound := Registrar.perform_sound (Registrar.run_sound Registrar.new_sound before)
      (.registerSingle collation)
    simp only [Registrar.perform, registered, Registrar.adopt] at sound
    refine ⟨sound, ?_⟩
    unfold registerSingle at registered
    split at registered
    · cases registered
    · cases registered
      exact .single rfl lends
  | @context f before id collation g r lends registered =>
    have sound := Registrar.perform_sound (Registrar.run_sound Registrar.new_sound before)
      (.register id collation)
    simp only [Registrar.perform, registered] at sound
    exact ⟨sound, .context (register_live? registered) lends⟩
  | later lent operation still ih =>
    exact ⟨Registrar.perform_sound ih.1 operation, ih.2.perform ih.1 operation still⟩

/-- The mode stands for its function. -/
theorem Held.resolve (held : Held f r mode fn) : ∃ slot, r.resolve mode = .ok (fn, slot) := by
  cases held with
  | baseline standard => exact ⟨none, rfl⟩
  | single held lends => exact ⟨none, by rw [Registry.resolve, held]; rfl⟩
  | @context id i e live lends => exact ⟨some i, by rw [Registry.resolve, live]⟩

/-- Whichever mode it is, its function compares as the order does, without a fault. -/
theorem Held.judge (held : Held f r mode fn) (h : Linked r) (a b : Bytes) :
    r.judge fn a b = .sound (f a b) := by
  cases held with
  | baseline standard => rw [standard, Registry.judge]
  | single held lends =>
    rw [Registry.judge, judgeSingle, held]
    exact Enrolment.judge_lends lends a b
  | @context id i e live lends =>
    obtain ⟨s, hs, _, he⟩ := (h.live? id i e).mp live
    simp only [Registry.judge, judgeSlot, hs, he]
    exact Enrolment.judge_lends lends a b

theorem Held.judgeContext {id : ContextId} (held : Held f r (.context id) fn) (a b : Bytes) :
    r.judgeContext id a b = .sound (f a b) := by
  cases held with
  | context live lends =>
    rw [Registry.judgeContext, live]
    exact Enrolment.judge_lends lends a b

end

end Registry

end CollatedStore
