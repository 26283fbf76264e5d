import CollatedStore.Proofs.Registry.Operations

/-!
Giving everything back. Once every registration has ended, every environment is forgotten and what
was handed out is reclaimed, no slot is left occupied, in whatever order that was done.
-/
namespace CollatedStore

/-- What was a slot may have lost its enrolment, users, or its mark, and has gained nothing. -/
structure Slot.Wanes (t s : Slot) : Prop where
  id : t.id = s.id
  generation : t.generation = s.generation
  enrolment : s.enrolment = none → t.enrolment = none
  users : ∀ site ∈ t.users, site ∈ s.users
  exported : s.exported = false → t.exported = false

theorem Slot.Wanes.refl (s : Slot) : s.Wanes s :=
  ⟨rfl, rfl, fun none => none, fun _ there => there, fun unmarked => unmarked⟩

theorem Slot.Wanes.trans {u t s : Slot} (h : u.Wanes t) (h' : t.Wanes s) : u.Wanes s where
  id := h.id.trans h'.id
  generation := h.generation.trans h'.generation
  enrolment none := h.enrolment (h'.enrolment none)
  users site there := h'.users site (h.users site there)
  exported unmarked := h.exported (h'.exported unmarked)

namespace Registry

/-! ## Registries that lose slots -/

/-- Every slot that is occupied was so before, with all that it has now. -/
def Wanes (r' r : Registry) : Prop :=
  ∀ i t, r'.slots i = some t → ∃ s, r.slots i = some s ∧ t.Wanes s

/-- Every occupied slot satisfies `p`. -/
def All (p : Slot → Prop) (r : Registry) : Prop := ∀ i s, r.slots i = some s → p s

/-- A slot that satisfies `p` does so for as long as it only loses. -/
def Lasting (p : Slot → Prop) : Prop := ∀ t s : Slot, t.Wanes s → p s → p t

theorem lasting_context_over (id : ContextId) :
    Lasting fun s => s.id = id → s.enrolment = none := by
  intro t s wanes ended own
  exact wanes.enrolment (ended (wanes.id.symm.trans own))

theorem lasting_registration_over (generation : Nat) :
    Lasting fun s => s.generation = generation → s.enrolment = none := by
  intro t s wanes ended own
  exact wanes.enrolment (ended (wanes.generation.symm.trans own))

theorem lasting_left (envId : UInt64) : Lasting fun s => ∀ site ∈ s.users, site.envId ≠ envId := by
  intro t s wanes left site used
  exact left site (wanes.users site used)

theorem lasting_unmarked (id : ContextId) :
    Lasting fun s => s.id = id → s.exported = false := by
  intro t s wanes unmarked own
  exact wanes.exported (unmarked (wanes.id.symm.trans own))

section
variable {r r' r'' : Registry} {i : SlotIndex}

theorem Wanes.refl (r : Registry) : Wanes r r := fun _ t ht => ⟨t, ht, .refl t⟩

theorem Wanes.trans (h : Wanes r'' r') (h' : Wanes r' r) : Wanes r'' r := by
  intro i u hu
  obtain ⟨t, ht, later⟩ := h i u hu
  obtain ⟨s, hs, earlier⟩ := h' i t ht
  exact ⟨s, hs, later.trans earlier⟩

theorem Wanes.all (h : Wanes r' r) {p : Slot → Prop} (lasting : Lasting p) (all : All p r) :
    All p r' := by
  intro i t ht
  obtain ⟨s, hs, wanes⟩ := h i t ht
  exact lasting t s wanes (all i s hs)

theorem modifySlot_wanes (r : Registry) (i : SlotIndex) {f : Slot → Slot}
    (wanes : ∀ s, (f s).Wanes s) : Wanes (r.modifySlot i f) r := by
  intro j t ht
  obtain ⟨s, hs, rfl⟩ := modifySlot_eq_some ht
  refine ⟨s, hs, ?_⟩
  split
  · exact wanes s
  · exact .refl s

theorem sweep_wanes (r : Registry) (i : SlotIndex) : Wanes (r.sweep i) r := by
  intro j t ht
  obtain same | ⟨_, _, _, _, _, freed⟩ := sweep_cases r i
  · rw [same] at ht
    exact ⟨t, ht, .refl t⟩
  · rw [freed, setSlot_slots] at ht
    split at ht
    · cases ht
    · exact ⟨t, ht, .refl t⟩

theorem retire_wanes (r : Registry) (id : ContextId) (i : SlotIndex) : Wanes (r.retire id i) r := by
  apply (sweep_wanes _ i).trans
  exact modifySlot_wanes { r with byId := r.byId.erase id } i fun s =>
    ⟨rfl, rfl, fun _ => rfl, fun _ there => there, fun unmarked => unmarked⟩

theorem unmark_wanes (r : Registry) (i : SlotIndex) :
    Wanes (r.modifySlot i fun s => { s with exported := false }) r :=
  modifySlot_wanes r i fun _ =>
    ⟨rfl, rfl, fun none => none, fun _ there => there, fun _ => rfl⟩

theorem forgetSite_wanes (linked : Linked r) (site : Site) : Wanes (r.forgetSite site) r := by
  have recorded : Wanes (r.record site none).2 r := by
    intro j t ht
    rw [record_slots linked] at ht
    obtain ⟨s, hs, rfl⟩ := Option.map_eq_some_iff.mp ht
    exact ⟨s, hs, rfl, rfl, fun none => none, fun _ there => List.mem_of_mem_erase there,
      fun unmarked => unmarked⟩
  obtain kept | ⟨i, swept⟩ := forgetSite_cases r site
  · rw [kept]; exact recorded
  · rw [swept]; exact (sweep_wanes _ i).trans recorded

theorem forgetEnvironment_wanes (linked : Linked r) (envId : UInt64) :
    Wanes (r.forgetEnvironment envId).2 r := by
  unfold Registry.forgetEnvironment
  generalize r.installs.keys.filter _ = sites
  induction sites generalizing r with
  | nil => exact .refl r
  | cons site rest ih =>
    exact (ih (linked.forgetSite site)).trans (forgetSite_wanes linked site)

/-! ## What is over after a clean-up call -/

/-- The registration in a slot that is retired is over, whether or not the slot stays. -/
theorem retire_ends {id : ContextId} {t : Slot} (ht : (r.retire id i).slots i = some t) :
    t.enrolment = none := by
  obtain ⟨u, hu, swept⟩ := sweep_wanes (r.unbind id i) i i t ht
  rw [unbind_slots, if_pos rfl] at hu
  obtain ⟨s, _, rfl⟩ := Option.map_eq_some_iff.mp hu
  exact swept.enrolment rfl

/-- A context that is deregistered has no live slot, and nor has one that was not registered. -/
theorem deregister_ends (linked : Linked r) {id : ContextId} (hr : r.deregister id = .ok r') :
    All (fun s => s.id = id → s.enrolment = none) r' := by
  intro j t ht own
  obtain ⟨i, bound, rfl⟩ := deregister_eq_ok linked hr
  obtain ⟨s, hs, hid, _⟩ := (linked.byId id i).mp bound
  obtain ⟨s', hs', retired⟩ := retire_wanes r id i j t ht
  obtain rfl : j = i := linked.ids hs' hs (retired.id.symm.trans (own.trans hid.symm))
  exact retire_ends ht

theorem unregistered_ends (linked : Linked r) {id : ContextId} {e : CallError}
    (hr : r.deregister id = .error e) : All (fun s => s.id = id → s.enrolment = none) r := by
  intro j t ht own
  cases he : t.enrolment with
  | none => rfl
  | some e =>
    have live := (linked.live? id j e).mpr ⟨t, ht, own, he⟩
    simp [deregister, live] at hr

/-- The registration that a guard came from is over once the guard is dropped. -/
theorem release_ends {g : Guard} (named : Names r g) :
    All (fun s => s.generation = g.generation → s.enrolment = none) (r.release g) := by
  intro j t ht own
  unfold release at ht
  split at ht
  · obtain ⟨s, hs, retired⟩ := retire_wanes r g.id g.slot j t ht
    obtain ⟨rfl, _⟩ := named.2 j s hs (retired.generation.symm.trans own)
    exact retire_ends ht
  · rename_i ended
    obtain ⟨rfl, _⟩ := named.2 j t ht own
    simpa [ht, own] using ended

/-- No slot is used by an environment that is forgotten. -/
theorem forgetEnvironment_leaves (linked : Linked r) (envId : UInt64) :
    All (fun s => ∀ site ∈ s.users, site.envId ≠ envId) (r.forgetEnvironment envId).2 := by
  intro i t ht site used own
  have after := ((linked.forgetEnvironment envId).installs site i).mpr ⟨t, ht, used⟩
  obtain ⟨s, hs, wanes⟩ := forgetEnvironment_wanes linked envId i t ht
  have before := (linked.installs site i).mpr ⟨s, hs, wanes.users site used⟩
  have there : site ∈ r.installs.keys.filter fun site => site.envId == envId := by
    apply List.mem_filter.mpr
    refine ⟨Table.mem_keys_of_get? before, ?_⟩
    simpa using own
  rw [show (r.forgetEnvironment envId).2.installs.get? site = none from
    (forgetSites_installs _ r site).trans (if_pos there)] at after
  cases after

/-- A slot that is given up and unused loses its mark. -/
theorem reclaim_unmarks (linked : Linked r) {id : ContextId}
    (left : All (fun s => s.id = id → s.enrolment = none ∧ s.users = []) r) :
    ∃ freed r', r.reclaim id = .ok (freed, r') ∧
      All (fun s => s.id = id → s.exported = false) r' := by
  unfold reclaim
  cases found : r.released? id with
  | none =>
    refine ⟨false, r, rfl, fun i s hs own => ?_⟩
    have none_left := findSlot?_none found i
    simp [hs, Slot.releasedBy, (left i s hs own).1, own] at none_left
  | some i =>
    have here := findSlot?_some found
    cases hs : r.slots i with
    | none => simp [hs] at here
    | some s =>
      have released : s.enrolment = none ∧ s.id = id := by
        simpa [hs, Slot.releasedBy] using here
      have unused : (((r.slots i).map Slot.users).getD []).isEmpty = true := by
        simp [hs, (left i s hs released.2).2]
      dsimp only
      rw [if_pos unused]
      refine ⟨true, _, rfl, fun j t ht own => ?_⟩
      obtain ⟨u, hu, swept⟩ := sweep_wanes _ i j t ht
      obtain ⟨s', hs', rfl⟩ := modifySlot_eq_some hu
      apply swept.exported
      have own' : s'.id = id := by
        obtain ⟨s'', hs'', unmarked⟩ := unmark_wanes r i j _ hu
        rw [hs'] at hs''
        cases hs''
        exact unmarked.id.symm.trans (swept.id.symm.trans own)
      obtain rfl : j = i := linked.ids hs' hs (own'.trans released.2.symm)
      simp

end

/-! ## Clean-up calls in any order -/

/-- Does the operation only end something? -/
def Operation.letsGo : Operation → Bool
  | .deregister _ | .drop _ | .reclaim _ | .forgetEnvironment _ => true
  | _ => false

namespace Registrar

section
variable {o : Registrar} {operation : Operation} {operations : List Operation}

theorem perform_wanes (h : Sound o) (lets : operation.letsGo = true) :
    Wanes (o.perform operation).registry o.registry := by
  cases operation with
  | deregister id =>
    simp only [perform]
    cases hr : o.registry.deregister id with
    | error e => exact .refl _
    | ok r =>
      obtain ⟨i, _, rfl⟩ := deregister_eq_ok h.linked hr
      exact retire_wanes _ id i
  | drop g =>
    simp only [perform]
    split
    · rename_i held
      obtain same | ⟨_, retired⟩ := release_cases h.linked (h.names g held)
      · rw [same]; exact .refl _
      · rw [retired]; exact retire_wanes _ g.id g.slot
    · exact .refl _
  | reclaim id =>
    simp only [perform]
    cases hr : o.registry.reclaim id with
    | error e => exact .refl _
    | ok freed =>
      obtain same | ⟨i, swept⟩ := reclaim_cases hr
      · simp only [Except.map, adopt, same]
        exact .refl _
      · simp only [Except.map, adopt, swept]
        exact (sweep_wanes _ i).trans (unmark_wanes _ i)
  | forgetEnvironment envId => exact forgetEnvironment_wanes h.linked envId
  | _ => cases lets

theorem run_wanes (h : Sound o) (only : ∀ op ∈ operations, Operation.letsGo op = true) :
    Wanes (o.run operations).registry o.registry := by
  induction operations generalizing o with
  | nil => exact .refl _
  | cons op rest ih =>
    have later := ih (perform_sound h op) fun x hx => only x (List.mem_cons_of_mem op hx)
    exact later.trans (perform_wanes h (only op List.mem_cons_self))

theorem run_append (o : Registrar) (before after : List Operation) :
    o.run (before ++ after) = (o.run before).run after := List.foldl_append

/-- What one operation brings about, and none can undo, holds in the end. -/
theorem run_all {before after : List Operation} {p : Slot → Prop} (h : Sound o)
    (only : ∀ op ∈ before ++ operation :: after, Operation.letsGo op = true) (lasting : Lasting p)
    (done : All p ((o.run before).perform operation).registry) :
    All p (o.run (before ++ operation :: after)).registry := by
  rw [run_append]
  have only_after : ∀ op ∈ after, Operation.letsGo op = true :=
    fun op hop => only op (List.mem_append_right _ (List.mem_cons_of_mem _ hop))
  have sound := perform_sound (run_sound h before) operation
  exact (run_wanes sound only_after).all lasting done

/-- A guard is held until it is dropped, and with that its registration is over. -/
theorem run_guard (h : Sound o) (only : ∀ op ∈ operations, Operation.letsGo op = true) {g : Guard}
    (held : g ∈ o.guards) : g ∈ (o.run operations).guards ∨
      All (fun s => s.generation = g.generation → s.enrolment = none)
        (o.run operations).registry := by
  induction operations generalizing o with
  | nil => exact .inl held
  | cons op rest ih =>
    have sound := perform_sound h op
    have others : ∀ x ∈ rest, Operation.letsGo x = true :=
      fun x hx => only x (List.mem_cons_of_mem op hx)
    have lets := only op List.mem_cons_self
    have adopted : ∀ attempt, g ∈ (o.adopt attempt).guards := by
      intro attempt
      cases attempt <;> exact held
    cases op with
    | deregister id => exact ih sound others (adopted _)
    | reclaim id => exact ih sound others (adopted _)
    | forgetEnvironment envId => exact ih sound others held
    | drop g' =>
      by_cases own : g = g'
      · subst own
        right
        refine (run_wanes sound others).all (lasting_registration_over _) ?_
        simp only [perform, if_pos held]
        exact release_ends (h.names g held)
      · apply ih sound others
        simp only [perform]
        split
        · exact (List.mem_erase_of_ne own).mpr held
        · exact held
    | _ => cases lets

/-- The operation ends the registration of `id`. -/
inductive Ends (o : Registrar) (id : ContextId) : Operation → Prop
  | deregister : Ends o id (.deregister id)
  | drop {g : Guard} {s : Slot} (held : g ∈ o.guards) (here : o.registry.slots g.slot = some s)
      (own : s.id = id) (current : s.generation = g.generation) : Ends o id (.drop g)

theorem Ends.ended {id : ContextId} (ends : o.Ends id operation) (h : Sound o)
    (only : ∀ op ∈ operations, Operation.letsGo op = true) (there : operation ∈ operations) :
    All (fun s => s.id = id → s.enrolment = none) (o.run operations).registry := by
  obtain ⟨before, after, rfl⟩ := List.append_of_mem there
  have sound := run_sound h before
  cases ends with
  | deregister =>
    refine run_all h only (lasting_context_over id) ?_
    simp only [perform]
    cases hr : (o.run before).registry.deregister id with
    | ok r => exact deregister_ends sound.linked hr
    | error e => exact unregistered_ends sound.linked hr
  | @drop g s held here own current =>
    have ended : All (fun s => s.generation = g.generation → s.enrolment = none)
        (o.run (before ++ .drop g :: after)).registry := by
      refine run_all h only (lasting_registration_over _) ?_
      have only_before : ∀ op ∈ before, Operation.letsGo op = true :=
        fun op hop => only op (List.mem_append_left _ hop)
      obtain still | ended := run_guard h only_before held
      · simp only [perform, if_pos still]
        exact release_ends (sound.names g still)
      · have lets : (Operation.drop g).letsGo = true := rfl
        exact (perform_wanes sound lets).all (lasting_registration_over _) ended
    intro i t ht same
    obtain ⟨s', hs, wanes⟩ := run_wanes h only i t ht
    -- The slot is the one that the guard names.
    obtain rfl : i = g.slot := h.linked.ids hs here (wanes.id.symm.trans (same.trans own.symm))
    rw [here] at hs
    cases hs
    exact ended _ t ht (wanes.generation.trans current)

theorem run_forgets (h : Sound o) (only : ∀ op ∈ operations, Operation.letsGo op = true)
    {envId : UInt64} (there : .forgetEnvironment envId ∈ operations) :
    All (fun s => ∀ site ∈ s.users, site.envId ≠ envId) (o.run operations).registry := by
  obtain ⟨before, after, rfl⟩ := List.append_of_mem there
  refine run_all h only (lasting_left envId) ?_
  exact forgetEnvironment_leaves (run_sound h before).linked envId

/-- Once its registration is over and its environments are forgotten, no one uses a slot. -/
theorem run_leaves (h : Sound o) (only : ∀ op ∈ operations, Operation.letsGo op = true)
    {i : SlotIndex} {s : Slot} (hs : o.registry.slots i = some s)
    (ended : o.registry.isRegistered s.id = true → ∃ op ∈ operations, o.Ends s.id op)
    (forgotten : ∀ site ∈ s.users, .forgetEnvironment site.envId ∈ operations) :
    All (fun t => t.id = s.id → t.enrolment = none ∧ t.users = []) (o.run operations).registry := by
  intro j t ht own
  obtain ⟨s', hs', wanes⟩ := run_wanes h only j t ht
  obtain rfl : j = i := h.linked.ids hs' hs (wanes.id.symm.trans own)
  rw [hs] at hs'
  cases hs'
  constructor
  · cases he : s.enrolment with
    | none => exact wanes.enrolment he
    | some e =>
      have live := (h.linked.live? s.id j e).mpr ⟨s, hs, rfl, he⟩
      obtain ⟨op, there, ends⟩ := ended (Option.isSome_iff_exists.mpr ⟨_, live⟩)
      exact ends.ended h only there j t ht own
  · apply List.eq_nil_iff_forall_not_mem.mpr
    intro site used
    exact run_forgets h only (forgotten site (wanes.users site used)) j t ht site used rfl

/-- The clean-up is complete: every registered context ends, every environment that an installation
is recorded for is forgotten, and every slot that was handed out is reclaimed, by when it is no
longer registered or used. -/
structure CleansUp (o : Registrar) (operations : List Operation) : Prop where
  only : ∀ op ∈ operations, op.letsGo = true
  contexts : ∀ id, o.registry.isRegistered id = true → ∃ op ∈ operations, o.Ends id op
  environments : ∀ site i, o.registry.installs.get? site = some i →
    .forgetEnvironment site.envId ∈ operations
  exports : ∀ i s, o.registry.slots i = some s → s.exported = true →
    ∃ before after, operations = before ++ .reclaim s.id :: after ∧
      (o.registry.isRegistered s.id = true → ∃ op ∈ before, o.Ends s.id op) ∧
      ∀ site ∈ s.users, .forgetEnvironment site.envId ∈ before

theorem CleansUp.unmarks (cleans : CleansUp o operations) (h : Sound o) {i : SlotIndex} {s : Slot}
    (hs : o.registry.slots i = some s) (exported : s.exported = true) :
    All (fun t => t.id = s.id → t.exported = false) (o.run operations).registry := by
  obtain ⟨before, after, rfl, ended, forgotten⟩ := cleans.exports i s hs exported
  have only_before : ∀ op ∈ before, Operation.letsGo op = true :=
    fun op hop => cleans.only op (List.mem_append_left _ hop)
  refine run_all h cleans.only (lasting_unmarked s.id) ?_
  have left := run_leaves h only_before hs ended forgotten
  obtain ⟨freed, r, hr, unmarked⟩ := reclaim_unmarks (run_sound h before).linked left
  simp only [perform, hr, Except.map, adopt]
  exact unmarked

/-- No slot is left: it would be idle, and those are freed at once. -/
theorem CleansUp.frees (cleans : CleansUp o operations) (h : Sound o) (i : SlotIndex) :
    (o.run operations).registry.slots i = none := by
  cases ht : (o.run operations).registry.slots i with
  | none => rfl
  | some t =>
    exfalso
    obtain ⟨s, hs, wanes⟩ := run_wanes h cleans.only i t ht
    have forgotten : ∀ site ∈ s.users, .forgetEnvironment site.envId ∈ operations := by
      intro site used
      exact cleans.environments site i ((h.linked.installs site i).mpr ⟨s, hs, used⟩)
    have left := run_leaves h cleans.only hs (cleans.contexts s.id) forgotten i t ht wanes.id
    have unmarked : t.exported = false := by
      cases exported : s.exported with
      | false => exact wanes.exported exported
      | true => exact cleans.unmarks h hs exported i t ht wanes.id
    apply (run_sound h operations).swept i t ht
    simp [Slot.idle, left.1, left.2, unmarked]

end

end Registrar

/-- **No slot is lost for good**: from wherever any sequence of operations has led a registry, a
complete clean-up frees all 32 slots, whatever the order of its calls. -/
theorem clean_up_frees_every_slot (history operations : List Operation)
    (cleans : (Registrar.new.run history).CleansUp operations) :
    ((Registrar.new.run history).run operations).registry.freeSlots = 32 ∧
      ((Registrar.new.run history).run operations).registry.contextCount = 0 := by
  have sound := Registrar.run_sound Registrar.new_sound history
  have frees := cleans.frees sound
  generalize run : (Registrar.new.run history).run operations = o at frees
  have linked : Linked o.registry := run ▸ (Registrar.run_sound sound operations).linked
  have free : o.registry.freeSlots = slotCount := by
    unfold freeSlots
    rw [List.countP_eq_length.mpr fun i _ => by simp [frees i], List.length_finRange]
  have total := slots_add_up o.registry
  refine ⟨free, ?_⟩
  rw [linked.contextCount]
  omega

theorem clean_up_frees_every_slot_handed_out_and_in_use :
    let o := Registrar.new.run [.register ⟨7⟩ (.ofOrder Order.reverse), .exportFn (.context ⟨7⟩),
      .install ⟨1, 1, .keys⟩ (.context ⟨7⟩) true, .register ⟨8⟩ (.ofOrder Order.baseline)]
    let cleaned := o.run
      [.drop ⟨⟨8⟩, ⟨1, by decide⟩, 2⟩, .deregister ⟨7⟩, .forgetEnvironment 1, .reclaim ⟨7⟩]
    o.registry.freeSlots = 30 ∧ cleaned.registry.freeSlots = 32 ∧
      cleaned.registry.contextCount = 0 := by
  intro o cleaned
  refine ⟨by decide +kernel, clean_up_frees_every_slot _ _ ?_⟩
  have sound : o.Sound := Registrar.run_sound Registrar.new_sound _
  have registered : ∀ id, o.registry.isRegistered id = true → id = ⟨8⟩ ∨ id = ⟨7⟩ := by
    intro id live
    obtain ⟨⟨i, e⟩, live⟩ := Option.isSome_iff_exists.mp live
    obtain ⟨s, hs, own, he⟩ := (sound.linked.live? id i e).mp live
    have bound := (sound.linked.byId id i).mpr ⟨s, hs, own, by simp [he]⟩
    have there : id ∈ [⟨8⟩, ⟨7⟩] := Table.mem_keys_of_get? bound
    simpa using there
  have installed : ∀ site i, o.registry.installs.get? site = some i → site = ⟨1, 1, .keys⟩ := by
    intro site i here
    exact List.mem_singleton.mp (Table.mem_keys_of_get? here)
  have handed : ∀ i s, o.registry.slots i = some s → s.exported = true → s.id = ⟨7⟩ := by
    intro i s hs exported
    have all : ∀ i, (o.registry.slots i).all (fun s => !s.exported || s.id == ⟨7⟩) = true := by
      decide +kernel
    have this_one := all i
    rw [hs] at this_one
    simpa [exported] using this_one
  have ends : ∀ operations : List Operation, .deregister ⟨7⟩ ∈ operations →
      ∃ op ∈ operations, o.Ends ⟨7⟩ op :=
    fun _ there => ⟨_, there, .deregister⟩
  constructor
  case only => decide
  case contexts =>
    intro id live
    obtain rfl | rfl := registered id live
    · exact ⟨_, List.mem_cons_self, .drop List.mem_cons_self rfl rfl rfl⟩
    · exact ends _ (by simp)
  case environments =>
    intro site i here
    obtain rfl := installed site i here
    simp
  case exports =>
    intro i s hs exported
    rw [handed i s hs exported]
    refine ⟨[_, _, _], [], rfl, fun _ => ends _ (by simp), fun site used => ?_⟩
    obtain rfl := installed site i ((sound.linked.installs site i).mpr ⟨s, hs, used⟩)
    simp

end Registry

end CollatedStore
