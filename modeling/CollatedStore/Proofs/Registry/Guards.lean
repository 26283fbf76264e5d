import CollatedStore.Proofs.Registry.CleanUp

/-!
What a guard can end. Slots and ids are used again, so that a guard may outlive its registration and
find another one in its slot, even one of its own id; generations are never used again.
-/
namespace CollatedStore.Registry

/-- The registration that `g` came from is the one in its slot. -/
def Current (r : Registry) (g : Guard) : Prop :=
  ∃ s, r.slots g.slot = some s ∧ s.generation = g.generation ∧ s.enrolment.isSome = true

/-! ## Dropping one guard -/

/-- From `r` to `r'` the registration of `id` has ended, and nothing else has changed but what its
slot holds. -/
structure EndsOnly (r' r : Registry) (id : ContextId) : Prop where
  registered : r.isRegistered id = true
  ended : r'.isRegistered id = false
  others : ∀ other, other ≠ id → r'.live? other = r.live? other
  slots : ∀ i, (r.slots i).map Slot.id ≠ some id → r'.slots i = r.slots i
  installs : r'.installs = r.installs
  single : r'.single = r.single

section
variable {r r' : Registry} {id : ContextId} {i : SlotIndex} {g : Guard}

theorem retire_slots_of_ne (r : Registry) (id : ContextId) {i j : SlotIndex} (h : j ≠ i) :
    (r.retire id i).slots j = r.slots j := by
  refine (sweep_slots_of_ne (r.unbind id i) h).trans ?_
  rw [unbind_slots, if_neg h]

/-- Retiring a slot ends the registration that is there, and no other. -/
theorem retire_endsOnly (h : Linked r) (bound : r.byId.get? id = some i) :
    EndsOnly (r.retire id i) r id := by
  obtain ⟨s, hs, own, live⟩ := (h.byId id i).mp bound
  obtain ⟨e, he⟩ := Option.isSome_iff_exists.mp live
  have elsewhere : ∀ {j}, (r.slots j).map Slot.id ≠ some id → j ≠ i := by
    rintro j other rfl
    exact other (by rw [hs, Option.map_some, own])
  constructor
  case registered =>
    rw [isRegistered, (h.live? id i e).mpr ⟨s, hs, own, he⟩]
    rfl
  case ended =>
    have unbound : (r.retire id i).byId.get? id = none := by
      rw [retire, sweep_byId]
      exact Table.get?_erase_self _ _
    simp [isRegistered, Registry.live?, unbound]
  case others =>
    intro other apart
    have byId : (r.retire id i).byId.get? other = r.byId.get? other := by
      rw [retire, sweep_byId]
      exact Table.get?_erase_of_ne _ apart
    cases found : r.byId.get? other with
    | none => simp [Registry.live?, byId, found]
    | some j =>
      obtain ⟨t, ht, ho, _⟩ := (h.byId other j).mp found
      have away : j ≠ i := by
        rintro rfl
        rw [hs] at ht
        cases ht
        exact apart (ho.symm.trans own)
      simp [Registry.live?, byId, found, retire_slots_of_ne r id away]
  case slots => exact fun j other => retire_slots_of_ne r id (elsewhere other)
  case installs => exact sweep_installs _ i
  case single => exact sweep_single _ i

theorem Current.bound (current : Current r g) (h : Linked r) (named : Names r g) :
    r.byId.get? g.id = some g.slot := by
  obtain ⟨s, hs, hg, live⟩ := current
  obtain ⟨_, own⟩ := named.2 g.slot s hs hg
  exact (h.byId g.id g.slot).mpr ⟨s, hs, own, live⟩

theorem Current.release_eq (current : Current r g) : r.release g = r.retire g.id g.slot := by
  obtain ⟨s, hs, hg, live⟩ := current
  simp [Registry.release, hs, hg, live]

/-- Dropping a guard ends its registration if that is the one in its slot. -/
theorem Current.release (current : Current r g) (h : Linked r) (named : Names r g) :
    EndsOnly (r.release g) r g.id := by
  rw [current.release_eq]
  exact retire_endsOnly h (current.bound h named)

/-- Otherwise it does nothing. -/
theorem release_of_not_current (lapsed : ¬ Current r g) : r.release g = r := by
  unfold Registry.release
  split
  · rename_i there
    refine absurd ?_ lapsed
    simpa [Current, Option.any_eq_true] using there
  · rfl

theorem Current.isRegistered (current : Current r g) (h : Linked r) (named : Names r g) :
    r.isRegistered g.id = true := (current.release h named).registered

end

/-! ## What leaves a registration in force -/

section
variable {r r' : Registry} {i : SlotIndex} {g : Guard}

theorem modifySlot_current (r : Registry) (i : SlotIndex) {f : Slot → Slot}
    (generation : ∀ s, (f s).generation = s.generation)
    (enrolment : ∀ s, (f s).enrolment = s.enrolment) :
    Current (r.modifySlot i f) g ↔ Current r g := by
  unfold Current
  rw [modifySlot_slots]
  split
  · simp [generation, enrolment]
  · rfl

/-- Only slots without a registration are freed. -/
theorem sweep_current (r : Registry) (i : SlotIndex) : Current (r.sweep i) g ↔ Current r g := by
  obtain same | ⟨s, hs, released, _, _, freed⟩ := sweep_cases r i
  · rw [same]
  · rw [freed]
    unfold Current
    rw [setSlot_slots]
    split
    · rename_i here
      simp [here, hs, released]
    · rfl

theorem sweepUnless_current (r : Registry) (slot other : Option SlotIndex) :
    Current (r.sweepUnless slot other) g ↔ Current r g := by
  obtain same | ⟨i, swept⟩ := sweepUnless_cases r slot other
  · rw [same]
  · rw [swept, sweep_current]

theorem record_current (h : Linked r) (site : Site) (slot : Option SlotIndex) :
    Current (r.record site slot).2 g ↔ Current r g := by
  unfold Current
  rw [record_slots h]
  simp

theorem install_current (h : Linked r) {site : Site} {mode : Dispatch} {i : Installing}
    (hb : r.beginInstall site mode = .ok (i, r')) (taken : Bool) :
    Current (r'.endInstall i taken) g ↔ Current r g := by
  have linked := h.beginInstall hb
  obtain ⟨_, _, _, rfl⟩ := beginInstall_eq_ok hb
  cases taken with
  | true => exact (sweepUnless_current _ _ _).trans (record_current h site i.slot)
  | false =>
    calc Current (((r.record site i.slot).2.record i.site i.previous).2.sweepUnless i.slot
          i.previous) g
        ↔ Current ((r.record site i.slot).2.record i.site i.previous).2 g :=
          sweepUnless_current _ _ _
      _ ↔ Current (r.record site i.slot).2 g := record_current linked _ _
      _ ↔ Current r g := record_current h _ _

theorem exportFn_current {mode : Dispatch} {fn : CompareFn} (h : r.exportFn mode = .ok (fn, r')) :
    Current r' g ↔ Current r g := by
  obtain rfl | ⟨i, rfl⟩ := exportFn_cases h
  · rfl
  · exact modifySlot_current r i (fun _ => rfl) fun _ => rfl

theorem reclaim_current {id : ContextId} {freed : Bool} (h : r.reclaim id = .ok (freed, r')) :
    Current r' g ↔ Current r g := by
  obtain rfl | ⟨i, rfl⟩ := reclaim_cases h
  · rfl
  · rw [sweep_current]
    exact modifySlot_current r i (fun _ => rfl) fun _ => rfl

theorem forgetEnvironment_current (h : Linked r) (envId : UInt64) :
    Current (r.forgetEnvironment envId).2 g ↔ Current r g := by
  unfold Registry.forgetEnvironment
  generalize r.installs.keys.filter _ = sites
  induction sites generalizing r with
  | nil => rfl
  | cons site rest ih =>
    refine (ih (h.forgetSite site)).trans ?_
    rw [forgetSite_eq, sweepUnless_current, record_current h]

/-- A registration takes no slot that another one is in, and its generation is its own. -/
theorem register_current (named : Names r g) {id : ContextId} {collation : Collation}
    {made : Guard} (hr : r.register id collation = .ok (made, r')) :
    Current r' g ↔ Current r g := by
  obtain ⟨_, _, _, t, rfl, _, hgen, _, taken⟩ := register_eq_ok hr
  unfold Current
  rw [setSlot_slots]
  split
  · rename_i here
    have newer : t.generation ≠ g.generation := by
      have := named.1
      omega
    rw [here]
    obtain ⟨s, hs, released, _⟩ | ⟨empty, _⟩ := taken
    · simp [hs, released, newer]
    · simp [empty, newer]
  · rfl

/-- It is in force from the start. -/
theorem registered_current {id : ContextId} {collation : Collation}
    (hr : r.register id collation = .ok (g, r')) : Current r' g := by
  obtain ⟨_, _, hg, t, rfl, _, hgen, live, _⟩ := register_eq_ok hr
  exact ⟨t, by rw [setSlot_slots, if_pos rfl], hgen.trans hg.symm, live⟩

theorem retire_current (r : Registry) (id : ContextId) (i : SlotIndex) :
    Current (r.retire id i) g ↔ Current r g ∧ g.slot ≠ i := by
  have unbound : Current (r.retire id i) g ↔ Current (r.unbind id i) g :=
    sweep_current (r.unbind id i) i
  rw [unbound]
  unfold Current
  rw [unbind_slots]
  split
  · rename_i here
    simp [here]
  · rename_i away
    simp [away]

end

namespace Registrar

/-! ## Any sequence of operations -/

section
variable {o : Registrar} {g : Guard}

/-- Two registrations that are in force in one slot are the same. -/
theorem current_unique (named : Names o.registry g) (current : Current o.registry g) {g' : Guard}
    (named' : Names o.registry g') (current' : Current o.registry g') (slot : g'.slot = g.slot) :
    g' = g := by
  obtain ⟨s, hs, generation, _⟩ := current
  obtain ⟨t, ht, generation', _⟩ := current'
  have own := (named.2 g.slot s hs generation).2
  have own' := (named'.2 g'.slot t ht generation').2
  rw [slot, hs] at ht
  cases ht
  obtain ⟨_, _, _⟩ := g'
  obtain ⟨_, _, _⟩ := g
  simp_all

/-- Of all the guards that are held, its own one ends a registration. -/
theorem ends_drop_iff (h : Sound o) (named : Names o.registry g) (current : Current o.registry g)
    {g' : Guard} : o.Ends g.id (.drop g') ↔ g' = g ∧ g ∈ o.guards := by
  have ⟨s, hs, hg, live⟩ := current
  obtain ⟨_, own⟩ := named.2 g.slot s hs hg
  constructor
  · intro ends
    cases ends with
    | @drop _ t held here same generation =>
      have slot := h.linked.ids here hs (same.trans own.symm)
      have current' : Current o.registry g' := by
        rw [slot, hs] at here
        cases here
        exact ⟨s, slot ▸ hs, generation, live⟩
      obtain rfl := current_unique named current (h.names g' held) current' slot
      exact ⟨rfl, held⟩
  · rintro ⟨rfl, held⟩
    exact .drop held hs own hg

/-- Deregistering an id ends the registration that has it, and no other. -/
theorem deregister_current (h : Sound o) (named : Names o.registry g) (id : ContextId) :
    Current (o.perform (.deregister id)).registry g ↔
      Current o.registry g ∧ ¬ o.Ends g.id (.deregister id) := by
  simp only [perform]
  cases hr : o.registry.deregister id with
  | error e =>
    refine (and_iff_left_of_imp fun current ends => ?_).symm
    obtain ⟨s, hs, hg, live⟩ := current
    cases ends
    simp [unregistered_ends h.linked hr g.slot s hs (named.2 g.slot s hs hg).2] at live
  | ok r =>
    obtain ⟨i, bound, rfl⟩ := deregister_eq_ok h.linked hr
    refine (retire_current _ id i).trans (and_congr_right fun current => not_congr ?_)
    have there := current.bound h.linked named
    constructor
    · rintro rfl
      obtain ⟨s, hs, own, _⟩ := (h.linked.byId id g.slot).mp bound
      obtain ⟨t, ht, own', _⟩ := (h.linked.byId g.id g.slot).mp there
      rw [hs] at ht
      cases ht
      rw [own'.symm.trans own]
      exact .deregister
    · intro ends
      cases ends
      rw [there] at bound
      exact Option.some.inj bound

/-- Dropping a guard ends the registration that it came from, and no other. -/
theorem drop_current (h : Sound o) (named : Names o.registry g) (g' : Guard) :
    Current (o.perform (.drop g')).registry g ↔
      Current o.registry g ∧ ¬ o.Ends g.id (.drop g') := by
  simp only [perform]
  refine Iff.trans ?_ (and_congr_right fun current =>
    not_congr (ends_drop_iff h named current).symm)
  by_cases held : g' ∈ o.guards
  · rw [if_pos held]
    dsimp only
    by_cases current' : Current o.registry g'
    · rw [current'.release_eq, retire_current]
      refine and_congr_right fun current => not_congr ⟨fun slot => ?_, fun own => own.1 ▸ rfl⟩
      obtain rfl := current_unique named current (h.names g' held) current' slot.symm
      exact ⟨rfl, held⟩
    · rw [release_of_not_current current']
      refine (and_iff_left_of_imp fun current own => ?_).symm
      exact current' (own.1 ▸ current)
  · rw [if_neg held]
    refine (and_iff_left fun own => ?_).symm
    exact held (own.1 ▸ own.2)

/-- What is in force was so before, and ends only by being deregistered or with its guard. -/
theorem perform_current (h : Sound o) (named : Names o.registry g) (operation : Operation) :
    Current (o.perform operation).registry g ↔
      Current o.registry g ∧ ¬ o.Ends g.id operation := by
  have spared : ¬ o.Ends g.id operation →
      (Current (o.perform operation).registry g ↔ Current o.registry g) →
      (Current (o.perform operation).registry g ↔
        Current o.registry g ∧ ¬ o.Ends g.id operation) :=
    fun spared same => same.trans (and_iff_left spared).symm
  have adopted : ∀ attempt, (∀ r, attempt = .ok r → (Current r g ↔ Current o.registry g)) →
      (Current (o.adopt attempt).registry g ↔ Current o.registry g) :=
    fun _ => adopt_registry (p := fun r => Current r g ↔ Current o.registry g) .rfl
  cases operation with
  | deregister id => exact deregister_current h named id
  | drop g' => exact drop_current h named g'
  | configure settings => exact spared (by rintro ⟨⟩) .rfl
  | clearSingle => exact spared (by rintro ⟨⟩) .rfl
  | giveUp g' => exact spared (by rintro ⟨⟩) .rfl
  | forgetEnvironment envId =>
    exact spared (by rintro ⟨⟩) (forgetEnvironment_current h.linked envId)
  | registerSingle collation =>
    refine spared (by rintro ⟨⟩) (adopted _ fun r hr => ?_)
    obtain ⟨_, rfl⟩ := registerSingle_eq_ok hr
    rfl
  | register id collation =>
    refine spared (by rintro ⟨⟩) ?_
    simp only [perform]
    cases hr : o.registry.register id collation with
    | ok begun => exact register_current named hr
    | error e => rfl
  | install site mode taken =>
    refine spared (by rintro ⟨⟩) (adopted _ fun r hr => ?_)
    obtain ⟨_, begun, rfl⟩ := of_map_eq_ok hr
    exact install_current h.linked begun taken
  | exportFn mode =>
    refine spared (by rintro ⟨⟩) (adopted _ fun r hr => ?_)
    obtain ⟨_, handed, rfl⟩ := of_map_eq_ok hr
    exact exportFn_current handed
  | reclaim id =>
    refine spared (by rintro ⟨⟩) (adopted _ fun r hr => ?_)
    obtain ⟨_, reclaimed, rfl⟩ := of_map_eq_ok hr
    exact reclaim_current reclaimed

theorem run_names (h : Sound o) (named : Names o.registry g) (operations : List Operation) :
    Names (o.run operations).registry g := by
  induction operations generalizing o with
  | nil => exact named
  | cons operation rest ih =>
    exact ih (perform_sound h operation) ((perform_change h operation).names h.linked named)

/-- What is over stays over. -/
theorem run_current_before (h : Sound o) (named : Names o.registry g)
    (operations : List Operation) (current : Current (o.run operations).registry g) :
    Current o.registry g := by
  induction operations generalizing o with
  | nil => exact current
  | cons operation rest ih =>
    have named' := (perform_change h operation).names h.linked named
    have next := ih (perform_sound h operation) named' current
    exact ((perform_current h named operation).mp next).1

/-- `id` is registered now and after each of the operations. No registration can begin while another
of its context is in force, so it is one registration all along. -/
def Throughout (o : Registrar) (id : ContextId) (operations : List Operation) : Prop :=
  ∀ done, done <+: operations → (o.run done).registry.isRegistered id = true

/-- What is deregistered, with success or not, is not registered. -/
theorem deregister_unregisters (h : Sound o) (id : ContextId) :
    (o.perform (.deregister id)).registry.isRegistered id = false := by
  simp only [perform]
  cases ended : o.registry.deregister id with
  | ok r =>
    obtain ⟨i, bound, rfl⟩ := deregister_eq_ok h.linked ended
    exact (retire_endsOnly h.linked bound).ended
  | error e =>
    cases live : o.registry.live? id with
    | none => simp [adopt, isRegistered, live]
    | some found => simp [deregister, live] at ended

/-- What ends a registration leaves its context unregistered. -/
theorem ends_unregisters (h : Sound o) (named : Names o.registry g)
    (current : Current o.registry g) {operation : Operation} (ends : o.Ends g.id operation) :
    (o.perform operation).registry.isRegistered g.id = false := by
  cases operation with
  | deregister id =>
    cases ends
    exact deregister_unregisters h g.id
  | drop g' =>
    obtain ⟨rfl, held⟩ := (ends_drop_iff h named current).mp ends
    simp only [perform, if_pos held]
    exact (current.release h.linked named).ended
  | _ => cases ends

/-- A registration is in force for as long as its context is registered throughout. -/
theorem run_current_iff (h : Sound o) (named : Names o.registry g)
    (current : Current o.registry g) (operations : List Operation) :
    Current (o.run operations).registry g ↔ o.Throughout g.id operations := by
  constructor
  · rintro still done ⟨rest, rfl⟩
    rw [run_append] at still
    have sound := run_sound h done
    have named' := run_names h named done
    exact (run_current_before sound named' rest still).isRegistered sound.linked named'
  · intro throughout
    induction operations generalizing o with
    | nil => exact current
    | cons operation rest ih =>
      have registered : (o.perform operation).registry.isRegistered g.id = true :=
        throughout [operation] (List.cons_prefix_cons.mpr ⟨rfl, List.nil_prefix⟩)
      have next : Current (o.perform operation).registry g := by
        refine (perform_current h named operation).mpr ⟨current, fun ends => ?_⟩
        rw [ends_unregisters h named current ends] at registered
        cases registered
      refine ih (perform_sound h operation)
        ((perform_change h operation).names h.linked named) next ?_
      intro done before
      exact throughout (operation :: done) (List.cons_prefix_cons.mpr ⟨rfl, before⟩)

/-! ## Guards that are held -/

/-- No two guards came from one registration. -/
def Distinct (o : Registrar) : Prop := (o.guards.map Guard.generation).Nodup

theorem perform_distinct (h : Sound o) (distinct : Distinct o) (operation : Operation) :
    Distinct (o.perform operation) := by
  unfold Distinct
  obtain fewer | ⟨_, _, made, registered, more⟩ := perform_guards o operation
  · exact distinct.sublist (fewer.map _)
  · obtain ⟨_, _, hg, _⟩ := register_eq_ok registered
    rw [more]
    refine List.nodup_cons.mpr ⟨fun there => ?_, distinct⟩
    obtain ⟨g', held, same⟩ := List.mem_map.mp there
    have := (h.names g' held).1
    omega

theorem run_distinct (h : Sound o) (distinct : Distinct o) (operations : List Operation) :
    Distinct (o.run operations) := by
  induction operations generalizing o with
  | nil => exact distinct
  | cons operation rest ih => exact ih (perform_sound h operation) (perform_distinct h distinct operation)

/-- Once `g` is dropped or given up, no guard is left that came from its registration. -/
theorem Distinct.erased (distinct : Distinct o) {g' : Guard} (held : g ∈ o.guards)
    (left : g' ∈ o.guards.erase g) : g'.generation ≠ g.generation := by
  intro same
  have other := (distinct.of_map.mem_erase_iff).mp left
  exact other.1 (List.inj_on_of_nodup_map distinct other.2 held same)

/-- No guard of its registration is ever held again. -/
theorem run_spent (h : Sound o) (named : Names o.registry g)
    (spent : ∀ g' ∈ o.guards, g'.generation ≠ g.generation) (operations : List Operation) :
    g ∉ (o.run operations).guards := by
  induction operations generalizing o with
  | nil => exact fun held => spent g held rfl
  | cons operation rest ih =>
    refine ih (perform_sound h operation) ((perform_change h operation).names h.linked named) ?_
    intro g' held
    obtain fewer | ⟨_, _, made, registered, more⟩ := perform_guards o operation
    · exact spent g' (fewer.subset held)
    · rw [more] at held
      obtain rfl | held := List.mem_cons.mp held
      · obtain ⟨_, _, hg, _⟩ := register_eq_ok registered
        have := named.1
        omega
      · exact spent g' held

/-- A registration whose guard is kept, or was given up, ends only by being deregistered. -/
theorem run_current (h : Sound o) (distinct : Distinct o) (named : Names o.registry g)
    (current : Current o.registry g) {operations : List Operation}
    (kept : g ∈ o.guards → g ∈ (o.run operations).guards)
    (spared : .deregister g.id ∉ operations) : Current (o.run operations).registry g := by
  induction operations generalizing o with
  | nil => exact current
  | cons operation rest ih =>
    have named' := (perform_change h operation).names h.linked named
    have sound := perform_sound h operation
    have others : .deregister g.id ∉ rest := fun there => spared (List.mem_cons_of_mem _ there)
    refine ih sound (perform_distinct h distinct operation) named'
      ((perform_current h named operation).mpr ⟨current, fun ends => ?_⟩) ?_ others
    · cases operation with
      | deregister id =>
        cases ends
        exact spared List.mem_cons_self
      | drop g' =>
        obtain ⟨rfl, held⟩ := (ends_drop_iff h named current).mp ends
        have spent : ∀ g ∈ (o.perform (.drop g')).guards, g.generation ≠ g'.generation := by
          simp only [perform, if_pos held]
          exact fun _ => distinct.erased held
        exact run_spent sound named' spent rest (kept held)
      | _ => cases ends
    · intro held
      obtain fewer | ⟨_, _, made, registered, more⟩ := perform_guards o operation
      · exact kept (fewer.subset held)
      · rw [more] at held
        obtain rfl | held := List.mem_cons.mp held
        · obtain ⟨_, _, hg, _⟩ := register_eq_ok registered
          have := named.1
          omega
        · exact kept held

/-- Once its guard is given up, nothing but deregistering ends a registration. -/
theorem throughout_iff_spared {history : List Operation} {id : ContextId} {collation : Collation}
    {r : Registry} (made : (new.run history).registry.register id collation = .ok (g, r))
    (later : List Operation) :
    Throughout ⟨r, (new.run history).guards⟩ id later ↔ .deregister id ∉ later := by
  have before := run_sound new_sound history
  have distinct := run_distinct new_sound List.nodup_nil history
  have sound : Sound ⟨r, (new.run history).guards⟩ := by
    have entered := perform_sound before (.register id collation)
    simp only [perform, made] at entered
    simpa [perform] using perform_sound entered (.giveUp g)
  obtain ⟨_, rfl, newer, _⟩ := register_eq_ok made
  have named := register_names before.linked made
  have current := registered_current made
  constructor
  · intro throughout there
    obtain ⟨done, rest, rfl⟩ := List.append_of_mem there
    have registered := throughout (done ++ [.deregister g.id]) ⟨rest, by simp⟩
    rw [run_append] at registered
    have ended := deregister_unregisters (run_sound sound done) g.id
    exact Bool.false_ne_true (ended.symm.trans registered)
  · intro spared
    have given_up : g ∉ (new.run history).guards := by
      intro held
      have := (before.names g held).1
      omega
    apply (run_current_iff sound named current later).mp
    exact run_current sound distinct named current (fun held => absurd held given_up) spared

/-- What a guard that is held after the operations `after` can still do. -/
structure EndsOwnOnly (made : Registrar) (g : Guard) (after : List Operation) : Prop where
  inForce : made.Throughout g.id after →
    EndsOnly ((made.run after).perform (.drop g)).registry (made.run after).registry g.id
  lapsed : ¬ made.Throughout g.id after →
    .deregister g.id ∈ after ∧
      ((made.run after).perform (.drop g)).registry = (made.run after).registry
  givenUp : ((made.run after).perform (.giveUp g)).registry = (made.run after).registry
  /-- A guard given up is never held again, and there is nothing left to drop. -/
  spent : ∀ later, (((made.run after).perform (.giveUp g)).run later).perform (.drop g) =
    ((made.run after).perform (.giveUp g)).run later
  lasts : made.Throughout g.id after → ∀ later, .deregister g.id ∉ later →
    ((made.run after).perform (.giveUp g)).Throughout g.id later

theorem endsOwnOnly (h : Sound o) (distinct : Distinct o) (named : Names o.registry g)
    (current : Current o.registry g) {after : List Operation} (held : g ∈ (o.run after).guards) :
    o.EndsOwnOnly g after := by
  have sound := run_sound h after
  have named' := run_names h named after
  have released : ((o.run after).perform (.drop g)).registry =
      (o.run after).registry.release g := by
    simp only [perform, if_pos held]
  have sound' := perform_sound sound (.giveUp g)
  have left : ∀ g' ∈ ((o.run after).perform (.giveUp g)).guards, g'.generation ≠ g.generation :=
    fun _ => (run_distinct h distinct after).erased held
  constructor
  case inForce =>
    intro throughout
    have still := (run_current_iff h named current after).mpr throughout
    rw [released]
    exact still.release sound.linked named'
  case lapsed =>
    intro ended
    rw [← run_current_iff h named current] at ended
    refine ⟨?_, released.trans (release_of_not_current ended)⟩
    by_contra spared
    exact ended (run_current h distinct named current (fun _ => held) spared)
  case givenUp => rfl
  case spent =>
    intro later
    exact if_neg (run_spent sound' named' left later)
  case lasts =>
    intro throughout later spared
    have still := (run_current_iff h named current after).mpr throughout
    refine (run_current_iff sound' named' still later).mp ?_
    have distinct' := perform_distinct sound (run_distinct h distinct after) (.giveUp g)
    exact run_current sound' distinct' named' still (fun there => absurd rfl (left g there)) spared

end

end Registrar

/-- **A guard ends only its own registration**, whatever happened before that registration and
since. -/
theorem guard_ends_only_its_own_registration (before after : List Operation) {id : ContextId}
    {collation : Collation} {g : Guard} {r : Registry}
    (made : (Registrar.new.run before).registry.register id collation = .ok (g, r))
    (held : g ∈ (((Registrar.new.run before).perform (.register id collation)).run after).guards) :
    g.id = id ∧
      ((Registrar.new.run before).perform (.register id collation)).EndsOwnOnly g after := by
  have sound := Registrar.run_sound Registrar.new_sound before
  have distinct := Registrar.run_distinct Registrar.new_sound List.nodup_nil before
  have entered : ((Registrar.new.run before).perform (.register id collation)).registry = r := by
    simp only [Registrar.perform, made]
  obtain ⟨_, own, _⟩ := register_eq_ok made
  refine ⟨own, Registrar.endsOwnOnly (Registrar.perform_sound sound _)
    (Registrar.perform_distinct sound distinct _) ?_ ?_ held⟩
  · rw [entered]
    exact register_names sound.linked made
  · rw [entered]
    exact registered_current made

theorem guard_ends_only_its_own_registration_and_not_the_next :
    let before : List Operation := [.register ⟨4⟩ (.ofOrder Order.baseline)]
    let made := (Registrar.new.run before).perform (.register ⟨11⟩ (.ofOrder Order.reverse))
    let g : Guard := ⟨⟨11⟩, ⟨1, by decide⟩, 2⟩
    let again : List Operation := [.deregister ⟨11⟩, .register ⟨11⟩ (.ofOrder Order.baseline)]
    (made.run again).registry.isRegistered ⟨11⟩ = true ∧
      ((made.run again).perform (.drop g)).registry = (made.run again).registry ∧
      EndsOnly (made.perform (.drop g)).registry made.registry ⟨11⟩ := by
  intro before made g again
  have registered : (Registrar.new.run before).registry.register ⟨11⟩ (.ofOrder Order.reverse) =
      .ok (g, made.registry) := rfl
  refine ⟨by decide +kernel, ?_, ?_⟩
  · have own := guard_ends_only_its_own_registration before again registered (by decide)
    refine (own.2.lapsed fun throughout => ?_).2
    exact absurd (throughout [.deregister ⟨11⟩] ⟨_, rfl⟩) (by decide)
  · have own := guard_ends_only_its_own_registration before [] registered (by decide)
    refine own.2.inForce fun done none => ?_
    rw [List.prefix_nil.mp none]
    rfl

end CollatedStore.Registry
