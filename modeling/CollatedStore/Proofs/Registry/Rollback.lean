import CollatedStore.Proofs.Registry.Guards
import CollatedStore.Proofs.Registry.Lent
import CollatedStore.Store.Scripted

/-!
Installations that fail. The record made before the store was asked is taken back, and a
registration made for the installation ends again; what the registry held before is there as it was.
-/
namespace CollatedStore

/-- `t` is what `s` was, its users listed in whatever order. Only what is `stamped` may bear another
generation. -/
structure Slot.Restores (stamped : Slot → Prop) (t s : Slot) : Prop where
  id : t.id = s.id
  enrolment : t.enrolment = s.enrolment
  users : t.users.Perm s.users
  exported : t.exported = s.exported
  generation : t.generation = s.generation ∨ stamped s

theorem Slot.restores_mono {stamped marked : Slot → Prop} {t s : Option Slot}
    (h : Option.Rel (Slot.Restores stamped) t s) (weaker : ∀ s, stamped s → marked s) :
    Option.Rel (Slot.Restores marked) t s := by
  cases h with
  | none => exact .none
  | @some _ s same =>
    exact .some ⟨same.id, same.enrolment, same.users, same.exported,
      same.generation.imp_right (weaker s)⟩

namespace Registry

/-- The registry `r'` holds what `r` held, but for the generations of slots that are `stamped` and
for the counter they come from. -/
structure Restored (stamped : Slot → Prop) (r' r : Registry) : Prop where
  settings : r'.settings = r.settings
  single : r'.single = r.single
  byId : ∀ id, r'.byId.get? id = r.byId.get? id
  installs : ∀ site, r'.installs.get? site = r.installs.get? site
  slots : ∀ i, Option.Rel (Slot.Restores stamped) (r'.slots i) (r.slots i)

theorem Restored.refl (stamped : Slot → Prop) (r : Registry) : Restored stamped r r where
  settings := rfl
  single := rfl
  byId _ := rfl
  installs _ := rfl
  slots i := by
    cases r.slots i with
    | none => exact .none
    | some s => exact .some ⟨rfl, rfl, .refl _, rfl, .inl rfl⟩

theorem Restored.slot {stamped : Slot → Prop} {r r' : Registry} (restored : Restored stamped r' r)
    {i : SlotIndex} {s : Slot} (hs : r.slots i = some s) :
    ∃ t, r'.slots i = some t ∧ t.Restores stamped s := by
  have same := restored.slots i
  rw [hs] at same
  cases ht : r'.slots i with
  | none =>
    rw [ht] at same
    cases same
  | some t =>
    rw [ht] at same
    cases same with
    | some same => exact ⟨t, rfl, same⟩

/-! ## Taking back a record -/

/-- A site that was moved into a slot or out of it, and back. -/
theorem users_moved_back {users : List Site} (nodup : users.Nodup) (site : Site) (into : Prop)
    [Decidable into] :
    (if site ∈ users then (if into then users.insert site else users.erase site).insert site
      else (if into then users.insert site else users.erase site).erase site).Perm users := by
  by_cases there : site ∈ users
  · rw [if_pos there]
    split
    · rw [List.insert_of_mem there, List.insert_of_mem there]
    · rw [List.insert_of_not_mem nodup.not_mem_erase]
      exact (List.perm_cons_erase there).symm
  · rw [if_neg there]
    split
    · rw [List.insert_of_not_mem there, List.erase_cons_head]
    · rw [List.erase_of_not_mem there, List.erase_of_not_mem there]

section
variable {r r' : Registry} {site : Site} {mode : Dispatch} {i : Installing}

theorem record_back (h : Linked r) (site : Site) {slot : Option SlotIndex}
    (h' : Linked (r.record site slot).2) :
    Restored (fun _ => False) ((r.record site slot).2.record site (r.installs.get? site)).2 r := by
  constructor
  case settings => rw [record_settings, record_settings]
  case single => rw [record_single, record_single]
  case byId =>
    intro id
    rw [(record_tables _ site _).1, (record_tables r site slot).1]
  case installs =>
    intro x
    rw [record_installs, record_installs]
    split
    · rename_i own
      rw [own]
    · rfl
  case slots =>
    intro j
    rw [record_slots h', record_slots h]
    cases hs : r.slots j with
    | none => exact .none
    | some s =>
      have used : r.installs.get? site = some j ↔ site ∈ s.users := by
        simp [h.installs, hs]
      refine .some ⟨rfl, rfl, ?_, rfl, .inl rfl⟩
      simp only [used]
      exact users_moved_back (h.users hs) site _

theorem sweep_live {i : SlotIndex} {s : Slot} (hs : r.slots i = some s)
    (live : s.enrolment.isSome = true) : r.sweep i = r := by
  obtain same | ⟨t, ht, released, _⟩ := sweep_cases r i
  · exact same
  · rw [hs] at ht
    cases ht
    simp [released] at live

theorem resolve_live (h : Linked r) {fn : CompareFn} {j : SlotIndex}
    (resolved : r.resolve mode = .ok (fn, some j)) :
    ∃ s, r.slots j = some s ∧ s.enrolment.isSome = true := by
  obtain ⟨id, _, rfl, _⟩ := resolve_slot h resolved
  rw [resolve] at resolved
  cases live : r.live? id with
  | none =>
    rw [live] at resolved
    cases resolved
  | some found =>
    rw [live] at resolved
    cases resolved
    obtain ⟨s, hs, _, he⟩ := (h.live? id _ found.2).mp live
    exact ⟨s, hs, by simp [he]⟩

/-- The slot of an installation that is taken back is that of a registered context, and stays. -/
theorem endInstall_refused (h : Linked r) (hb : r.beginInstall site mode = .ok (i, r')) :
    r'.endInstall i false = ((r.record site i.slot).2.record site (r.installs.get? site)).2 := by
  have linked := h.beginInstall hb
  obtain ⟨rfl, resolved, previous, rfl⟩ := beginInstall_eq_ok hb
  have back := record_back h i.site linked
  rw [← previous] at back ⊢
  simp only [endInstall, Bool.false_eq_true, if_false]
  unfold sweepUnless
  split
  · rename_i j slot
    rw [slot] at resolved
    obtain ⟨s, hs, live⟩ := resolve_live h resolved
    obtain ⟨t, ht, same⟩ := back.slot hs
    split
    · rfl
    · exact sweep_live ht (same.enrolment ▸ live)
  · rfl

theorem install_refused_restores (h : Linked r) (hb : r.beginInstall site mode = .ok (i, r')) :
    Restored (fun _ => False) (r'.endInstall i false) r ∧
      (r'.endInstall i false).generation = r.generation := by
  have linked := h.beginInstall hb
  have ended := endInstall_refused h hb
  obtain ⟨_, _, _, rfl⟩ := beginInstall_eq_ok hb
  refine ⟨?_, (install_descends h hb false).1⟩
  rw [ended]
  exact record_back h site linked

end

/-! ## Ending the registration made for an installation -/

section
variable {r r' r'' : Registry} {id : ContextId} {collation : Collation} {g : Guard}

/-- A slot that is bound again keeps its users and its mark. -/
theorem register_slot (hr : r.register id collation = .ok (g, r')) :
    (∃ s, r.slots g.slot = some s ∧ s.enrolment = none ∧ s.id = id ∧
      r'.slots g.slot = some { s with
        generation := r.generation + 1, enrolment := some ⟨collation, r.settings.policy⟩ }) ∨
    (r.slots g.slot = none ∧ r'.slots g.slot =
      some ⟨id, r.generation + 1, some ⟨collation, r.settings.policy⟩, [], false⟩) := by
  obtain ⟨_, _, _, _, _, _, _, _, taken⟩ := register_eq_ok hr
  unfold register at hr
  split at hr
  · cases hr
  · split at hr
    · cases hr
    · rename_i i found
      cases hr
      cases hs : r.slots i with
      | none => exact .inr ⟨rfl, by simp⟩
      | some s =>
        obtain ⟨u, hu, released, own, _⟩ | ⟨empty, _⟩ := taken
        · rw [hs] at hu
          cases hu
          exact .inl ⟨s, rfl, released, own, by simp⟩
        · rw [hs] at empty
          cases empty

theorem register_slots_of_ne (hr : r.register id collation = .ok (g, r')) {j : SlotIndex}
    (apart : j ≠ g.slot) : r'.slots j = r.slots j := by
  obtain ⟨_, _, _, _, rfl, _⟩ := register_eq_ok hr
  exact if_neg apart

theorem Restored.current {stamped : Slot → Prop} (restored : Restored stamped r' r)
    (current : Current r g) (unstamped : ∀ s, ¬ stamped s) : Current r' g := by
  obtain ⟨s, hs, hg, live⟩ := current
  obtain ⟨t, ht, same⟩ := restored.slot hs
  have generation := same.generation.resolve_right (unstamped s)
  exact ⟨t, ht, generation.trans hg, same.enrolment ▸ live⟩

/-- What the slot of an ended registration holds, unless it is freed. -/
theorem retire_slots_self {i : SlotIndex} {s : Slot} (hs : r.slots i = some s) :
    (r.retire id i).slots i =
      if s.users = [] ∧ s.exported = false then none else some { s with enrolment := none } := by
  have unbound : (r.unbind id i).slots i = some { s with enrolment := none } := by
    rw [unbind_slots, if_pos rfl, hs]
    rfl
  refine (sweep_slots_self unbound).trans ?_
  simp [Slot.idle]

/-- The registration that an installation needed is undone with it. -/
theorem release_restores (swept : Swept r) (hr : r.register id collation = .ok (g, r'))
    (restored : Restored (fun _ => False) r'' r') :
    Restored (fun s => s.enrolment = none ∧ s.id = id) (r''.release g) r := by
  have current := restored.current (registered_current hr) fun _ impossible => impossible
  rw [current.release_eq]
  obtain ⟨unbound, own, _, t, entered, _⟩ := register_eq_ok hr
  constructor
  case settings =>
    refine (sweep_settings _ _).trans (restored.settings.trans ?_)
    rw [entered]
    rfl
  case single =>
    refine (sweep_single _ _).trans (restored.single.trans ?_)
    rw [entered]
    rfl
  case byId =>
    intro x
    rw [retire, sweep_byId]
    refine (Table.get?_erase _ _ _).trans ?_
    rw [own]
    split
    · rename_i same
      rw [same, unbound]
    · rename_i other
      rw [restored.byId, entered]
      exact Table.get?_insert_of_ne _ _ other
  case installs =>
    intro site
    rw [retire, sweep_installs]
    refine (restored.installs site).trans ?_
    rw [entered]
    rfl
  case slots =>
    intro j
    by_cases here : j = g.slot
    · subst here
      obtain ⟨s, hs, released, same, bound⟩ | ⟨empty, bound⟩ := register_slot hr
      · obtain ⟨t, ht, back⟩ := restored.slot bound
        have busy : ¬ (t.users = [] ∧ t.exported = false) := by
          rintro ⟨unused, unmarked⟩
          apply swept g.slot s hs
          have users : s.users = [] := (back.users.symm.trans (.of_eq unused)).eq_nil
          have exported : s.exported = false := back.exported.symm.trans unmarked
          simp [Slot.idle, released, users, exported]
        rw [retire_slots_self ht, if_neg busy, hs]
        exact .some ⟨back.id, released.symm, back.users, back.exported, .inr ⟨released, same⟩⟩
      · obtain ⟨t, ht, back⟩ := restored.slot bound
        rw [retire_slots_self ht, if_pos ⟨back.users.eq_nil, back.exported⟩, empty]
        exact .none
    · rw [retire_slots_of_ne _ _ here, ← register_slots_of_ne hr here]
      exact Slot.restores_mono (restored.slots j) fun _ => False.elim

end

/-! ## Failures in a store -/

section
variable {ε : Type} [Store ε]

/-- How an installation in a store can fail, with all that it leaves. -/
inductive InstallFailed (r : Registry) (store : ε) (role : Role) (txn : Handle) (dbi : Dbi)
    (mode : Dispatch) : Except CallError Unit × Registry × ε → Prop
  /-- The mode stands for no function. The store is not called. -/
  | unresolved {e : CallError} (none : r.resolve mode = .error e) :
      InstallFailed r store role txn dbi mode (.error e, r, store)
  | refused {fn : CompareFn} {slot : Option SlotIndex} {reply : Reply Status ε Unit}
      {r' : Registry} (resolved : r.resolve mode = .ok (fn, slot))
      (asked : (Store.setOrder store (r.record ⟨Store.envId store, dbi, role⟩ slot).2 role txn dbi
        (some fn)).1 = reply)
      (status : reply.ended ≠ .success) (restored : Restored (fun _ => False) r' r)
      (generation : r'.generation = r.generation) :
      InstallFailed r store role txn dbi mode
        (.error (.store (setName role) reply.ended), r', reply.store)

variable {r : Registry} {store : ε} {role : Role} {txn : Handle} {dbi : Dbi}

theorem install_failed (h : Linked r)
    (aloof : ∀ r f, (Store.setOrder store r role txn dbi f).2 = r) {mode : Dispatch}
    (failed : (r.install store role txn dbi mode).1.isOk = false) :
    InstallFailed r store role txn dbi mode (r.install store role txn dbi mode) := by
  unfold install at failed ⊢
  cases hb : r.beginInstall ⟨Store.envId store, dbi, role⟩ mode with
  | error e =>
    refine .unresolved ?_
    unfold beginInstall at hb
    split at hb
    · rename_i none
      cases hb
      exact none
    · cases hb
  | ok begun =>
    obtain ⟨i, r'⟩ := begun
    simp only [hb] at failed ⊢
    have taken := aloof r' (some i.fn)
    have restores := install_refused_restores h hb
    obtain ⟨_, resolved, _, rfl⟩ := beginInstall_eq_ok hb
    generalize asked : Store.setOrder store _ role txn dbi (some i.fn) = answer at *
    obtain ⟨reply, r''⟩ := answer
    cases taken
    simp only [failed]
    by_cases success : reply.ended = .success
    · simp [CallError.check, success, Except.isOk, Except.toBool] at failed
    · rw [CallError.check, if_neg success]
      exact .refused resolved (congrArg Prod.fst asked) success restores.1 restores.2

theorem InstallFailed.restored {mode : Dispatch} {result : Except CallError Unit × Registry × ε}
    (failed : InstallFailed r store role txn dbi mode result) :
    Restored (fun _ => False) result.2.1 r := by
  cases failed with
  | unresolved => exact .refl _ r
  | refused _ _ _ restored _ => exact restored

/-- At whatever step the registration for a database fails. -/
theorem registerDb_restores (h : Linked r) (swept : Swept r)
    (aloof : ∀ r f, (Store.setOrder store r role txn dbi f).2 = r) {collation : Collation}
    (failed : (r.registerDb store role txn dbi collation).1.isOk = false) :
    Restored (fun s => s.enrolment = none ∧
        ContextId.ofDb role (Store.envId store) dbi.toUInt32 = .ok s.id)
      (r.registerDb store role txn dbi collation).2.1 r := by
  revert failed
  unfold registerDb
  cases ContextId.ofDb role (Store.envId store) dbi.toUInt32 with
  | error b => exact fun _ => .refl _ r
  | ok id =>
    dsimp only
    cases hr : r.register id collation with
    | error e => exact fun _ => .refl _ r
    | ok begun =>
      obtain ⟨g, r'⟩ := begun
      have refused : (r'.install store role txn dbi (.context id)).1.isOk = false →
          InstallFailed r' store role txn dbi (.context id)
            (r'.install store role txn dbi (.context id)) :=
        install_failed (h.register hr) aloof
      dsimp only
      generalize r'.install store role txn dbi (.context id) = answered at refused ⊢
      obtain ⟨result, r'', store'⟩ := answered
      cases result with
      | ok u => exact nofun
      | error e =>
        intro _
        have ended := release_restores swept hr (refused rfl).restored
        refine { ended with slots := fun i => Slot.restores_mono (ended.slots i) ?_ }
        rintro s ⟨released, rfl⟩
        exact ⟨released, rfl⟩

end

/-- **What fails leaves no trace**, in a store that does not act back on the registry: from wherever
any sequence of operations has led it, an installation that fails leaves all that was there, the
record of the order that the database had among it, and so does a registration for a database's own
order, at whatever step it fails. -/
theorem failed_installations_leave_no_trace {ε : Type} [Store ε] (history : List Operation)
    (store : ε) (role : Role) (txn : Handle) (dbi : Dbi)
    (aloof : ∀ r f, (Store.setOrder store r role txn dbi f).2 = r) :
    let r := (Registrar.new.run history).registry
    (∀ mode, (r.install store role txn dbi mode).1.isOk = false →
      InstallFailed r store role txn dbi mode (r.install store role txn dbi mode)) ∧
    ∀ collation, (r.registerDb store role txn dbi collation).1.isOk = false →
      Restored (fun s => s.enrolment = none ∧
          ContextId.ofDb role (Store.envId store) dbi.toUInt32 = .ok s.id)
        (r.registerDb store role txn dbi collation).2.1 r := by
  intro r
  have sound := Registrar.run_sound Registrar.new_sound history
  exact ⟨fun _ => install_failed sound.linked aloof,
    fun _ => registerDb_restores sound.linked sound.swept aloof⟩

theorem failed_installations_leave_no_trace_on_a_pinned_slot :
    let id := ContextId.pack .keys 7 1
    let r := (Registrar.new.run [.register id (.ofOrder Order.reverse),
      .install ⟨7, 1, .keys⟩ (.context id) true, .deregister id]).registry
    let store : Scripted := ⟨7, .invalid, none, none, [], true, false, .success, []⟩
    r.installs.get? ⟨7, 1, .keys⟩ = some ⟨0, by decide⟩ ∧ r.isRegistered id = false ∧
      InstallFailed r store .keys 3 1 .baseline (r.install store .keys 3 1 .baseline) ∧
      InstallFailed r store .keys 3 1 (.context id) (r.install store .keys 3 1 (.context id)) ∧
      Restored (fun s => s.enrolment = none ∧ ContextId.ofDb .keys 7 1 = .ok s.id)
        (r.registerDb store .keys 3 1 (.ofOrder Order.baseline)).2.1 r := by
  intro id r store
  have none_left := failed_installations_leave_no_trace
    [.register id (.ofOrder Order.reverse), .install ⟨7, 1, .keys⟩ (.context id) true,
      .deregister id] store .keys 3 1 fun _ _ => rfl
  exact ⟨by decide +kernel, by decide +kernel, none_left.1 .baseline (by decide +kernel),
    none_left.1 (.context id) (by decide +kernel), none_left.2 _ (by decide +kernel)⟩

/-- A store that deregisters the context whose order it is asked to replace: its slot is unused at
that moment and goes, and the record is taken back to a slot that is free. -/
theorem failed_installation_loses_a_slot_deregistered_meanwhile :
    let r := (Registrar.new.run [.register ⟨4⟩ (.ofOrder Order.baseline),
      .register ⟨5⟩ (.ofOrder Order.reverse), .install ⟨7, 1, .keys⟩ (.context ⟨4⟩) true]).registry
    let store : Scripted := ⟨7, .invalid, none, some ⟨4⟩, [], true, false, .success, []⟩
    let left := r.install store .keys 1 1 (.context ⟨5⟩)
    left.1 = .error (.store "mdb_set_compare" .invalid) ∧
      left.2.1.installs.get? ⟨7, 1, .keys⟩ = some ⟨0, by decide⟩ ∧
      left.2.1.slots ⟨0, by decide⟩ = none ∧ ∀ stamped, ¬ Restored stamped left.2.1 r := by
  intro r store left
  refine ⟨rfl, rfl, rfl, fun stamped restored => ?_⟩
  have freed : Option.Rel (Slot.Restores stamped) none (r.slots ⟨0, by decide⟩) :=
    restored.slots ⟨0, by decide⟩
  cases freed

end Registry

end CollatedStore
