import CollatedStore.Proofs.Registry.Swept
import CollatedStore.Proofs.Table
import CollatedStore.Store.Install
import Mathlib.Data.List.Perm.Subperm

/-!
The registry under any sequence of operations. Its five tables stay in step, so that every slot is
free, live or released, and the contexts counted are those that have a live slot.
-/
namespace CollatedStore.Registry

/-- What can be asked of a registry. An installation comes with the store's answer to it. -/
inductive Operation where
  | configure (settings : Settings)
  | registerSingle (collation : Collation)
  | clearSingle
  | register (id : ContextId) (collation : Collation)
  | deregister (id : ContextId)
  | drop (g : Guard)
  | giveUp (g : Guard)
  | install (site : Site) (mode : Dispatch) (taken : Bool)
  | exportFn (mode : Dispatch)
  | reclaim (id : ContextId)
  | forgetEnvironment (envId : UInt64)

/-- A registry with the guards that are held, not yet dropped or given up. -/
structure Registrar where
  registry : Registry
  guards : List Guard

namespace Registrar

def new : Registrar := ⟨.new, []⟩

/-- Goes on with the registry that an attempt gives. One that fails changes nothing. -/
def adopt (o : Registrar) : Except CallError Registry → Registrar
  | .ok registry => { o with registry }
  | .error _ => o

/-- Carries out one operation. Only a guard that is held can be dropped. -/
def perform (o : Registrar) : Operation → Registrar
  | .configure settings => { o with registry := o.registry.configure settings }
  | .registerSingle collation => o.adopt (o.registry.registerSingle collation)
  | .clearSingle => { o with registry := o.registry.clearSingle.2 }
  | .register id collation =>
    match o.registry.register id collation with
    | .ok (g, registry) => ⟨registry, g :: o.guards⟩
    | .error _ => o
  | .deregister id => o.adopt (o.registry.deregister id)
  | .drop g => if g ∈ o.guards then ⟨o.registry.release g, o.guards.erase g⟩ else o
  | .giveUp g => { o with guards := o.guards.erase g }
  | .install site mode taken =>
    o.adopt ((o.registry.beginInstall site mode).map fun (i, r) => r.endInstall i taken)
  | .exportFn mode => o.adopt ((o.registry.exportFn mode).map (·.2))
  | .reclaim id => o.adopt ((o.registry.reclaim id).map (·.2))
  | .forgetEnvironment envId => { o with registry := (o.registry.forgetEnvironment envId).2 }

def run (o : Registrar) (operations : List Operation) : Registrar := operations.foldl perform o

/-- What every operation relies on and keeps. -/
structure Sound (o : Registrar) : Prop where
  linked : Linked o.registry
  swept : Swept o.registry
  names : ∀ g ∈ o.guards, Names o.registry g

theorem new_sound : Sound new := ⟨new_linked, new_swept, nofun⟩

end Registrar

/-! ## One operation -/

/-- What an operation can do to the registry. One that fails does nothing. -/
inductive Change (r : Registry) : Operation → Registry → Prop
  | nothing (operation : Operation) : Change r operation r
  | configure (settings : Settings) : Change r (.configure settings) (r.configure settings)
  | registerSingle {collation : Collation} {r' : Registry}
      (registered : r.registerSingle collation = .ok r') : Change r (.registerSingle collation) r'
  | clearSingle : Change r .clearSingle r.clearSingle.2
  | register {id : ContextId} {collation : Collation} {g : Guard} {r' : Registry}
      (registered : r.register id collation = .ok (g, r')) : Change r (.register id collation) r'
  | deregister {id : ContextId} {i : SlotIndex} (bound : r.byId.get? id = some i) :
      Change r (.deregister id) (r.retire id i)
  | drop {g : Guard} (bound : r.byId.get? g.id = some g.slot) :
      Change r (.drop g) (r.retire g.id g.slot)
  | install {site : Site} {mode : Dispatch} {i : Installing} {r' : Registry}
      (begun : r.beginInstall site mode = .ok (i, r')) (taken : Bool) :
      Change r (.install site mode taken) (r'.endInstall i taken)
  | exportFn {mode : Dispatch} {fn : CompareFn} {r' : Registry}
      (handed : r.exportFn mode = .ok (fn, r')) : Change r (.exportFn mode) r'
  | reclaim {id : ContextId} {freed : Bool} {r' : Registry}
      (reclaimed : r.reclaim id = .ok (freed, r')) : Change r (.reclaim id) r'
  | forgetEnvironment (envId : UInt64) :
      Change r (.forgetEnvironment envId) (r.forgetEnvironment envId).2

section
variable {r r' : Registry} {operation : Operation}

theorem registerSingle_eq_ok {collation : Collation} (h : r.registerSingle collation = .ok r') :
    r.single = none ∧ r' = { r with single := some ⟨collation, r.settings.policy⟩ } := by
  unfold registerSingle at h
  split at h
  · cases h
  · rename_i free
    cases h
    exact ⟨by simpa using free, rfl⟩

/-- Only a registration is no descent. -/
theorem Change.descends (change : Change r operation r') (h : Linked r) :
    Descends r' r ∨ ∃ id collation g, r.register id collation = .ok (g, r') := by
  cases change with
  | nothing operation => exact .inl (.refl r)
  | configure settings => exact .inl (.refl r)
  | clearSingle => exact .inl (.refl r)
  | registerSingle registered =>
    obtain ⟨_, rfl⟩ := registerSingle_eq_ok registered
    exact .inl (.refl r)
  | register registered => exact .inr ⟨_, _, _, registered⟩
  | deregister bound | drop bound => exact .inl (retire_descends _ _ _)
  | install begun taken => exact .inl (install_descends h begun taken)
  | exportFn handed =>
    obtain rfl | ⟨i, rfl⟩ := exportFn_cases handed
    · exact .inl (.refl _)
    · exact .inl (mark_descends _ i true)
  | reclaim reclaimed =>
    obtain rfl | ⟨i, rfl⟩ := reclaim_cases reclaimed
    · exact .inl (.refl _)
    · exact .inl ((sweep_descends _ i).trans (mark_descends _ i false))
  | forgetEnvironment envId => exact .inl (forgetEnvironment_descends h envId)

theorem Change.names (change : Change r operation r') (h : Linked r) {g : Guard}
    (named : Names r g) : Names r' g := by
  obtain descends | ⟨_, _, _, registered⟩ := change.descends h
  · exact named.descend descends
  · exact named.register registered

/-- Neither the settings nor the one collation without a context matter to the tables. -/
theorem Linked.retune (h : Linked r) (settings : Settings) (single : Option Enrolment) :
    Linked { r with settings, single } :=
  ⟨h.byId, h.ids, h.installs, h.users, h.generation, h.generations⟩

theorem Change.linked (change : Change r operation r') (h : Linked r) : Linked r' := by
  cases change with
  | nothing operation => exact h
  | configure settings => exact h.retune settings r.single
  | clearSingle => exact h.retune r.settings none
  | registerSingle registered =>
    obtain ⟨_, rfl⟩ := registerSingle_eq_ok registered
    exact h.retune r.settings _
  | register registered => exact h.register registered
  | deregister bound | drop bound => exact h.retire bound
  | install begun taken => exact h.install begun taken
  | exportFn handed =>
    obtain rfl | ⟨i, rfl⟩ := exportFn_cases handed
    · exact h
    · exact h.mark i true
  | reclaim reclaimed =>
    obtain rfl | ⟨i, rfl⟩ := reclaim_cases reclaimed
    · exact h
    · exact (h.mark i false).sweep i
  | forgetEnvironment envId => exact h.forgetEnvironment envId

theorem Change.swept (change : Change r operation r') (h : Linked r) (swept : Swept r) :
    Swept r' := by
  cases change with
  | nothing operation => exact swept
  | configure settings => exact swept
  | clearSingle => exact swept
  | registerSingle registered =>
    obtain ⟨_, rfl⟩ := registerSingle_eq_ok registered
    exact swept
  | register registered => exact swept.register registered
  | deregister bound | drop bound => exact swept.retire _ _
  | install begun taken => exact swept.install h begun taken
  | exportFn handed => exact swept.exportFn handed
  | reclaim reclaimed => exact swept.reclaim reclaimed
  | forgetEnvironment envId => exact swept.forgetEnvironment h envId

end

namespace Registrar

section
variable {o : Registrar}

theorem of_map_eq_ok {α β ε : Type} {f : α → β} {attempt : Except ε α} {b : β}
    (h : attempt.map f = .ok b) : ∃ a, attempt = .ok a ∧ f a = b := by
  cases attempt with
  | ok a => exact ⟨a, rfl, Except.ok.inj h⟩
  | error e => cases h

/-- What holds of the registry holds still if the attempt fails. -/
theorem adopt_registry {p : Registry → Prop} {attempt : Except CallError Registry}
    (fails : p o.registry) (succeeds : ∀ r, attempt = .ok r → p r) :
    p (o.adopt attempt).registry := by
  cases attempt with
  | ok r => exact succeeds r rfl
  | error e => exact fails

theorem perform_change (h : Sound o) (operation : Operation) :
    Change o.registry operation (o.perform operation).registry := by
  have adopted : ∀ attempt, (∀ r, attempt = .ok r → Change o.registry operation r) →
      Change o.registry operation (o.adopt attempt).registry :=
    fun _ => adopt_registry (.nothing operation)
  cases operation with
  | configure settings => exact .configure settings
  | registerSingle collation => exact adopted _ fun r registered => .registerSingle registered
  | clearSingle => exact .clearSingle
  | register id collation =>
    simp only [perform]
    cases registered : o.registry.register id collation with
    | ok begun => exact .register registered
    | error e => exact .nothing _
  | deregister id =>
    refine adopted _ fun r hr => ?_
    obtain ⟨i, bound, rfl⟩ := deregister_eq_ok h.linked hr
    exact .deregister bound
  | drop g =>
    simp only [perform]
    split
    · rename_i held
      obtain same | ⟨bound, retired⟩ := release_cases h.linked (h.names g held)
      · rw [same]
        exact .nothing _
      · rw [retired]
        exact .drop bound
    · exact .nothing _
  | giveUp g => exact .nothing _
  | install site mode taken =>
    refine adopted _ fun r hr => ?_
    obtain ⟨_, begun, rfl⟩ := of_map_eq_ok hr
    exact .install begun taken
  | exportFn mode =>
    refine adopted _ fun r hr => ?_
    obtain ⟨_, handed, rfl⟩ := of_map_eq_ok hr
    exact .exportFn handed
  | reclaim id =>
    refine adopted _ fun r hr => ?_
    obtain ⟨_, reclaimed, rfl⟩ := of_map_eq_ok hr
    exact .reclaim reclaimed
  | forgetEnvironment envId => exact .forgetEnvironment envId

/-- The only new guard is that of a registration just made. -/
theorem perform_guards (o : Registrar) (operation : Operation) :
    (o.perform operation).guards.Sublist o.guards ∨ ∃ id collation g,
      o.registry.register id collation = .ok (g, (o.perform operation).registry) ∧
        (o.perform operation).guards = g :: o.guards := by
  have adopted : ∀ attempt, (o.adopt attempt).guards.Sublist o.guards := by
    intro attempt
    cases attempt <;> exact .refl _
  cases operation with
  | configure settings => exact .inl (.refl _)
  | registerSingle collation => exact .inl (adopted _)
  | clearSingle => exact .inl (.refl _)
  | register id collation =>
    simp only [perform]
    cases registered : o.registry.register id collation with
    | ok begun => exact .inr ⟨id, collation, begun.1, registered, rfl⟩
    | error e => exact .inl (.refl _)
  | deregister id => exact .inl (adopted _)
  | drop g =>
    simp only [perform]
    split
    · exact .inl List.erase_sublist
    · exact .inl (.refl _)
  | giveUp g => exact .inl List.erase_sublist
  | install site mode taken => exact .inl (adopted _)
  | exportFn mode => exact .inl (adopted _)
  | reclaim id => exact .inl (adopted _)
  | forgetEnvironment envId => exact .inl (.refl _)

theorem perform_sound (h : Sound o) (operation : Operation) : Sound (o.perform operation) := by
  have change := perform_change h operation
  refine ⟨change.linked h.linked, change.swept h.linked h.swept, fun g held => ?_⟩
  obtain fewer | ⟨_, _, made, registered, more⟩ := perform_guards o operation
  · exact change.names h.linked (h.names g (fewer.subset held))
  · rw [more] at held
    obtain rfl | held := List.mem_cons.mp held
    · exact register_names h.linked registered
    · exact change.names h.linked (h.names g held)

theorem run_sound (h : Sound o) (operations : List Operation) : Sound (o.run operations) := by
  induction operations generalizing o with
  | nil => exact h
  | cons operation rest ih => exact ih (perform_sound h operation)

end

/-! ## Installations in a store -/

section
variable {ε : Type} [Store ε] {store : ε} {role : Role} {txn : Handle} {dbi : Dbi}

/-- An installation in a store that leaves the registry alone is an operation, whatever the store
answers. -/
theorem install_performs
    (aloof : ∀ r f, (Store.setOrder store r role txn dbi f).2 = r) (o : Registrar)
    (mode : Dispatch) :
    { o with registry := (o.registry.install store role txn dbi mode).2.1 } =
      o.perform (.install ⟨Store.envId store, dbi, role⟩ mode
        (o.registry.install store role txn dbi mode).1.isOk) := by
  simp only [perform]
  unfold Registry.install
  cases o.registry.beginInstall ⟨Store.envId store, dbi, role⟩ mode with
  | error e => rfl
  | ok begun =>
    obtain ⟨i, r⟩ := begun
    have same := aloof r (some i.fn)
    simp only [Except.map, adopt]
    rw [same]

/-- So is registering a collation for a database's own order a few operations. -/
theorem registerDb_performs
    (aloof : ∀ r f, (Store.setOrder store r role txn dbi f).2 = r) (o : Registrar)
    (collation : Collation) :
    ∃ operations, (o.run operations).registry =
      (o.registry.registerDb store role txn dbi collation).2.1 := by
  unfold registerDb
  cases ContextId.ofDb role (Store.envId store) dbi.toUInt32 with
  | error b => exact ⟨[], rfl⟩
  | ok id =>
    dsimp only
    cases registered : o.registry.register id collation with
    | error e => exact ⟨[], rfl⟩
    | ok begun =>
      obtain ⟨g, r⟩ := begun
      have entered : o.perform (.register id collation) = ⟨r, g :: o.guards⟩ := by
        simp only [perform, registered]
      have installed := install_performs aloof ⟨r, g :: o.guards⟩ (.context id)
      dsimp only at installed ⊢
      generalize r.install store role txn dbi (.context id) = answered at installed ⊢
      obtain ⟨result, r', store'⟩ := answered
      have begins : ∀ operations, o.run (.register id collation ::
          .install ⟨Store.envId store, dbi, role⟩ (.context id) result.isOk :: operations) =
          (⟨r', g :: o.guards⟩ : Registrar).run operations := by
        intro operations
        simp only [run, List.foldl_cons, entered, ← installed]
      cases result with
      | ok u => exact ⟨_, congrArg registry (begins [])⟩
      | error e =>
        refine ⟨_, (congrArg registry (begins [.drop g])).trans ?_⟩
        simp [run, perform]

end

end Registrar

/-! ## Counting slots -/

def liveSlots (r : Registry) : Nat :=
  (List.finRange slotCount).countP fun i => (r.slots i).any (·.enrolment.isSome)

def releasedSlots (r : Registry) : Nat :=
  (List.finRange slotCount).countP fun i => (r.slots i).any (·.enrolment.isNone)

/-- A slot is free, live or released. -/
theorem slots_add_up (r : Registry) :
    r.freeSlots + r.liveSlots + r.releasedSlots = slotCount := by
  have counted : ∀ slots : List SlotIndex,
      slots.countP (fun i => (r.slots i).isNone) +
          slots.countP (fun i => (r.slots i).any (·.enrolment.isSome)) +
          slots.countP (fun i => (r.slots i).any (·.enrolment.isNone)) = slots.length := by
    intro slots
    induction slots with
    | nil => rfl
    | cons i rest ih =>
      simp only [List.countP_cons, List.length_cons]
      cases r.slots i with
      | none =>
        simp
        omega
      | some s =>
        cases he : s.enrolment with
        | none =>
          simp [he]
          omega
        | some e =>
          simp [he]
          omega
  have all := counted (List.finRange slotCount)
  rwa [List.length_finRange] at all

/-- The table of contexts lists each live slot once. -/
theorem Linked.contextCount {r : Registry} (h : Linked r) : r.contextCount = r.liveSlots := by
  have once : r.byId.values.Nodup := by
    refine List.Nodup.map_on (fun x hx y hy same => ?_) r.byId.distinct.of_map
    obtain ⟨s, hs, hid, _⟩ := (h.byId x.1 x.2).mp ((Table.get?_eq_some_iff _ _ _).mpr hx)
    obtain ⟨t, ht, hid', _⟩ := (h.byId y.1 y.2).mp ((Table.get?_eq_some_iff _ _ _).mpr hy)
    rw [← same, hs] at ht
    cases ht
    exact Prod.ext (hid.symm.trans hid') same
  have live : ∀ i, i ∈ r.byId.values ↔
      i ∈ (List.finRange slotCount).filter fun i => (r.slots i).any (·.enrolment.isSome) := by
    intro i
    simp only [Table.mem_values, h.byId, List.mem_filter, List.mem_finRange, true_and]
    cases r.slots i with
    | none => simp
    | some s => simp
  have listed := (List.perm_ext_iff_of_nodup once ((List.nodup_finRange _).filter _)).mpr live
  calc r.contextCount = r.byId.values.length := by simp [Registry.contextCount, Table.size, Table.values]
    _ = _ := listed.length_eq
    _ = r.liveSlots := List.countP_eq_length_filter.symm

/-- Every table says what the others say. -/
structure InStep (r : Registry) : Prop extends Linked r where
  /-- An order of a database uses one slot at most. -/
  alone : ∀ {site i j s t}, r.slots i = some s → r.slots j = some t → site ∈ s.users →
    site ∈ t.users → i = j
  /-- A slot that is released and unused is there because its function was handed out. -/
  swept : ∀ {i s}, r.slots i = some s → s.enrolment = none → s.users = [] → s.exported = true
  contexts : r.contextCount = r.liveSlots
  total : r.freeSlots + r.liveSlots + r.releasedSlots = 32

/-- **The registry's tables stay in step**, whatever is asked of it, in whatever order, and whatever
stores answer to installations.

One operation is over when the next begins. So an installation takes in what a store answers, and not
what the store might do to the registry before it answers. -/
theorem operations_keep_tables_in_step (operations : List Operation) :
    InStep (Registrar.new.run operations).registry := by
  have sound := Registrar.run_sound Registrar.new_sound operations
  constructor
  case toLinked => exact sound.linked
  case alone =>
    intro site i j s t hs ht here there
    have recorded := (sound.linked.installs site i).mpr ⟨s, hs, here⟩
    rw [(sound.linked.installs site j).mpr ⟨t, ht, there⟩] at recorded
    exact (Option.some.inj recorded).symm
  case swept =>
    intro i s hs released unused
    by_contra kept
    exact sound.swept i s hs (by simpa [Slot.idle, released, unused] using kept)
  case contexts => exact sound.linked.contextCount
  case total => exact slots_add_up _

end CollatedStore.Registry
