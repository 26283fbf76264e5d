import CollatedStore.Host
import CollatedStore.Proofs.Registry.Installation
import CollatedStore.Store.Install

/-!
The registry among the stores that use its functions. A function that a store was given by an
installation answers for one context for as long as it stays there: `installed_serves_its_context`.
-/
namespace CollatedStore.Registry

/-- The functions that a store holds, and what setting one does to them. A refused call leaves them
as they were, and no call acts back on the registry. -/
structure OrderView (ε : Type) [Store ε] where
  fn : ε → Dbi → Role → Option CompareFn
  envId : ∀ (store : ε) r role txn dbi f,
    Store.envId (Store.setOrder store r role txn dbi f).1.store = Store.envId store
  registry : ∀ (store : ε) r role txn dbi f, (Store.setOrder store r role txn dbi f).2 = r
  taken : ∀ (store : ε) r role txn dbi f,
    (Store.setOrder store r role txn dbi f).1.ended = .success → ∀ d ρ,
      fn (Store.setOrder store r role txn dbi f).1.store d ρ =
        if d = dbi ∧ ρ = role then f else fn store d ρ
  refused : ∀ (store : ε) r role txn dbi f,
    (Store.setOrder store r role txn dbi f).1.ended ≠ .success → ∀ d ρ,
      fn (Store.setOrder store r role txn dbi f).1.store d ρ = fn store d ρ

structure World (ε : Type) where
  registry : Registry
  /-- The guards held, not yet dropped or given up. -/
  guards : List Guard
  /-- The open environments by their ids. -/
  stores : UInt64 → Option ε
  /-- The mode of each site's last successful installation. -/
  installed : Site → Option Dispatch

namespace World

variable {ε : Type} [Store ε]

def new : World ε := ⟨.new, [], fun _ => none, fun _ => none⟩

def setStore (w : World ε) (e : UInt64) (store : Option ε) : World ε :=
  { w with stores := fun x => if x = e then store else w.stores x }

/-- Notes the outcome of an installation. -/
def note (w : World ε) (site : Site) (mode : Dispatch) (taken : Bool) : World ε :=
  { w with installed := fun x => if taken = true ∧ x = site then some mode else w.installed x }

/-- One operation. One that fails and changes nothing is no step. An environment is forgotten when
it is not open, and starts without installations when it is opened. -/
inductive Step (view : OrderView ε) : World ε → World ε → Prop
  | configure (w : World ε) (settings : Settings) :
      Step view w { w with registry := w.registry.configure settings }
  | registerSingle (w : World ε) (collation : Collation) (r : Registry)
      (h : w.registry.registerSingle collation = .ok r) : Step view w { w with registry := r }
  | clearSingle (w : World ε) : Step view w { w with registry := w.registry.clearSingle.2 }
  | register (w : World ε) (id : ContextId) (collation : Collation) (g : Guard) (r : Registry)
      (h : w.registry.register id collation = .ok (g, r)) :
      Step view w { w with registry := r, guards := g :: w.guards }
  | deregister (w : World ε) (id : ContextId) (r : Registry)
      (h : w.registry.deregister id = .ok r) : Step view w { w with registry := r }
  | drop (w : World ε) (g : Guard) (held : g ∈ w.guards) :
      Step view w { w with registry := w.registry.release g, guards := w.guards.erase g }
  | giveUp (w : World ε) (g : Guard) (held : g ∈ w.guards) :
      Step view w { w with guards := w.guards.erase g }
  | exportFn (w : World ε) (mode : Dispatch) (fn : CompareFn) (r : Registry)
      (h : w.registry.exportFn mode = .ok (fn, r)) : Step view w { w with registry := r }
  | reclaim (w : World ε) (id : ContextId) (freed : Bool) (r : Registry)
      (h : w.registry.reclaim id = .ok (freed, r)) : Step view w { w with registry := r }
  | install (w : World ε) (e : UInt64) (store : ε) (here : w.stores e = some store) (role : Role)
      (txn : Handle) (dbi : Dbi) (mode : Dispatch) (result : Except CallError Unit) (r : Registry)
      (store' : ε) (h : w.registry.install store role txn dbi mode = (result, r, store')) :
      Step view w (({ w with registry := r }.setStore e (some store')).note ⟨e, dbi, role⟩ mode
        result.isOk)
  | forget (w : World ε) (e : UInt64) (gone : w.stores e = none) :
      Step view w { w with registry := (w.registry.forgetEnvironment e).2 }
  | openStore (w : World ε) (store : ε) (fresh : w.stores (Store.envId store) = none) :
      Step view w { w.setStore (Store.envId store) (some store) with
        installed := fun x => if x.envId = Store.envId store then none else w.installed x }
  | closeStore (w : World ε) (e : UInt64) : Step view w (w.setStore e none)
  | work (w : World ε) (e : UInt64) (store store' : ε) (here : w.stores e = some store)
      (envId : Store.envId store' = Store.envId store)
      (fns : ∀ dbi role, view.fn store' dbi role = view.fn store dbi role) :
      Step view w (w.setStore e (some store'))

inductive Reachable (view : OrderView ε) : World ε → Prop
  | new : Reachable view .new
  | step {w w' : World ε} : Reachable view w → Step view w w' → Reachable view w'

/-- The function that each site was last given by a context is that of the slot it is recorded
on. -/
structure Sound (view : OrderView ε) (w : World ε) : Prop where
  linked : Linked w.registry
  names : ∀ g ∈ w.guards, Names w.registry g
  ids : ∀ {e store}, w.stores e = some store → Store.envId store = e
  serves : ∀ {e store dbi role id}, w.stores e = some store →
    w.installed ⟨e, dbi, role⟩ = some (.context id) →
    ∃ i, view.fn store dbi role = some (.slot i) ∧ Pins w.registry ⟨e, dbi, role⟩ i id

theorem new_sound (view : OrderView ε) : Sound view .new where
  linked := new_linked
  names := by simp [new]
  ids := by simp [new]
  serves := by simp [new]

/-- What remains to be shown of an operation on the registry alone. -/
theorem Sound.change {view : OrderView ε} {w : World ε} (h : Sound view w) {r : Registry}
    (linked : Linked r) (names : ∀ g ∈ w.guards, Names r g)
    (pins : ∀ {e store dbi role i id}, w.stores e = some store →
      Pins w.registry ⟨e, dbi, role⟩ i id → Pins r ⟨e, dbi, role⟩ i id) :
    Sound view { w with registry := r } where
  linked := linked
  names := names
  ids := h.ids
  serves here last := by
    obtain ⟨i, hfn, hpins⟩ := h.serves here last
    exact ⟨i, hfn, pins here hpins⟩

/-- An installation that never reached its store, or one that the store has answered. -/
theorem install_cases (view : OrderView ε) {r r' : Registry} {store store' : ε} {role : Role}
    {txn : Handle} {dbi : Dbi} {mode : Dispatch} {result : Except CallError Unit}
    (h : r.install store role txn dbi mode = (result, r', store')) :
    (result.isOk = false ∧ r' = r ∧ store' = store) ∨
      ∃ i r₁, r.beginInstall ⟨Store.envId store, dbi, role⟩ mode = .ok (i, r₁) ∧
        r' = r₁.endInstall i result.isOk ∧ Store.envId store' = Store.envId store ∧
        ∀ d ρ, view.fn store' d ρ =
          if result.isOk = true ∧ d = dbi ∧ ρ = role then some i.fn else view.fn store d ρ := by
  unfold Registry.install at h
  split at h
  · cases h; exact Or.inl ⟨rfl, rfl, rfl⟩
  · rename_i i r₁ begun
    have same := view.registry store r₁ role txn dbi (some i.fn)
    have envId := view.envId store r₁ role txn dbi (some i.fn)
    have taken := view.taken store r₁ role txn dbi (some i.fn)
    have refused := view.refused store r₁ role txn dbi (some i.fn)
    generalize Store.setOrder store r₁ role txn dbi (some i.fn) = answer at *
    obtain ⟨reply, r₂⟩ := answer
    simp only at same
    subst same
    simp only [Prod.mk.injEq] at h
    obtain ⟨rfl, rfl, rfl⟩ := h
    refine Or.inr ⟨i, r₂, begun, rfl, envId, fun d ρ => ?_⟩
    unfold CallError.check
    by_cases success : reply.ended = .success
    · rw [if_pos success, taken success]
      simp [Except.isOk, Except.toBool]
    · rw [if_neg success, refused success]
      simp [Except.isOk, Except.toBool]

theorem install_sound {view : OrderView ε} {w : World ε} (h : Sound view w) {e : UInt64}
    {store store' : ε} (here : w.stores e = some store) {role : Role} {txn : Handle} {dbi : Dbi}
    {mode : Dispatch} {result : Except CallError Unit} {r : Registry}
    (installed : w.registry.install store role txn dbi mode = (result, r, store')) :
    Sound view (({ w with registry := r }.setStore e (some store')).note ⟨e, dbi, role⟩ mode
      result.isOk) := by
  have id := h.ids here
  subst id
  obtain ⟨failed, rfl, rfl⟩ | ⟨i, r₁, begun, rfl, envId, fns⟩ := install_cases view installed
  · have same : (({ w with registry := w.registry }.setStore (Store.envId store')
        (some store')).note ⟨Store.envId store', dbi, role⟩ mode result.isOk) = w := by
      have stores : (fun x => if x = Store.envId store' then some store' else w.stores x) =
          w.stores := by
        funext x
        split
        · rename_i hx; rw [hx, here]
        · rfl
      simp [setStore, note, failed, stores]
    rw [same]
    exact h
  · constructor
    case linked => exact h.linked.install begun _
    case names => exact fun g hg => (h.names g hg).descend (install_descends h.linked begun _)
    case ids =>
      intro e' store₁ hstore
      simp only [setStore, note] at hstore
      split at hstore
      · rename_i he
        cases hstore
        exact envId.trans he.symm
      · exact h.ids hstore
    case serves =>
      intro e' store₁ d ρ id hstore last
      simp only [setStore, note] at hstore last
      -- The site just installed, and every other one.
      by_cases hsite : (⟨e', d, ρ⟩ : Site) = ⟨Store.envId store, dbi, role⟩
      · simp only [Site.mk.injEq] at hsite
        obtain ⟨rfl, rfl, rfl⟩ := hsite
        rw [if_pos rfl] at hstore
        cases hstore
        cases taken : result.isOk with
        | true =>
          simp only [taken, and_self, ↓reduceIte, Option.some.injEq] at last
          subst last
          obtain ⟨j, hfn, pins⟩ := install_pins h.linked begun
          exact ⟨j, by simp [fns, taken, hfn], pins⟩
        | false =>
          simp only [taken, Bool.false_eq_true, false_and, ↓reduceIte] at last
          obtain ⟨j, hfn, pins⟩ := h.serves here last
          exact ⟨j, by simp [fns, taken, hfn], pins.install_refused h.linked begun⟩
      · rw [if_neg (fun both => hsite both.2)] at last
        have other : ∃ store₀, w.stores e' = some store₀ ∧
            view.fn store₁ d ρ = view.fn store₀ d ρ := by
          split at hstore
          · rename_i he
            cases hstore
            refine ⟨store, he ▸ here, ?_⟩
            rw [fns, if_neg]
            rintro ⟨_, rfl, rfl⟩
            exact hsite (by rw [he])
          · exact ⟨store₁, hstore, rfl⟩
        obtain ⟨store₀, here₀, same⟩ := other
        obtain ⟨j, hfn, pins⟩ := h.serves here₀ last
        exact ⟨j, same.trans hfn, pins.install_other h.linked begun _ hsite⟩

theorem step_sound {view : OrderView ε} {w w' : World ε} (h : Sound view w)
    (step : Step view w w') : Sound view w' := by
  cases step with
  | configure settings =>
    exact h.change ⟨h.linked.byId, h.linked.ids, h.linked.installs, h.linked.users,
      h.linked.generation, h.linked.generations⟩ h.names fun _ pins => pins
  | registerSingle collation r hr =>
    unfold Registry.registerSingle at hr
    split at hr
    · cases hr
    · cases hr
      exact h.change ⟨h.linked.byId, h.linked.ids, h.linked.installs, h.linked.users,
        h.linked.generation, h.linked.generations⟩ h.names fun _ pins => pins
  | clearSingle =>
    exact h.change ⟨h.linked.byId, h.linked.ids, h.linked.installs, h.linked.users,
      h.linked.generation, h.linked.generations⟩ h.names fun _ pins => pins
  | register id collation g r hr =>
    have changed := h.change (h.linked.register hr) (fun g' hg => (h.names g' hg).register hr)
      fun _ pins => pins.register h.linked hr
    refine ⟨changed.linked, fun g' hg => ?_, changed.ids, changed.serves⟩
    obtain rfl | hg := List.mem_cons.mp hg
    · exact register_names h.linked hr
    · exact changed.names g' hg
  | deregister id r hr =>
    obtain ⟨i, bound, rfl⟩ := deregister_eq_ok h.linked hr
    exact h.change (h.linked.retire bound)
      (fun g hg => (h.names g hg).descend (retire_descends _ id i))
      fun _ pins => pins.retire h.linked bound
  | drop g held =>
    have rest : ∀ g' ∈ w.guards.erase g, g' ∈ w.guards := fun _ => List.mem_of_mem_erase
    obtain same | ⟨bound, retired⟩ := release_cases h.linked (h.names g held)
    · rw [same]
      exact ⟨h.linked, fun g' hg => h.names g' (rest g' hg), h.ids, h.serves⟩
    · rw [retired]
      have changed := h.change (h.linked.retire bound)
        (fun g' hg => (h.names g' hg).descend (retire_descends _ g.id g.slot))
        fun _ pins => pins.retire h.linked bound
      exact ⟨changed.linked, fun g' hg => changed.names g' (rest g' hg), changed.ids,
        changed.serves⟩
  | giveUp g held =>
    exact ⟨h.linked, fun g' hg => h.names g' (List.mem_of_mem_erase hg), h.ids, h.serves⟩
  | exportFn mode fn r hr =>
    obtain rfl | ⟨i, rfl⟩ := exportFn_cases hr
    · exact h
    · exact h.change (h.linked.mark i true)
        (fun g hg => (h.names g hg).descend (mark_descends _ i true))
        fun _ pins => modifySlot_pins pins i fun _ => rfl
  | reclaim id freed r hr =>
    obtain rfl | ⟨i, rfl⟩ := reclaim_cases hr
    · exact h
    · have marked := h.linked.mark i false
      refine h.change (marked.sweep i) (fun g hg => ?_) fun _ pins => ?_
      · exact (h.names g hg).descend ((sweep_descends _ i).trans (mark_descends _ i false))
      · exact (modifySlot_pins pins i fun _ => rfl : Pins (w.registry.modifySlot i fun s =>
          { s with exported := false }) _ _ _).sweep marked i
  | install e store here role txn dbi mode result r store' hr => exact install_sound h here hr
  | forget e gone =>
    refine h.change (h.linked.forgetEnvironment e)
      (fun g hg => (h.names g hg).descend (forgetEnvironment_descends h.linked e))
      fun {e' store _ _ _ _} here pins => pins.forgetEnvironment h.linked ?_
    rintro rfl
    rw [gone] at here
    cases here
  | openStore store fresh =>
    refine ⟨h.linked, h.names, ?_, ?_⟩
    · intro e store' hstore
      simp only [setStore] at hstore
      split at hstore
      · rename_i he
        cases hstore
        exact he.symm
      · exact h.ids hstore
    · intro e store' dbi role id hstore last
      simp only [setStore] at hstore last
      split at last
      · cases last
      · rename_i he
        rw [if_neg he] at hstore
        exact h.serves hstore last
  | closeStore e =>
    refine ⟨h.linked, h.names, ?_, ?_⟩
    · intro e' store hstore
      simp only [setStore] at hstore
      split at hstore
      · cases hstore
      · exact h.ids hstore
    · intro e' store dbi role id hstore last
      simp only [setStore] at hstore
      split at hstore
      · cases hstore
      · exact h.serves hstore last
  | work e store store' here envId fns =>
    refine ⟨h.linked, h.names, ?_, ?_⟩
    · intro e' store₁ hstore
      simp only [setStore] at hstore
      split at hstore
      · rename_i he
        cases hstore
        exact he ▸ envId.trans (h.ids here)
      · exact h.ids hstore
    · intro e' store₁ dbi role id hstore last
      simp only [setStore] at hstore
      split at hstore
      · rename_i he
        subst he
        cases hstore
        rw [fns]
        exact h.serves here last
      · exact h.serves hstore last

theorem reachable_sound {view : OrderView ε} {w : World ε} (h : Reachable view w) :
    Sound view w := by
  induction h with
  | new => exact new_sound view
  | step _ step ih => exact step_sound ih step

end World

end CollatedStore.Registry
