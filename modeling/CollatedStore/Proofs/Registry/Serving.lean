import CollatedStore.Proofs.Registry.InMemory

/-!
What a function does that an installation gave to a store: it compares as the collation registered
under the installation's id does at that moment, and faults while there is none.
-/
namespace CollatedStore

namespace Registry

/-- A slot's function compares as its context does. -/
theorem judge_slot_of_live {r : Registry} (h : Linked r) {i j : SlotIndex} {s : Slot}
    {e : Enrolment} (hs : r.slots i = some s) (live : r.live? s.id = some (j, e)) (a b : Bytes) :
    r.judge (.slot i) a b = e.judge a b := by
  obtain ⟨t, ht, hid, he⟩ := (h.live? s.id j e).mp live
  have hji : j = i := h.ids ht hs hid
  subst hji
  rw [hs] at ht
  cases ht
  simp [judge, judgeSlot, hs, he]

/-- A slot whose context is released answers with the baseline order and a fault. -/
theorem judge_slot_of_released {r : Registry} (h : Linked r) {i : SlotIndex} {s : Slot}
    (hs : r.slots i = some s) (released : r.isRegistered s.id = false) (a b : Bytes) :
    r.judge (.slot i) a b = .degraded .unregistered
      s!"context {s.id.text} was released while slot {i} is still installed"
      r.settings.policy a b := by
  cases he : s.enrolment with
  | none => simp [judge, judgeSlot, hs, he, unregistered]
  | some e =>
    have live := (h.live? s.id i e).mpr ⟨s, hs, rfl, he⟩
    simp [isRegistered, live] at released

end Registry

namespace Session

/-- Calling a slot's function asks the registry, and reports what comes of it. -/
theorem callFn_slot (i : SlotIndex) (a b : Bytes) (host : Host) :
    callFn (.slot i) a b host =
      (settle (host.registry.judge (.slot i) a b) host).map
        fun answered => (Order.toCode answered.1, answered.2) := by
  change (settle (host.registry.judge (.slot i) a b) host).bind
    (fun answered => some (Order.toCode answered.1, answered.2)) = _
  exact (Option.map_eq_bind ..).symm

/-- Under the sentinel policy a degraded judgement is answered, and its fault waits. -/
theorem settle_degraded_sentinel (kind : FaultKind) (message : String) (a b : Bytes)
    (host : Host) :
    settle (.degraded kind message .sentinel a b) host =
      some (Order.baseline a b,
        { host with parked := host.parked.or (some ⟨kind, message⟩) }) := rfl

end Session

namespace Registry

variable {ε : Type} [Store ε]

/-- **No cross-talk between contexts.** Whatever was registered, released, rebound, installed,
refused, handed out, reclaimed or forgotten meanwhile, the function of a site last installed under
`id` is that of a slot of `id`. Calling it runs the collation registered under `id`, and without one
it faults and leaves the baseline order.

The operations follow one another: a store that is given an order does not itself act on the registry
meanwhile. That is `view.registry`, and an environment in memory keeps to it. -/
theorem installed_serves_its_context {view : OrderView ε} {w : World ε}
    (h : World.Reachable view w) {e : UInt64} {store : ε} (here : w.stores e = some store)
    {dbi : Dbi} {role : Role} {id : ContextId}
    (last : w.installed ⟨e, dbi, role⟩ = some (.context id)) :
    ∃ i s, view.fn store dbi role = some (CompareFn.slot i) ∧
      w.registry.slots i = some s ∧ s.id = id ∧
      ∀ a b, ∀ host : Host, host.registry = w.registry →
        (∀ j enrolment, w.registry.live? id = some (j, enrolment) →
          Session.callFn (.slot i) a b host = (Session.settle (enrolment.judge a b) host).map
            fun answered => (Order.toCode answered.1, answered.2)) ∧
        (w.registry.isRegistered id = false → ∃ message,
          w.registry.judge (.slot i) a b =
            .degraded .unregistered message w.registry.settings.policy a b ∧
          (w.registry.settings.policy = .sentinel →
            Session.callFn (.slot i) a b host = some (Order.toCode (Order.baseline a b),
              { host with parked := host.parked.or (some ⟨.unregistered, message⟩) }))) := by
  have sound := World.reachable_sound h
  obtain ⟨i, hfn, _, owner⟩ := sound.serves here last
  obtain ⟨s, hs, rfl⟩ := Option.map_eq_some_iff.mp owner
  refine ⟨i, s, hfn, hs, rfl, fun a b host hr => ⟨fun j enrolment live => ?_, fun released => ?_⟩⟩
  · rw [Session.callFn_slot, hr, judge_slot_of_live sound.linked hs live]
  · have judged := judge_slot_of_released sound.linked hs released a b
    refine ⟨_, judged, fun policy => ?_⟩
    have called := Session.callFn_slot i a b host
    rw [hr, judged, policy, Session.settle_degraded_sentinel] at called
    exact called

/-- A released context keeps the slot that a database uses, also when another one is registered. -/
theorem installed_serves_its_context_once_released :
    ∃ (w : World Environment) (store : Environment), World.Reachable Environment.orderView w ∧
      w.stores 1 = some store ∧ w.installed ⟨1, 1, .keys⟩ = some (.context ⟨7⟩) ∧
      w.registry.isRegistered ⟨7⟩ = false ∧ w.registry.isRegistered ⟨8⟩ = true ∧
      ∃ i s, store.fn 1 .keys = some (CompareFn.slot i) ∧ w.registry.slots i = some s ∧
        s.id = ⟨7⟩ := by
  have fresh : World.Reachable Environment.orderView _ := .new
  have begun := (fresh.step
    (.openStore _ ((Environment.new 1 "" {}).txnBegin none 0).store rfl)).step
    (.register _ ⟨7⟩ (.ofOrder Order.reverse) _ _ rfl)
  have used := begun.step (.install _ 1 _ rfl .keys 1 1 (.context ⟨7⟩) _ _ _ rfl)
  have ended := (used.step (.drop _ _ (List.mem_singleton.mpr rfl))).step
    (.register _ ⟨8⟩ (.ofOrder Order.baseline) _ _ rfl)
  refine ⟨_, _, ended, rfl, rfl, rfl, rfl, ?_⟩
  obtain ⟨i, s, hfn, hs, hid, _⟩ :=
    installed_serves_its_context ended rfl
      (rfl : World.installed _ ⟨1, 1, .keys⟩ = some (.context ⟨7⟩))
  exact ⟨i, s, hfn, hs, hid⟩

end Registry

end CollatedStore
