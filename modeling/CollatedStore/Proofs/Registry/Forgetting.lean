import CollatedStore.Proofs.Registry.Operations
import Mathlib.Data.Set.Card

/-!
Forgetting an environment. Its records go one after another, and a slot may be freed on the way;
in the end the slots are gone that only those records kept, and everything else is as it was.
-/
namespace CollatedStore

namespace Slot

/-- The slot without its uses at `sites`. -/
def less (s : Slot) (sites : List Site) : Slot :=
  { s with users := s.users.filter fun site => decide (site ∉ sites) }

/-- What becomes of a slot when `sites` are forgotten. It is freed if that makes it idle. -/
def without (s : Slot) (sites : List Site) : Option Slot :=
  if (s.less sites).idle && !s.idle then none else some (s.less sites)

theorem less_of_apart {s : Slot} {sites : List Site} (apart : ∀ site ∈ s.users, site ∉ sites) :
    s.less sites = s := by
  have same : s.users.filter (fun site => decide (site ∉ sites)) = s.users := by
    apply List.filter_eq_self.mpr
    intro site used
    simp [apart site used]
  rw [less, same]

theorem without_of_apart {s : Slot} {sites : List Site} (apart : ∀ site ∈ s.users, site ∉ sites) :
    s.without sites = some s := by
  simp [without, less_of_apart apart]

theorem less_cons (s : Slot) (site : Site) (rest : List Site) :
    (s.less [site]).less rest = s.less (site :: rest) := by
  simp only [less, List.filter_filter]
  congr 2
  funext x
  simp [Bool.and_comm]

theorem idle_iff {s : Slot} :
    s.idle = true ↔ s.enrolment = none ∧ s.users = [] ∧ s.exported = false := by
  simp [idle, and_assoc]

theorem idle_less {s : Slot} (h : s.idle = true) (sites : List Site) :
    (s.less sites).idle = true := by
  obtain ⟨released, unused, unmarked⟩ := idle_iff.mp h
  apply idle_iff.mpr
  simp [less, released, unused, unmarked]

/-- Forgetting sites one by one comes to the same. -/
theorem without_cons (s : Slot) (site : Site) (rest : List Site) :
    (s.without [site]).bind (·.without rest) = s.without (site :: rest) := by
  have later : (s.less [site]).idle = true → ((s.less [site]).less rest).idle = true :=
    fun idle => idle_less idle rest
  have now : s.idle = true → (s.less [site]).idle = true := fun idle => idle_less idle [site]
  rw [less_cons] at later
  unfold without
  cases before : s.idle <;> cases between : (s.less [site]).idle <;>
    simp_all [less_cons]

/-- A slot goes exactly if it was kept for the forgotten sites alone. -/
theorem without_eq_none_iff {s : Slot} {sites : List Site} :
    s.without sites = none ↔ s.enrolment = none ∧ s.exported = false ∧ s.users ≠ [] ∧
      ∀ site ∈ s.users, site ∈ sites := by
  have left : (s.less sites).idle = true ↔
      s.enrolment = none ∧ (∀ site ∈ s.users, site ∈ sites) ∧ s.exported = false := by
    simp [idle_iff, less]
  have freed : s.without sites = none ↔ (s.less sites).idle = true ∧ ¬ s.idle = true := by
    simp [without]
  rw [freed, left, idle_iff]
  constructor
  · rintro ⟨⟨released, within, unmarked⟩, busy⟩
    exact ⟨released, unmarked, fun unused => busy ⟨released, unused, unmarked⟩, within⟩
  · rintro ⟨released, unmarked, used, within⟩
    exact ⟨⟨released, within, unmarked⟩, fun idle => used idle.2.1⟩

theorem without_eq_some {s t : Slot} {sites : List Site} (h : s.without sites = some t) :
    t = s.less sites := by
  unfold without at h
  split at h
  · cases h
  · exact (Option.some.inj h).symm

/-- No registration ends with a slot that is freed. -/
theorem without_enrolment (s : Slot) (sites : List Site) :
    (s.without sites).bind Slot.enrolment = s.enrolment := by
  cases left : s.without sites with
  | none => exact (without_eq_none_iff.mp left).1.symm
  | some t =>
    rw [without_eq_some left]
    rfl

end Slot

namespace Registry

section
variable {r : Registry}

theorem record_none_slots (h : Linked r) (site : Site) (i : SlotIndex) :
    (r.record site none).2.slots i = (r.slots i).map (·.less [site]) := by
  rw [record_slots h]
  cases hs : r.slots i with
  | none => rfl
  | some s =>
    have erased : s.users.erase site = s.users.filter fun x => decide (x ∉ [site]) := by
      rw [(h.users hs).erase_eq_filter]
      congr 1
      funext x
      apply Bool.eq_iff_iff.mpr
      simp
    simp [Slot.less, erased]

/-- Only the slot that the site used can be freed. -/
theorem forgetSite_slots (h : Linked r) (site : Site) (i : SlotIndex) :
    (r.forgetSite site).slots i = (r.slots i).bind (·.without [site]) := by
  rw [forgetSite_eq]
  by_cases here : r.installs.get? site = some i
  · obtain ⟨s, hs, used⟩ := (h.installs site i).mp here
    have busy : s.idle = false := by
      cases idle : s.idle with
      | false => rfl
      | true => simp [(Slot.idle_iff.mp idle).2.1] at used
    have recorded : (r.record site none).2.slots i = some (s.less [site]) := by
      rw [record_none_slots h, hs, Option.map_some]
    rw [here, hs]
    refine (sweep_slots_self recorded).trans ?_
    simp [Slot.without, busy]
  · have kept : ((r.record site none).2.sweepUnless (r.installs.get? site) none).slots i =
        (r.record site none).2.slots i := by
      cases previous : r.installs.get? site with
      | none => rfl
      | some j =>
        rw [previous] at here
        exact sweep_slots_of_ne _ fun same => here (same ▸ rfl)
    rw [kept, record_none_slots h]
    cases hs : r.slots i with
    | none => rfl
    | some s =>
      have apart : ∀ x ∈ s.users, x ∉ [site] := by
        intro x used there
        obtain rfl := List.mem_singleton.mp there
        exact here ((h.installs _ i).mpr ⟨s, hs, used⟩)
      simp [Slot.less_of_apart apart, Slot.without_of_apart apart]

theorem forgetSites_slots (h : Linked r) (sites : List Site) (i : SlotIndex) :
    (sites.foldl forgetSite r).slots i = (r.slots i).bind (·.without sites) := by
  induction sites generalizing r with
  | nil =>
    have same : ∀ s : Slot, s.without [] = some s :=
      fun s => Slot.without_of_apart fun _ _ => List.not_mem_nil
    simp [same]
  | cons site rest ih =>
    rw [List.foldl_cons, ih (h.forgetSite site), forgetSite_slots h]
    cases r.slots i with
    | none => rfl
    | some s => exact s.without_cons site rest

/-- The sites that have a record, of one environment. -/
def sitesOf (r : Registry) (envId : UInt64) : List Site :=
  r.installs.keys.filter fun site => site.envId == envId

theorem mem_sitesOf {envId : UInt64} {site : Site} :
    site ∈ r.sitesOf envId ↔ site.envId = envId ∧ (r.installs.get? site).isSome = true := by
  simp [sitesOf, Table.mem_keys, and_comm]

/-- No site has two records. -/
theorem length_sitesOf (r : Registry) (envId : UInt64) :
    (r.sitesOf envId).length =
      {site | site.envId = envId ∧ (r.installs.get? site).isSome = true}.ncard := by
  have listed : {site | site.envId = envId ∧ (r.installs.get? site).isSome = true} =
      ((r.sitesOf envId).toFinset : Set Site) := by
    ext site
    simp [mem_sitesOf]
  have once : (r.sitesOf envId).Nodup := r.installs.distinct.filter _
  rw [listed, Set.ncard_coe_finset, List.toFinset_card_of_nodup once]

theorem forgetEnvironment_eq (r : Registry) (envId : UInt64) :
    r.forgetEnvironment envId =
      ((r.sitesOf envId).length, (r.sitesOf envId).foldl forgetSite r) := rfl

theorem live?_eq (r : Registry) (id : ContextId) : r.live? id =
    (r.byId.get? id).bind fun i => ((r.slots i).bind Slot.enrolment).map fun e => (i, e) := by
  unfold Registry.live?
  cases r.byId.get? id with
  | none => rfl
  | some i =>
    cases hs : r.slots i with
    | none => simp [hs]
    | some s => cases he : s.enrolment <;> simp [hs, he]

/-- What forgetting an environment does to a registry, and what it does not. -/
structure ForgetsOnly (r : Registry) (envId : UInt64) : Prop where
  count : (r.forgetEnvironment envId).1 =
    {site | site.envId = envId ∧ (r.installs.get? site).isSome = true}.ncard
  records : ∀ site, (r.forgetEnvironment envId).2.installs.get? site =
    if site.envId = envId then none else r.installs.get? site
  /-- A slot is freed exactly if nothing but this environment's records kept it. -/
  freed : ∀ i s, r.slots i = some s → ((r.forgetEnvironment envId).2.slots i = none ↔
    s.enrolment = none ∧ s.exported = false ∧ s.users ≠ [] ∧ ∀ site ∈ s.users, site.envId = envId)
  /-- Every other slot keeps its context and all its other users. -/
  kept : ∀ i s t, r.slots i = some s → (r.forgetEnvironment envId).2.slots i = some t →
    t = { s with users := s.users.filter fun site => decide (site.envId ≠ envId) }
  free : ∀ i, r.slots i = none → (r.forgetEnvironment envId).2.slots i = none
  contexts : ∀ id, (r.forgetEnvironment envId).2.live? id = r.live? id
  byId : (r.forgetEnvironment envId).2.byId = r.byId
  single : (r.forgetEnvironment envId).2.single = r.single
  settings : (r.forgetEnvironment envId).2.settings = r.settings
  generation : (r.forgetEnvironment envId).2.generation = r.generation
  /-- There is nothing left to forget. -/
  again : (r.forgetEnvironment envId).2.forgetEnvironment envId = (0, (r.forgetEnvironment envId).2)

theorem forgetEnvironment_slots (h : Linked r) (envId : UInt64) (i : SlotIndex) :
    (r.forgetEnvironment envId).2.slots i =
      (r.slots i).bind (·.without (r.sitesOf envId)) := by
  rw [forgetEnvironment_eq]
  exact forgetSites_slots h _ i

/-- Every user of a slot has its record. -/
theorem Linked.mem_sitesOf (h : Linked r) {i : SlotIndex} {s : Slot} (hs : r.slots i = some s)
    {site : Site} (used : site ∈ s.users) (envId : UInt64) :
    site ∈ r.sitesOf envId ↔ site.envId = envId := by
  have recorded := (h.installs site i).mpr ⟨s, hs, used⟩
  simp [Registry.mem_sitesOf, recorded]

theorem forgetsOnly (h : Linked r) (envId : UInt64) : ForgetsOnly r envId := by
  have linked := h.forgetEnvironment envId
  obtain ⟨byId, single, settings, generation⟩ := forgetSites_tables (r.sitesOf envId) r
  have records : ∀ site, (r.forgetEnvironment envId).2.installs.get? site =
      if site.envId = envId then none else r.installs.get? site := by
    intro site
    rw [forgetEnvironment_eq]
    refine (forgetSites_installs _ r site).trans ?_
    by_cases own : site.envId = envId
    · cases found : r.installs.get? site with
      | none => simp [own]
      | some i => simp [own, mem_sitesOf, found]
    · simp [own, mem_sitesOf]
  constructor
  case count => exact length_sitesOf r envId
  case records => exact records
  case byId => exact byId
  case single => exact single
  case settings => exact settings
  case generation => exact generation
  case free =>
    intro i vacant
    rw [forgetEnvironment_slots h, vacant, Option.bind_none]
  case freed =>
    intro i s hs
    rw [forgetEnvironment_slots h, hs, Option.bind_some, Slot.without_eq_none_iff]
    refine and_congr_right fun _ => and_congr_right fun _ => and_congr_right fun _ => ?_
    exact forall₂_congr fun site used => h.mem_sitesOf hs used envId
  case kept =>
    intro i s t hs ht
    rw [forgetEnvironment_slots h, hs, Option.bind_some] at ht
    rw [Slot.without_eq_some ht, Slot.less]
    congr 1
    apply List.filter_congr
    intro site used
    simp [h.mem_sitesOf hs used envId]
  case contexts =>
    intro id
    have enrolled : ∀ i, ((r.forgetEnvironment envId).2.slots i).bind Slot.enrolment =
        (r.slots i).bind Slot.enrolment := by
      intro i
      rw [forgetEnvironment_slots h, Option.bind_assoc]
      exact congrArg _ (funext fun s => s.without_enrolment _)
    rw [live?_eq, live?_eq, show (r.forgetEnvironment envId).2.byId = r.byId from byId]
    simp only [enrolled]
  case again =>
    have none_left : (r.forgetEnvironment envId).2.sitesOf envId = [] := by
      apply List.eq_nil_iff_forall_not_mem.mpr
      intro site
      rw [mem_sitesOf, records]
      rintro ⟨own, there⟩
      simp [own] at there
    rw [forgetEnvironment_eq, none_left]
    rfl

end

/-- **Forgetting one environment touches no other**, wherever any sequence of operations has led the
registry, and also while an installation waits for a store's answer. -/
theorem forgetting_touches_one_environment (operations : List Operation) (envId : UInt64) :
    ForgetsOnly (Registrar.new.run operations).registry envId ∧
      ∀ site mode i r,
        (Registrar.new.run operations).registry.beginInstall site mode = .ok (i, r) →
        ForgetsOnly r envId := by
  have sound := Registrar.run_sound Registrar.new_sound operations
  refine ⟨forgetsOnly sound.linked envId, ?_⟩
  intro site mode i r begun
  exact forgetsOnly (sound.linked.beginInstall begun) envId

/-- Both contexts are released. One slot is used by two environments and the other by the forgotten
one alone, which meanwhile gives up its use of the first. -/
theorem forgetting_touches_one_environment_of_two :
    let shared : List Operation := [.register ⟨7⟩ (.ofOrder Order.reverse),
      .install ⟨1, 1, .keys⟩ (.context ⟨7⟩) true, .install ⟨2, 1, .keys⟩ (.context ⟨7⟩) true,
      .register ⟨8⟩ (.ofOrder Order.baseline), .install ⟨1, 2, .keys⟩ (.context ⟨8⟩) true,
      .install ⟨1, 2, .values⟩ (.context ⟨8⟩) true, .deregister ⟨7⟩, .deregister ⟨8⟩]
    let r := (Registrar.new.run shared).registry
    let asked := (r.record ⟨1, 1, .keys⟩ none).2
    (r.forgetEnvironment 1).1 = 3 ∧ (asked.forgetEnvironment 1).1 = 2 ∧
      r.freeSlots = 30 ∧ (r.forgetEnvironment 1).2.freeSlots = 31 ∧
      ForgetsOnly r 1 ∧ ForgetsOnly asked 1 := by
  intro shared r asked
  have only := forgetting_touches_one_environment shared 1
  have begun : r.beginInstall ⟨1, 1, .keys⟩ .baseline =
      .ok (⟨⟨1, 1, .keys⟩, .baseline, none, some ⟨0, by decide⟩⟩, asked) := rfl
  exact ⟨by decide +kernel, by decide +kernel, by decide +kernel, by decide +kernel, only.1,
    only.2 _ _ _ _ begun⟩

end Registry

end CollatedStore
