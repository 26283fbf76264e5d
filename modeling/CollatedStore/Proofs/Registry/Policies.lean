import CollatedStore.Proofs.Registry.Lent
import Mathlib.Data.List.Induction

/-!
Which policy a fault falls under. A registration keeps the policy of its time for as long as it
lasts, whatever is configured since. A comparison that meets no registration falls under the policy
of the moment.
-/
namespace CollatedStore

theorem Enrolment.judge_of_ok {e : Enrolment} {a b : Bytes} {order : Ordering}
    (answered : e.collation a b = .ok order) : e.judge a b = .sound order := by
  rw [Enrolment.judge, answered]

theorem Enrolment.judge_of_error {e : Enrolment} {a b : Bytes} {text : String}
    (failed : e.collation a b = .error text) :
    e.judge a b = .degraded .collation text e.policy a b := by
  rw [Enrolment.judge, failed]

theorem Order.ofCode_toCode (order : Ordering) : Order.ofCode (Order.toCode order) = order := by
  cases order <;> rfl

namespace Registry

open Registrar

/-! ## What is configured -/

/-- The policy once `operation` is carried out. -/
def Operation.policy (operation : Operation) (before : FaultPolicy) : FaultPolicy :=
  match operation with
  | .configure settings => settings.policy
  | _ => before

/-- The policy last configured. Until then a fault ends the process. -/
def configured (history : List Operation) : FaultPolicy :=
  history.foldl (fun policy operation => operation.policy policy) .abort

theorem Change.settings {r r' : Registry} {operation : Operation}
    (change : Change r operation r') :
    (∃ settings, operation = .configure settings) ∨ r'.settings = r.settings := by
  cases change with
  | nothing operation => exact .inr rfl
  | configure settings => exact .inl ⟨settings, rfl⟩
  | clearSingle => exact .inr rfl
  | registerSingle registered =>
    obtain ⟨_, rfl⟩ := registerSingle_eq_ok registered
    exact .inr rfl
  | register registered =>
    obtain ⟨_, _, _, t, rfl, _⟩ := register_eq_ok registered
    exact .inr rfl
  | deregister bound | drop bound => exact .inr (sweep_settings _ _)
  | install begun taken => exact .inr (install_settings begun taken)
  | exportFn handed =>
    obtain rfl | ⟨i, rfl⟩ := exportFn_cases handed
    · exact .inr rfl
    · exact .inr rfl
  | reclaim reclaimed =>
    obtain rfl | ⟨i, rfl⟩ := reclaim_cases reclaimed
    · exact .inr rfl
    · exact .inr (sweep_settings _ i)
  | forgetEnvironment envId => exact .inr (forgetSites_tables _ r).2.2.1

theorem Registrar.run_concat (o : Registrar) (history : List Operation) (operation : Operation) :
    o.run (history ++ [operation]) = (o.run history).perform operation := List.foldl_concat ..

theorem Registrar.new_run_sound (history : List Operation) : Sound (Registrar.new.run history) :=
  run_sound new_sound history

theorem Registrar.perform_policy {o : Registrar} (h : Sound o) (operation : Operation) :
    (o.perform operation).registry.settings.policy =
      operation.policy o.registry.settings.policy := by
  have changed := (perform_change h operation).settings
  cases operation with
  | configure settings => rfl
  | _ =>
    obtain ⟨_, ⟨⟩⟩ | same := changed
    exact congrArg Settings.policy same

/-- The registry knows the policy last configured. -/
theorem Registrar.run_policy (history : List Operation) :
    (Registrar.new.run history).registry.settings.policy = configured history := by
  induction history using List.reverseRecOn with
  | nil => rfl
  | append_singleton history operation ih =>
    rw [run_concat, perform_policy (new_run_sound history), ih, configured, configured,
      List.foldl_concat]

/-! ## What is registered -/

/-- Where a collation can be registered. -/
inductive Seat where
  | single
  | context (id : ContextId) (slot : SlotIndex)

def Seat.taken (r : Registry) : Seat → Bool
  | .single => r.single.isSome
  | .context id _ => r.isRegistered id

/-- The enrolment that a seat has. -/
inductive Seat.Holds (r : Registry) : Seat → Enrolment → Prop
  | single {e : Enrolment} (there : r.single = some e) : Holds r .single e
  | context {id : ContextId} {i : SlotIndex} {e : Enrolment} (live : r.live? id = some (i, e)) :
      Holds r (.context id i) e

/-- After `history` a registration is in force that was made when `before` had happened. No other
one can begin in a seat that is taken, so it is one registration all along. -/
inductive InForce (before : List Operation) (collation : Collation) : Seat → List Operation → Prop
  | single {r : Registry}
      (made : (Registrar.new.run before).registry.registerSingle collation = .ok r) :
      InForce before collation .single (before ++ [.registerSingle collation])
  | context {id : ContextId} {g : Guard} {r : Registry}
      (made : (Registrar.new.run before).registry.register id collation = .ok (g, r)) :
      InForce before collation (.context id g.slot) (before ++ [.register id collation])
  | later {seat : Seat} {history : List Operation} (lasts : InForce before collation seat history)
      (operation : Operation)
      (still : seat.taken (Registrar.new.run (history ++ [operation])).registry = true) :
      InForce before collation seat (history ++ [operation])

section
variable {o : Registrar} {seat : Seat} {e : Enrolment} {history before : List Operation}
  {collation : Collation}

theorem Seat.Holds.taken {r : Registry} (holds : seat.Holds r e) : seat.taken r = true := by
  cases holds with
  | single there => exact Option.isSome_of_eq_some there
  | context live => exact Option.isSome_of_eq_some live

/-- An enrolment stays as it is for as long as its seat is taken. -/
theorem Seat.Holds.perform (h : Sound o) (holds : seat.Holds o.registry e) {operation : Operation}
    (still : seat.taken (o.perform operation).registry = true) :
    seat.Holds (o.perform operation).registry e := by
  cases holds with
  | single there => exact .single (perform_single h there still)
  | context live => exact .context (perform_live? h live still)

/-- A registration in force has the policy that was configured when it was made. -/
theorem InForce.holds (inForce : InForce before collation seat history) :
    seat.Holds (Registrar.new.run history).registry ⟨collation, configured before⟩ := by
  induction inForce with
  | single made =>
    rw [run_concat, ← run_policy]
    obtain ⟨_, rfl⟩ := registerSingle_eq_ok made
    apply Seat.Holds.single
    simp only [Registrar.perform, made, adopt]
  | context made =>
    rw [run_concat, ← run_policy]
    apply Seat.Holds.context
    simp only [Registrar.perform, made]
    exact register_live? made
  | @later seat history lasts operation still ih =>
    rw [run_concat] at still ⊢
    exact ih.perform (new_run_sound history) still

/-- Whatever is registered comes from a registration in force. -/
theorem Seat.Holds.inForce (holds : seat.Holds (Registrar.new.run history).registry e) :
    ∃ before, InForce before e.collation seat history := by
  induction history using List.reverseRecOn with
  | nil => cases holds with
    | single there => cases there
    | context live => cases live
  | append_singleton history operation ih =>
    have taken := holds.taken
    have goesOn : seat.Holds (Registrar.new.run history).registry e →
        ∃ before, InForce before e.collation seat (history ++ [operation]) := by
      intro earlier
      obtain ⟨before, lasts⟩ := ih earlier
      exact ⟨before, lasts.later operation taken⟩
    rw [run_concat] at holds
    cases holds with
    | single there =>
      obtain earlier | ⟨collation, rfl, made, rfl⟩ :=
        perform_single_cases (new_run_sound history) there
      · exact goesOn (.single earlier)
      · exact ⟨history, .single made⟩
    | context live =>
      obtain earlier | ⟨collation, g, rfl, made, rfl, rfl⟩ :=
        perform_live?_cases (new_run_sound history) live
      · exact goesOn (.context earlier)
      · exact ⟨history, .context made⟩

end

/-! ## Comparing -/

/-- How a comparison is asked for: under a context id, or by the function of a seat. -/
inductive Route where
  | dispatch (id : ContextId)
  | single
  | slot (i : SlotIndex)

/-- The seat that a route leads to, if it is taken. -/
inductive Route.LeadsTo : Route → Seat → Prop
  | dispatch (id : ContextId) (i : SlotIndex) : LeadsTo (.dispatch id) (.context id i)
  | single : LeadsTo .single .single
  | slot (id : ContextId) (i : SlotIndex) : LeadsTo (.slot i) (.context id i)

/-- A route that meets no registration, and what is said of it. -/
inductive Route.Unmet (r : Registry) : Route → String → Prop
  | unknown {id : ContextId} (unregistered : r.isRegistered id = false) :
      Unmet r (.dispatch id) (CallError.unregisteredContext id).text
  | cleared (vacant : r.single = none) : Unmet r .single CallError.noSingle.text
  | released {i : SlotIndex} {s : Slot} (here : r.slots i = some s)
      (ended : s.enrolment = none) :
      Unmet r (.slot i) s!"context {s.id.text} was released while slot {i} is still installed"
  | unbound {i : SlotIndex} (vacant : r.slots i = none) :
      Unmet r (.slot i) s!"comparator slot {i} is not bound to a context"

def Route.compare : Route → Bytes → Bytes → Session Ordering
  | .dispatch id, a, b => Session.dispatch id a b
  | .single, a, b => Order.ofCode <$> Session.callFn .single a b
  | .slot i, a, b => Order.ofCode <$> Session.callFn (.slot i) a b

/-- What a comparison comes to that way. -/
def Route.judge (r : Registry) : Route → Bytes → Bytes → Judgement
  | .dispatch id => r.judgeContext id
  | .single => r.judgeSingle
  | .slot i => r.judgeSlot i

/-- How a comparison ends that meets a fault. -/
structure Faults (host : Host) (a b : Bytes) (fault : Fault) (policy : FaultPolicy)
    (ended : Option (Ordering × Host)) : Prop where
  aborts : ended = none ↔ policy = .abort
  /-- A fault that waits already is kept, and nothing else changes. -/
  returns : policy ≠ .abort →
    ended = some (Order.baseline a b, { host with parked := some (host.parked.getD fault) })

section
variable {r : Registry} {route : Route} {seat : Seat} {e : Enrolment} {host : Host} {a b : Bytes}

/-- Every route settles what the registry makes of it. -/
theorem Route.compare_eq (route : Route) (a b : Bytes) (host : Host) :
    route.compare a b host = Session.settle (route.judge host.registry a b) host := by
  have signed : ∀ settled : Option (Ordering × Host),
      ((settled.bind fun x => some (Order.toCode x.1, x.2)).bind
        fun x => some (Order.ofCode x.1, x.2)) = settled := by
    intro settled
    cases settled with
    | none => rfl
    | some x => simp [Order.ofCode_toCode]
  cases route with
  | dispatch id => rfl
  | single => exact signed (Session.settle (host.registry.judgeSingle a b) host)
  | slot i => exact signed (Session.settle (host.registry.judgeSlot i a b) host)

theorem settle_faults (host : Host) (a b : Bytes) (kind : FaultKind) (message : String)
    (policy : FaultPolicy) : Faults host a b ⟨kind, message⟩ policy
      (Session.settle (.degraded kind message policy a b) host) := by
  cases policy with
  | abort => exact ⟨iff_of_true rfl rfl, fun survives => absurd rfl survives⟩
  | sentinel =>
    have parked : some (host.parked.getD ⟨kind, message⟩) =
        host.parked.or (some ⟨kind, message⟩) := by
      cases host.parked <;> rfl
    refine ⟨iff_of_false nofun nofun, fun _ => ?_⟩
    rw [parked]
    rfl

theorem Route.LeadsTo.judge (leads : route.LeadsTo seat) (h : Linked r) (holds : seat.Holds r e)
    (a b : Bytes) : route.judge r a b = e.judge a b := by
  cases leads with
  | dispatch id i =>
    cases holds with | context live =>
    simp only [Route.judge, judgeContext, live]
  | single =>
    cases holds with | single there =>
    simp only [Route.judge, judgeSingle, there]
  | slot id i =>
    cases holds with | context live =>
    obtain ⟨s, hs, _, he⟩ := (h.live? id i e).mp live
    simp only [Route.judge, judgeSlot, hs, he]

theorem Route.Unmet.judge {message : String} (unmet : route.Unmet r message) (a b : Bytes) :
    route.judge r a b = r.unregistered message a b := by
  cases unmet with
  | @unknown id unregistered =>
    have lost : r.live? id = none := by simpa [isRegistered] using unregistered
    simp only [Route.judge, judgeContext, lost]
  | cleared vacant => simp only [Route.judge, judgeSingle, vacant]
  | released here ended => simp only [Route.judge, judgeSlot, here, ended]
  | unbound vacant => simp only [Route.judge, judgeSlot, vacant]

/-- A route leads to a seat that is taken, unless it meets no registration. -/
theorem Route.met_or_unmet (h : Linked r) (route : Route) :
    (∃ seat e, route.LeadsTo seat ∧ seat.Holds r e) ∨ ∃ message, route.Unmet r message := by
  cases route with
  | dispatch id =>
    cases live : r.live? id with
    | none => exact .inr ⟨_, .unknown (by simp [isRegistered, live])⟩
    | some found => exact .inl ⟨_, _, .dispatch id found.1, .context live⟩
  | single =>
    cases there : r.single with
    | none => exact .inr ⟨_, .cleared there⟩
    | some e => exact .inl ⟨_, e, .single, .single there⟩
  | slot i =>
    cases hs : r.slots i with
    | none => exact .inr ⟨_, .unbound hs⟩
    | some s =>
      cases he : s.enrolment with
      | none => exact .inr ⟨_, .released hs he⟩
      | some e =>
        exact .inl ⟨_, e, .slot s.id i, .context ((h.live? s.id i e).mpr ⟨s, hs, rfl, he⟩)⟩

theorem Route.Unmet.not_holds {message : String} (unmet : route.Unmet r message) (h : Linked r)
    (leads : route.LeadsTo seat) : ¬ seat.Holds r e := by
  intro holds
  cases unmet with
  | unknown unregistered =>
    cases leads
    have taken := holds.taken
    rw [Seat.taken, unregistered] at taken
    cases taken
  | cleared vacant =>
    cases leads
    cases holds with | single there =>
    rw [vacant] at there
    cases there
  | released here ended =>
    cases leads
    cases holds with | context live =>
    obtain ⟨s, hs, _, he⟩ := (h.live? _ _ e).mp live
    rw [here] at hs
    cases hs
    rw [ended] at he
    cases he
  | unbound vacant =>
    cases leads
    cases holds with | context live =>
    obtain ⟨s, hs, _⟩ := (h.live? _ _ e).mp live
    rw [vacant] at hs
    cases hs

end

/-! ## A process -/

/-- What happens to a process. -/
inductive Event where
  | operate (operation : Operation)
  | compare (route : Route) (a b : Bytes)
  | takeParked

/-- A process with the guards that are held in it. -/
structure Process where
  host : Host
  guards : List Guard

namespace Process

def start : Process := ⟨Host.new {}, []⟩

def registrar (p : Process) : Registrar := ⟨p.host.registry, p.guards⟩

/-- Nothing is left of a process that a fault ends. -/
def happen (p : Process) : Event → Option Process
  | .operate operation =>
    let o := p.registrar.perform operation
    some ⟨{ p.host with registry := o.registry }, o.guards⟩
  | .compare route a b => (route.compare a b p.host).map fun ended => ⟨ended.2, p.guards⟩
  | .takeParked => (Session.takeParked p.host).map fun taken => ⟨taken.2, p.guards⟩

def play (p : Process) (events : List Event) : Option Process := events.foldlM happen p

/-- The operations among the events. -/
def history (events : List Event) : List Operation :=
  events.filterMap fun event =>
    match event with
    | .operate operation => some operation
    | _ => none

end Process

theorem settle_registry {j : Judgement} {host host' : Host} {order : Ordering}
    (settled : Session.settle j host = some (order, host')) : host'.registry = host.registry := by
  obtain ⟨_, _ | ⟨fault, policy⟩⟩ := j
  · cases settled
    rfl
  · cases policy with
    | abort => cases settled
    | sentinel =>
      cases settled
      rfl

/-- Comparing changes nothing that is registered or configured. -/
theorem play_registrar {p q : Process} {events : List Event} (played : p.play events = some q) :
    q.registrar = p.registrar.run (Process.history events) := by
  induction events generalizing p with
  | nil =>
    cases played
    rfl
  | cons event rest ih =>
    obtain ⟨p', happened, played⟩ := Option.bind_eq_some_iff.mp played
    rw [ih played]
    cases event with
    | operate operation =>
      cases happened
      rfl
    | compare route a b =>
      obtain ⟨ended, compared, rfl⟩ := Option.map_eq_some_iff.mp happened
      rw [Route.compare_eq] at compared
      have same := settle_registry compared
      simp only [Process.registrar, same]
      rfl
    | takeParked =>
      cases happened
      rfl

/-- How a comparison ends after `events`, by the registrations that are in force then. -/
structure Governed (events : List Event) (host : Host) (route : Route) (a b : Bytes) : Prop where
  answers : ∀ seat before collation order, route.LeadsTo seat →
    InForce before collation seat (Process.history events) → collation a b = .ok order →
    route.compare a b host = some (order, host)
  /-- A registered collation that fails falls under the policy of its registration. -/
  fails : ∀ seat before collation text, route.LeadsTo seat →
    InForce before collation seat (Process.history events) → collation a b = .error text →
    Faults host a b ⟨.collation, text⟩ (configured before) (route.compare a b host)
  /-- A comparison that meets none falls under the policy of the moment. -/
  unmet : ∀ message, route.Unmet host.registry message →
    Faults host a b ⟨.unregistered, message⟩ (configured (Process.history events))
      (route.compare a b host)
  met : (¬ ∃ message, route.Unmet host.registry message) ↔ ∃ seat before collation,
    route.LeadsTo seat ∧ InForce before collation seat (Process.history events)

/-- **A fault falls under the policy of its registration**, whatever is configured, registered,
released and compared before. -/
theorem faults_fall_under_the_policy_of_their_registration {events : List Event} {p : Process}
    (played : Process.start.play events = some p) (route : Route) (a b : Bytes) :
    Governed events p.host route a b := by
  have run : p.registrar = Registrar.new.run (Process.history events) := play_registrar played
  have registry : p.host.registry = (Registrar.new.run (Process.history events)).registry :=
    congrArg Registrar.registry run
  have linked := (new_run_sound (Process.history events)).linked
  have judged : ∀ {seat before collation}, route.LeadsTo seat →
      InForce before collation seat (Process.history events) →
      route.compare a b p.host =
        Session.settle (Enrolment.judge ⟨collation, configured before⟩ a b) p.host := by
    intro seat before collation leads inForce
    rw [Route.compare_eq, registry, leads.judge linked inForce.holds]
  constructor
  case answers =>
    intro seat before collation order leads inForce answered
    rw [judged leads inForce, Enrolment.judge_of_ok answered]
    rfl
  case fails =>
    intro seat before collation text leads inForce failed
    rw [judged leads inForce, Enrolment.judge_of_error failed]
    exact settle_faults p.host a b _ _ _
  case unmet =>
    intro message unmet
    rw [Route.compare_eq, unmet.judge, unregistered, registry, run_policy]
    exact settle_faults p.host a b _ _ _
  case met =>
    rw [registry]
    constructor
    · intro met
      obtain ⟨seat, e, leads, holds⟩ := (Route.met_or_unmet linked route).resolve_right met
      obtain ⟨before, inForce⟩ := holds.inForce
      exact ⟨seat, before, e.collation, leads, inForce⟩
    · rintro ⟨seat, before, collation, leads, inForce⟩ ⟨message, unmet⟩
      exact unmet.not_holds linked leads inForce.holds

/-- One id is registered twice in one slot, under one policy and then under the other. -/
theorem faults_fall_under_the_policy_of_their_registration_once_rebound :
    let broken : Collation := .failing "no order"
    let slot : SlotIndex := ⟨0, by decide⟩
    let events : List Event := [.operate (.configure ⟨.sentinel, false⟩),
      .operate (.register ⟨7⟩ broken), .operate (.exportFn (.context ⟨7⟩)),
      .compare (.slot slot) [1] [2], .operate (.deregister ⟨7⟩),
      .operate (.configure ⟨.abort, false⟩), .operate (.register ⟨7⟩ broken),
      .operate (.configure ⟨.sentinel, false⟩)]
    ∃ p, Process.start.play events = some p ∧
      p.host.parked = some ⟨.collation, "no order"⟩ ∧
      Route.compare (.slot slot) [1] [2] p.host = none ∧
      Route.compare .single [1] [2] p.host = some (.lt, p.host) := by
  intro broken slot events
  have governed : ∀ p, Process.start.play events = some p → ∀ route,
      Governed events p.host route [1] [2] :=
    fun p played route => faults_fall_under_the_policy_of_their_registration played route [1] [2]
  refine ⟨_, rfl, rfl, ?_, ?_⟩
  · have rebound : InForce [.configure ⟨.sentinel, false⟩, .register ⟨7⟩ broken,
        .exportFn (.context ⟨7⟩), .deregister ⟨7⟩, .configure ⟨.abort, false⟩] broken
        (.context ⟨7⟩ slot) (Process.history events) :=
      .later (.context (g := ⟨⟨7⟩, slot, 2⟩) rfl) (.configure ⟨.sentinel, false⟩) rfl
    exact ((governed _ rfl (.slot slot)).fails _ _ broken _ (.slot _ _) rebound rfl).aborts.mpr rfl
  · exact ((governed _ rfl .single).unmet _ (.cleared rfl)).returns nofun

end Registry

end CollatedStore
