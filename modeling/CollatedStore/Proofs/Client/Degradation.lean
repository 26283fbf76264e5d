import CollatedStore.Proofs.Client.Uses
import CollatedStore.Proofs.Environment.Bounds

/-!
Databases whose comparison functions fault. Under the sentinel policy such a function leaves the
baseline order, so that a store goes on as if that order had been installed; only the clients learn
of the faults.
-/
namespace CollatedStore

namespace Registry

/-! ## Functions that always fault -/

/-- Every comparison of `fn` faults, and the process goes on. -/
def Falters (r : Registry) (fn : CompareFn) : Prop :=
  ∀ a b, ∃ fault, (r.judge fn a b).fault = some (fault, .sentinel)

/-- A collation that answers no comparison. -/
def NeverAnswers (e : Enrolment) : Prop := ∀ a b, ∃ text, e.collation a b = .error text

/-- What a database may be left with that has no order: the function of a collation that never
answers, of a released context that still has its slot, or of none where none is registered. -/
inductive Orderless (r : Registry) : CompareFn → Prop
  | failing {e : Enrolment} (held : r.single = some e) (policy : e.policy = .sentinel)
      (never : NeverAnswers e) : Orderless r .single
  | failingContext {i : SlotIndex} {s : Slot} {e : Enrolment} (hs : r.slots i = some s)
      (held : s.enrolment = some e) (policy : e.policy = .sentinel) (never : NeverAnswers e) :
      Orderless r (.slot i)
  | released {i : SlotIndex} {s : Slot} (hs : r.slots i = some s) (gone : s.enrolment = none)
      (policy : r.settings.policy = .sentinel) : Orderless r (.slot i)
  | cleared (gone : r.single = none) (policy : r.settings.policy = .sentinel) : Orderless r .single

theorem NeverAnswers.falters {e : Enrolment} (never : NeverAnswers e) (policy : e.policy = .sentinel)
    (a b : Bytes) : ∃ fault, (e.judge a b).fault = some (fault, .sentinel) := by
  obtain ⟨text, failed⟩ := never a b
  rw [Enrolment.judge, failed, policy]
  exact ⟨_, rfl⟩

theorem Orderless.falters {r : Registry} {fn : CompareFn} (h : r.Orderless fn) : r.Falters fn := by
  intro a b
  cases h with
  | failing held policy never =>
    rw [judge, judgeSingle, held]
    exact never.falters policy a b
  | failingContext hs held policy never =>
    simp only [judge, judgeSlot, hs, held]
    exact never.falters policy a b
  | released hs gone policy =>
    simp only [judge, judgeSlot, hs, gone, unregistered, policy]
    exact ⟨_, rfl⟩
  | cleared gone policy =>
    simp only [judge, judgeSingle, gone, unregistered, policy]
    exact ⟨_, rfl⟩

/-! ## What a fault leaves -/

theorem judge_enrolled {e : Enrolment} {a b : Bytes} {met : Fault × FaultPolicy}
    (h : (e.judge a b).fault = some met) : (e.judge a b).order = Order.baseline a b := by
  rw [Enrolment.judge] at h ⊢
  split at h
  · cases h
  · rfl

/-- Wherever it comes from, a fault leaves the baseline order of the strings that were compared. -/
theorem order_of_fault {r : Registry} {fn : CompareFn} {a b : Bytes} {met : Fault × FaultPolicy}
    (h : (r.judge fn a b).fault = some met) : (r.judge fn a b).order = Order.baseline a b := by
  cases fn with
  | baseline | direct compare => cases h
  | single =>
    simp only [judge, judgeSingle] at h ⊢
    cases held : r.single with
    | some e =>
      rw [held] at h
      exact judge_enrolled h
    | none => rfl
  | slot i =>
    simp only [judge, judgeSlot] at h ⊢
    cases hs : r.slots i with
    | none => rfl
    | some s =>
      cases held : s.enrolment with
      | some e =>
        simp only [hs, held] at h ⊢
        exact judge_enrolled h
      | none =>
        simp only [held]
        rfl

end Registry

/-! ## The baseline order in their place -/

/-- The functions of two runs: where the first has one that falters, the second has the baseline
order; elsewhere both have the same. -/
inductive StandsIn (bad others : CompareFn → Prop) : CompareFn → CompareFn → Prop
  | baseline {fn : CompareFn} (falters : bad fn) : StandsIn bad others fn .baseline
  | other {fn : CompareFn} (sound : others fn) : StandsIn bad others fn fn

/-- What stands in the first of two lists that match has its match in the second. -/
theorem matched_mem {α β : Type} {R : α → β → Prop} {xs : List α} {ys : List β}
    (matched : List.Forall₂ R xs ys) : ∀ x ∈ xs, ∃ y ∈ ys, R x y := by
  induction matched with
  | nil => nofun
  | cons first _ ih =>
    intro x among
    obtain rfl | among := List.mem_cons.mp among
    · exact ⟨_, List.mem_cons_self, first⟩
    · obtain ⟨y, there, here⟩ := ih x among
      exact ⟨y, List.mem_cons_of_mem _ there, here⟩

namespace Question

variable {same : CompareFn → CompareFn → Prop} {asked asked' : List Question}

/-- What is asked in one of two runs alike is asked in the other. -/
theorem related (alike : List.Forall₂ (Question.Alike same) asked asked') :
    ∀ q ∈ asked, ∃ q' ∈ asked', Question.Alike same q q' := matched_mem alike

theorem related_back (alike : List.Forall₂ (Question.Alike same) asked asked') :
    ∀ q' ∈ asked', ∃ q ∈ asked, Question.Alike same q q' := by
  have swapped : List.Forall₂ (fun q' q => Question.Alike same q q') asked' asked := alike.flip
  exact matched_mem swapped

end Question

namespace Inquiry

variable {α : Type} {r : Registry} {x : Inquiry α}

theorem faults_eq_nil :
    x.faults r = [] ↔ ∀ q ∈ x.asked r.order, (r.judge q.fn q.left q.right).fault = none := by
  rw [faults_eq, List.flatMap_eq_nil_iff]
  simp only [Option.toList_eq_nil_iff]

theorem firstFault?_eq_none : x.firstFault? r = none ↔ x.faults r = [] := by
  rw [firstFault?, Option.map_eq_none_iff, List.head?_eq_none_iff]

end Inquiry

/-- Without a fault none is told. -/
theorem Client.conclude_ne_fault {op : String} {ended : Outcome} {α : Type} {given : Unit → α}
    {f : Fault} : (Client.conclude op none ended).map given ≠ .error (.error (.fault f)) := by
  intro told
  cases concluded : Client.conclude op none ended with
  | ok u =>
    rw [concluded] at told
    cases told
  | error halt =>
    rw [concluded] at told
    obtain rfl : halt = .error (.fault f) := Except.error.inj told
    cases ended with
    | error b => cases concluded
    | ok status =>
      rw [conclude] at concluded
      cases verdict_eq_fault.mp concluded

namespace Environment

/-- Stepping back makes no comparison that another function could answer otherwise. -/
theorem prev_quiet (env : Environment) (cursor : Handle) (key data : Option Descriptor) :
    Inquiry.Alike (fun _ _ => False) Eq (env.cursorGet cursor key data CursorOp.prev.code)
      (env.cursorGet cursor key data CursorOp.prev.code) := by
  have named : CursorOp.ofCode? CursorOp.prev.code = some .prev := rfl
  unfold cursorGet
  rw [named]
  cases env.admitMove cursor with
  | error s => exact .done rfl
  | ok admitted =>
    obtain ⟨c, entries, layout⟩ := admitted
    refine alike_after ?moved fun result => ?_
    case moved =>
      refine ((Cursor.alike_prev c entries).map _).bind fun fetch => ?_
      exact (Cursor.alike_resting fetch).bind fun p => Work.alike_pure _
    cases result with
    | error stop => exact .done rfl
    | ok done =>
      refine alike_after (alike_handOut entries done.1 key data) fun out => ?_
      cases out with
      | error stop => exact .done rfl
      | ok out => exact .done rfl

theorem asked_stepsBack (env : Environment) {call : Call} (back : call.stepsBack = true)
    (answer : Question → Ordering) : (env.respond call).asked answer = [] := by
  cases call with
  | cursorGet cursor key data op =>
    obtain rfl : op = CursorOp.prev.code := by simpa [Call.stepsBack] using back
    rw [respond, Inquiry.asked_map]
    exact (prev_quiet env cursor key data).quiet answer
  | _ => cases back

theorem perform_yields (env : Environment) (call : Call) (answer : Question → Ordering) :
    (env.perform call).Yields ((env.respond call).eval answer).ending := by
  rw [perform_eq_respond, Inquiry.yields_iff, Inquiry.yieldsBy_map]
  exact ⟨_, Inquiry.yields_iff.mp (Inquiry.yields_eval answer _), rfl⟩

/-- A call that compares something ends with a status. -/
theorem ended_of_asked {env : Environment} (reachable : env.Reachable) (call : Call)
    {answer : Question → Ordering} {q : Question} (asked : q ∈ (env.respond call).asked answer) :
    ∃ status, ((env.respond call).eval answer).ended = .ok status := by
  have forward : call.stepsBack = false := by
    cases back : call.stepsBack with
    | false => rfl
    | true =>
      rw [asked_stepsBack env back] at asked
      cases asked
  exact perform_unbroken (reachable_balanced reachable) forward (perform_yields env call answer)

/-- Whatever is answered, a call leads to an environment that calls can lead to. -/
theorem Reachable.respond {env : Environment} (reachable : env.Reachable) (call : Call)
    (answer : Question → Ordering) : ((env.respond call).eval answer).store.Reachable :=
  reachable.next call ⟨_, perform_yields env call answer⟩

end Environment

/-! ## Runs -/

/-- The second tells the same, unless a client's call made a comparison that faulted. Then, and only
then, the first tells a fault. -/
inductive Told.Degraded (faltered : Prop) : Told → Told → Prop
  | direct (ended : Outcome) (out : Handed) :
      Degraded faltered (.direct ended out) (.direct ended out)
  | client {result result' : Except Halt Handed} {back : Option Descriptor}
      (fault : (∃ f, result = .error (.error (.fault f))) ↔ faltered)
      (otherwise : ¬ faltered → result' = result) :
      Degraded faltered (.client result back) (.client result' back)

/-- How a use is answered with functions that falter, and how with the baseline order. -/
structure Answered.Degraded (bad others : CompareFn → Prop) (a a' : Answered) : Prop where
  asked : List.Forall₂ (Question.Alike (StandsIn bad others)) a.asked a'.asked
  /-- The comparisons that fault are those that the other run makes with the baseline order. -/
  compared : (∀ fn, others fn → fn ≠ .baseline) →
    ((∃ q ∈ a.asked, bad q.fn) ↔ ∃ q' ∈ a'.asked, q'.fn = .baseline)
  ended : a'.ended = a.ended
  out : a'.out = a.out
  told : Told.Degraded (∃ q ∈ a.asked, bad q.fn) a.told a'.told

namespace Use

/-- The same use, first at a moment when the bad functions falter. The others never do. -/
structure Degrading (bad others : CompareFn → Prop) (step step' : Registry × Use) : Prop where
  uses : step.2.Alike (StandsIn bad others) step'.2
  falters : ∀ fn, bad fn → step.1.Falters fn
  sound : ∀ fn, others fn → ∀ a b, ∃ o,
    step.1.judge fn a b = .sound o ∧ step'.1.judge fn a b = .sound o

variable {bad others : CompareFn → Prop} {registry registry' : Registry} {use use' : Use}

namespace Degrading

variable (h : Degrading bad others (registry, use) (registry', use'))
include h

/-- Whether or not they falter, the functions answer alike. -/
theorem agree (fn fn' : CompareFn) (fns : StandsIn bad others fn fn') (a b : Bytes) :
    (registry'.judge fn' a b).order = (registry.judge fn a b).order := by
  cases fns with
  | baseline falters =>
    obtain ⟨fault, met⟩ := h.falters fn falters a b
    exact (Registry.order_of_fault met).symm
  | other sound =>
    obtain ⟨o, judged, judged'⟩ := h.sound fn sound a b
    rw [judged, judged']

/-- A function faults exactly if it is a bad one. -/
theorem fault_iff {fn fn' : CompareFn} (fns : StandsIn bad others fn fn') (a b : Bytes) :
    (registry.judge fn a b).fault ≠ none ↔ bad fn := by
  constructor
  · intro met
    cases fns with
    | baseline falters => exact falters
    | other sound =>
      obtain ⟨o, judged, _⟩ := h.sound fn sound a b
      rw [judged] at met
      exact absurd rfl met
  · intro falters
    obtain ⟨fault, met⟩ := h.falters fn falters a b
    rw [met]
    nofun

/-- With the baseline order in place of the bad functions, nothing faults. -/
theorem stand_in_sound {fn fn' : CompareFn} (fns : StandsIn bad others fn fn') (a b : Bytes) :
    (registry'.judge fn' a b).fault = none := by
  cases fns with
  | baseline falters => rfl
  | other sound =>
    obtain ⟨o, _, judged'⟩ := h.sound fn sound a b
    rw [judged']
    rfl

variable {α : Type} {x x' : Inquiry α}
  (asked : List.Forall₂ (Question.Alike (StandsIn bad others)) (x.asked registry.order)
    (x'.asked registry'.order))
include asked

theorem handled : x.Handled registry := by
  intro met among
  rw [Inquiry.faults_eq] at among
  obtain ⟨q, compared, here⟩ := List.mem_flatMap.mp among
  obtain ⟨q', _, same⟩ := Question.related asked q compared
  rw [Option.mem_toList] at here
  have falters : bad q.fn := (h.fault_iff same.fn q.left q.right).mp fun none => by
    rw [none] at here
    cases here
  obtain ⟨fault, own⟩ := h.falters _ falters q.left q.right
  rw [own] at here
  cases here
  rfl

/-- A fault is met exactly if a bad function was called. -/
theorem meets_iff : x.firstFault? registry ≠ none ↔ ∃ q ∈ x.asked registry.order, bad q.fn := by
  rw [Ne, Inquiry.firstFault?_eq_none, Inquiry.faults_eq_nil]
  push Not
  refine exists_congr fun q => and_congr_right fun compared => ?_
  obtain ⟨q', _, same⟩ := Question.related asked q compared
  exact h.fault_iff same.fn q.left q.right

theorem stand_in_meets_none : x'.faults registry' = [] := by
  rw [Inquiry.faults_eq_nil]
  intro q' compared
  obtain ⟨q, _, same⟩ := Question.related_back asked q' compared
  exact h.stand_in_sound same.fn q'.left q'.right

/-- Where the baseline order comes in only for bad functions, it is called where they were. -/
theorem compares_iff (only : ∀ fn, others fn → fn ≠ .baseline) :
    (∃ q ∈ x.asked registry.order, bad q.fn) ↔
      ∃ q' ∈ x'.asked registry'.order, q'.fn = .baseline := by
  constructor
  · rintro ⟨q, compared, falters⟩
    obtain ⟨q', compared', same⟩ := Question.related asked q compared
    refine ⟨q', compared', ?_⟩
    obtain ⟨fn, left, right⟩ := q
    obtain ⟨fn', left', right'⟩ := q'
    cases same.fn with
    | baseline falters => rfl
    | other sound =>
      obtain ⟨o, judged, _⟩ := h.sound _ sound left right
      obtain ⟨fault, met⟩ := h.falters _ falters left right
      rw [judged] at met
      cases met
  · rintro ⟨q', compared', standard⟩
    obtain ⟨q, compared, same⟩ := Question.related_back asked q' compared'
    refine ⟨q, compared, ?_⟩
    obtain ⟨fn, left, right⟩ := q
    obtain ⟨fn', left', right'⟩ := q'
    cases same.fn with
    | baseline falters => exact falters
    | other sound => exact absurd standard (only _ sound)

end Degrading

/-- What two runs with such functions come to. -/
structure Degraded (bad others : CompareFn → Prop)
    (done done' : (List Answered × Environment) × Host) : Prop where
  answers : List.Forall₂ (Answered.Degraded bad others) done.1.1 done'.1.1
  store : done.1.2.Alike (StandsIn bad others) done'.1.2

/-- A client's call that made a comparison that faulted tells a fault; any other tells the same. -/
theorem told_degraded {faltered : Prop} {reply reply' : Reply Outcome Environment Handed}
    {fault : Option Fault} (uses : use.Alike (StandsIn bad others) use')
    (same : Reply.Alike (StandsIn bad others) reply reply') (met : fault ≠ none ↔ faltered)
    (ends : faltered → ∃ status, reply.ended = .ok status) :
    Told.Degraded faltered (use.tell fault reply) (use'.tell none reply') := by
  cases uses with
  | direct calls =>
    rw [tell, tell, same.ended, same.out]
    exact .direct _ _
  | client call =>
    rw [tell, tell, same.ended, same.out]
    refine .client ⟨?_, ?_⟩ fun sound => ?_
    · rintro ⟨f, told⟩
      refine met.mp fun none => ?_
      rw [none] at told
      exact Client.conclude_ne_fault told
    · intro faltered
      obtain ⟨status, ended⟩ := ends faltered
      obtain ⟨f, rfl⟩ := Option.ne_none_iff_exists'.mp (met.mpr faltered)
      rw [ended]
      exact ⟨f, rfl⟩
    · obtain rfl : fault = none := by
        by_contra some
        exact sound (met.mp some)
      rfl

/-- One use. -/
theorem make_degrading (h : Degrading bad others (registry, use) (registry', use'))
    {env env' : Environment} (reachable : env.Reachable)
    (alike : env.Alike (StandsIn bad others) env') (host host' : Host) :
    ∃ done done', use.make env { host with registry } = some done ∧
      use'.make env' { host' with registry := registry' } = some done' ∧
      Answered.Degraded bad others done.1.1 done'.1.1 ∧ done.1.2.Reachable ∧
      done.1.2.Alike (StandsIn bad others) done'.1.2 ∧
      ∀ fault, done'.2.parked = some fault → host'.parked = some fault := by
  have uses : use.Alike (StandsIn bad others) use' := h.uses
  obtain ⟨reply, asked⟩ := alike_answered alike uses h.agree
  have faultless := h.stand_in_meets_none asked
  have none_met : (env'.respond use'.call).firstFault? registry' = none :=
    Inquiry.firstFault?_eq_none.mpr faultless
  have handled' : (env'.respond use'.call).Handled registry' := by
    rw [Inquiry.Handled, faultless]
    intro met among
    cases among
  refine ⟨_, _, make_handled (h.handled asked), make_handled handled',
    ⟨asked, h.compares_iff asked, reply.ended, reply.out, ?_⟩, reachable.respond use.call _,
    reply.store, fun fault waits => ?_⟩
  · dsimp only
    rw [none_met]
    refine told_degraded uses reply (h.meets_iff asked) ?_
    -- A call that the store breaks off tells no fault, but such a call has compared nothing.
    rintro ⟨q, compared, _⟩
    exact Environment.ended_of_asked reachable use.call compared
  · dsimp only at waits
    rw [none_met] at waits
    exact waiting_without_fault waits

/-- Any number of uses, one after another. -/
theorem history_degrading {steps steps' : List (Registry × Use)}
    (matched : List.Forall₂ (Degrading bad others) steps steps') {env env' : Environment}
    (reachable : env.Reachable) (alike : env.Alike (StandsIn bad others) env')
    (host host' : Host) :
    ∃ done done', history env steps host = some done ∧ history env' steps' host' = some done' ∧
      Degraded bad others done done' ∧
      ∀ fault, done'.2.parked = some fault → host'.parked = some fault := by
  induction matched generalizing env env' host host' with
  | nil => exact ⟨_, _, rfl, rfl, ⟨.nil, alike⟩, fun _ h => h⟩
  | @cons step step' rest rest' now later ih =>
    obtain ⟨registry, use⟩ := step
    obtain ⟨registry', use'⟩ := step'
    obtain ⟨made, made', make, make', answered, reachable, alike, waits⟩ :=
      make_degrading now reachable alike host host'
    obtain ⟨done, done', ends, ends', degraded, waits'⟩ := ih reachable alike made.2 made'.2
    rw [history_cons, history_cons, make, make', Option.bind_some, Option.bind_some, ends, ends']
    exact ⟨_, _, rfl, rfl, ⟨.cons answered degraded.answers, degraded.store⟩,
      fun fault h => waits fault (waits' fault h)⟩

end Use

/-- **A faulting database is a database in the baseline order.** Let the functions of a database
fault at every comparison, because a collation never answers, its context is released, or none is
registered. Then the store replies to every use as if the baseline order had been installed instead,
and ends up with the same contents. Only a client's call that compares with such a function tells a
fault; any other tells what it would have told. -/
theorem sentinel_degrades_to_the_baseline_order :
    (∀ (r : Registry) (fn : CompareFn), r.Orderless fn → r.Falters fn) ∧
    ∀ (bad others : CompareFn → Prop) (env env' : Environment) (steps steps' : List (Registry × Use))
      (host host' : Host), env.Reachable → env.Alike (StandsIn bad others) env' →
      List.Forall₂ (Use.Degrading bad others) steps steps' →
      ∃ done done', Use.history env steps host = some done ∧
        Use.history env' steps' host' = some done' ∧ Use.Degraded bad others done done' ∧
        ∀ fault, done'.2.parked = some fault → host'.parked = some fault := by
  refine ⟨fun r fn h => h.falters, ?_⟩
  intro bad others env env' steps steps' host host' reachable alike matched
  exact Use.history_degrading matched reachable alike host host'

theorem Use.storing_degrading {r : Registry} {fn : CompareFn} (falters : r.Falters fn) :
    List.Forall₂ (Use.Degrading (· = fn) fun _ => False) ((Use.storing fn).map (r, ·))
      ((Use.storing .baseline).map (r, ·)) := by
  have bad : ∀ g, g = fn → r.Falters g := fun _ same => same ▸ falters
  have others : ∀ g, False → ∀ a b, ∃ o, r.judge g a b = .sound o ∧ r.judge g a b = .sound o :=
    nofun
  exact .cons ⟨.direct (.other nofun), bad, others⟩ <|
    .cons ⟨.direct (.setOrder .keys 1 1 (.some (.baseline rfl))), bad, others⟩ <|
    .cons ⟨.client _, bad, others⟩ <| .cons ⟨.client _, bad, others⟩ <|
    .cons ⟨.client _, bad, others⟩ <| .cons ⟨.direct (.other nofun), bad, others⟩ .nil

/-- Where no collation is registered: the second put and the look-up report faults, though the keys
are stored in the baseline order. -/
theorem sentinel_degrades_to_the_baseline_order_where_cleared :
    ∃ (host : Host) (done done' : (List Answered × Environment) × Host),
      host.registry.Falters .single ∧
      Use.history (.new 1 "" {}) ((Use.storing .single).map (host.registry, ·)) host = some done ∧
      Use.history (.new 1 "" {}) ((Use.storing .baseline).map (host.registry, ·)) host =
        some done' ∧
      Use.Degraded (· = .single) (fun _ => False) done done' ∧
      done.1.1.map (fun a => a.asked.length) = [0, 0, 0, 1, 2, 0] ∧
      done.1.2.committed.dbs.get? 1 = some [⟨[1], [[8]]⟩, ⟨[2], [[9]]⟩] := by
  let host : Host := Host.new { policy := .sentinel }
  have falters := sentinel_degrades_to_the_baseline_order.1 host.registry .single (.cleared rfl rfl)
  have reachable : (Environment.new 1 "" {}).Reachable := ⟨1, "", {}, 0, .start⟩
  obtain ⟨done, done', ran, ran', degraded, _⟩ := sentinel_degrades_to_the_baseline_order.2
    (· = .single) (fun _ => False) (.new 1 "" {}) (.new 1 "" {}) _ _ host host reachable
    ⟨_, .cons ⟨rfl, .none, .none, rfl⟩ .nil, rfl⟩ (Use.storing_degrading falters)
  refine ⟨host, done, done', falters, ran, ran', degraded, ?_, ?_⟩
  · have asked : (Use.history (.new 1 "" {}) ((Use.storing .single).map (host.registry, ·))
        host).map (fun done => done.1.1.map fun a => a.asked.length) =
          some [0, 0, 0, 1, 2, 0] := rfl
    rw [ran] at asked
    exact Option.some.inj asked
  · have contents : (Use.history (.new 1 "" {}) ((Use.storing .single).map (host.registry, ·))
        host).bind (fun done => done.1.2.committed.dbs.get? 1) =
          some [⟨[1], [[8]]⟩, ⟨[2], [[9]]⟩] := rfl
    rw [ran] at contents
    exact contents

end CollatedStore
