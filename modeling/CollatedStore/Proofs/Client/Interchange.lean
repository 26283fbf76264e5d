import CollatedStore.Proofs.Client.Uses
import CollatedStore.Proofs.Registry.Lent

/-!
One order, however it is lent. The function of the one collation without a context, that of any
context, and one lent by foreign code compare alike, and a store that is used with one of them
replies as it does with another.
-/
namespace CollatedStore

open Registry

namespace Session

/-- A function that finds its order in the registry reports the sign of a sound judgement. -/
theorem callFn_sound {fn : CompareFn} {a b : Bytes} {o : Ordering} {host : Host}
    (looked_up : ∀ compare, fn ≠ .direct compare)
    (judged : host.registry.judge fn a b = .sound o) :
    callFn fn a b host = some (Order.toCode o, host) := by
  have answered : answer ⟨fn, a, b⟩ host = some (o, host) := by
    change settle (host.registry.judge fn a b) host = _
    rw [judged]
    rfl
  cases fn with
  | direct compare => exact absurd rfl (looked_up compare)
  | baseline | single | slot i =>
    rw [callFn, bind_apply, answered]
    rfl

theorem dispatch_sound {id : ContextId} {a b : Bytes} {o : Ordering} {host : Host}
    (judged : host.registry.judgeContext id a b = .sound o) :
    dispatch id a b host = some (o, host) := by
  change settle (host.registry.judgeContext id a b) host = _
  rw [judged]
  rfl

end Session

/-! ## Functions of one order -/

/-- The function `fn` compares as `f` does, in every way to get at it through the mode. -/
structure Faithful (f : Order) (mode : Dispatch) (fn : CompareFn) (host : Host) : Prop where
  /-- The sign is exact and no fault is parked. A descriptor that is missing or has no address is
  empty. -/
  called : ∀ x y : Option Descriptor,
    Session.callFn fn (Descriptor.bytesOf x) (Descriptor.bytesOf y) host =
      some (Order.toCode (f (Descriptor.bytesOf x) (Descriptor.bytesOf y)), host)
  dispatched : ∀ id, mode = .context id → ∀ x y : Option Descriptor,
    Session.dispatch id (Descriptor.bytesOf x) (Descriptor.bytesOf y) host =
      some (f (Descriptor.bytesOf x) (Descriptor.bytesOf y), host)
  standard : f = Order.baseline → ∀ x y : Option Descriptor,
    Session.callFn fn (Descriptor.bytesOf x) (Descriptor.bytesOf y) host =
      Session.callFn .baseline (Descriptor.bytesOf x) (Descriptor.bytesOf y) host
  /-- It is the function that is handed out, to foreign code as well. -/
  exported : ∃ r, host.registry.exportFn mode = .ok (fn, r)
  handed : ∀ id, mode = .context ⟨id⟩ → ∃ host',
    Foreign.contextFn id true host = (.ok, some fn, host')
  /-- And the one that a database is given. -/
  installed : ∀ (env : Environment) (role : Role) (txn : Handle) (dbi : Dbi), ∃ r,
    host.registry.install env role txn dbi mode =
      (CallError.check (setName role) (env.setOrder role txn dbi (some fn)).ended, r,
        (env.setOrder role txn dbi (some fn)).store)

theorem faithful_of_lent {f : Order} {o : Registrar} {mode : Dispatch} {fn : CompareFn}
    (lent : Lent f o mode fn) {host : Host} (known : host.registry = o.registry) :
    Faithful f mode fn host := by
  obtain ⟨sound, held⟩ := lent.held
  rw [← known] at held
  have linked : Linked host.registry := known ▸ sound.linked
  obtain ⟨slot, resolved⟩ := held.resolve
  have looked_up : ∀ compare, fn ≠ .direct compare := by
    intro compare direct
    cases held <;> cases direct
  have called := fun x y : Option Descriptor => Session.callFn_sound looked_up
    (held.judge linked (Descriptor.bytesOf x) (Descriptor.bytesOf y))
  have exported : ∃ r, host.registry.exportFn mode = .ok (fn, r) := by
    rw [exportFn, resolved]
    cases slot with
    | none => exact ⟨_, rfl⟩
    | some i => exact ⟨_, rfl⟩
  constructor
  case called => exact called
  case dispatched =>
    rintro id rfl x y
    exact Session.dispatch_sound (held.judgeContext _ _)
  case standard =>
    rintro rfl x y
    rw [called]
    exact (Session.callFn_sound (fun _ direct => by cases direct) rfl).symm
  case exported => exact exported
  case handed =>
    rintro id rfl
    obtain ⟨r, found⟩ := exported
    have asked : (Foreign.clearLastError host).registry.exportFn (.context ⟨id⟩) = .ok (fn, r) :=
      found
    rw [Foreign.contextFn, if_pos rfl, asked]
    exact ⟨_, rfl⟩
  case installed =>
    intro env role txn dbi
    rw [install, beginInstall, resolved]
    exact ⟨_, rfl⟩

/-! ## Orders lent by foreign code -/

section
variable {f : Order} {report : Bytes → Bytes → Int32} {before : List Operation} {host host' : Host}

theorem attempt_ok {attempt : Registry → Except CallError Registry}
    (called : Foreign.attempt host attempt = (.ok, host')) :
    attempt host.registry = .ok host'.registry := by
  rw [Foreign.attempt] at called
  cases tried : attempt (Foreign.clearLastError host).registry with
  | ok r =>
    rw [tried] at called
    cases called
    exact tried
  | error e =>
    rw [tried] at called
    cases e <;> cases called

/-- A callback that foreign code registers for a context lends the order whose signs it reports. -/
theorem registerContext_lent (signs : ∀ a b, SignOf (f a b) (report a b))
    (known : host.registry = (Registrar.new.run before).registry) {id : UInt64}
    (called : Foreign.registerContext id (some report) host = (.ok, host')) :
    ∃ fn, Lent f ⟨host'.registry, (Registrar.new.run before).guards⟩ (.context ⟨id⟩) fn := by
  obtain ⟨_, ⟨⟩, made⟩ := bind_eq_ok.mp (attempt_ok called)
  obtain ⟨⟨g, r⟩, registered, kept⟩ := bind_eq_ok.mp made
  rw [known] at registered
  have still : (r.resolve (.context ⟨id⟩)).isOk = true := by
    rw [resolve, register_live? registered]
    rfl
  have lent := (Lent.context before (.callback signs) registered).later (.giveUp g) still
  rw [Registrar.perform, List.erase_cons_head] at lent
  exact ⟨.slot g.slot, Except.ok.inj kept ▸ lent⟩

/-- So does one that foreign code registers without a context. -/
theorem registerSingle_lent (signs : ∀ a b, SignOf (f a b) (report a b))
    (known : host.registry = (Registrar.new.run before).registry)
    (called : Foreign.registerSingle (some report) host = (.ok, host')) :
    Lent f ⟨host'.registry, (Registrar.new.run before).guards⟩ .single .single := by
  obtain ⟨_, ⟨⟩, registered⟩ := bind_eq_ok.mp (attempt_ok called)
  rw [known] at registered
  exact .single before (.callback signs) registered

end

/-! ## Runs under different carriers of one order -/

/-- In this registry, `fn` is the function of a mode that lends `f`. -/
def Registry.Carries (f : Order) (r : Registry) (fn : CompareFn) : Prop :=
  ∃ o mode, o.registry = r ∧ Lent f o mode fn

theorem Registry.Carries.judge {f : Order} {r : Registry} {fn : CompareFn} (h : r.Carries f fn)
    (a b : Bytes) : r.judge fn a b = .sound (f a b) := by
  obtain ⟨o, mode, rfl, lent⟩ := h
  exact lent.held.2.judge lent.held.1.linked a b

variable {same : CompareFn → CompareFn → Prop}

theorem Inquiry.Alike.faults_eq {α β : Type} {R : α → β → Prop} {x : Inquiry α} {x' : Inquiry β}
    (alike : Inquiry.Alike same R x x') {r r' : Registry}
    (agree : ∀ fn fn', same fn fn' → ∀ a b, r'.judge fn' a b = r.judge fn a b) :
    x'.faults r' = x.faults r := by
  induction alike with
  | done h => rfl
  | @ask fn fn' left right next next' fns later ih =>
    have judged := agree fn fn' fns left right
    have answers : r'.order ⟨fn', left, right⟩ = r.order ⟨fn, left, right⟩ :=
      congrArg Judgement.order judged
    rw [faults, faults, answers, ih]
    dsimp only
    rw [judged]

/-- The same was compared, replied and told. -/
structure Answered.Alike (same : CompareFn → CompareFn → Prop) (a a' : Answered) : Prop where
  asked : List.Forall₂ (Question.Alike same) a.asked a'.asked
  ended : a'.ended = a.ended
  out : a'.out = a.out
  told : a'.told = a.told

namespace Use

/-- The same use, at moments when related functions carry one order. Functions that carry none may
come into it as well, if they are judged alike. -/
structure Matched (same : CompareFn → CompareFn → Prop) (step step' : Registry × Use) : Prop where
  uses : step.2.Alike same step'.2
  orders : ∀ fn fn', same fn fn' → (∃ f, step.1.Carries f fn ∧ step'.1.Carries f fn') ∨
    ∀ a b, step'.1.judge fn' a b = step.1.judge fn a b

theorem Matched.agree {step step' : Registry × Use} (h : Matched same step step')
    {fn fn' : CompareFn} (fns : same fn fn') (a b : Bytes) :
    step'.1.judge fn' a b = step.1.judge fn a b := by
  obtain ⟨f, carried, carried'⟩ | alike := h.orders fn fn' fns
  · rw [carried.judge, carried'.judge]
  · exact alike a b

/-- The answers are the same, and so are the stores, up to related functions. -/
structure Agreeing (same : CompareFn → CompareFn → Prop)
    (done done' : (List Answered × Environment) × Host) : Prop where
  answers : List.Forall₂ (Answered.Alike same) done.1.1 done'.1.1
  store : done.1.2.Alike same done'.1.2
  parked : done'.2.parked = done.2.parked

/-- One use. -/
theorem make_matched {registry registry' : Registry} {use use' : Use}
    (matched : Matched same (registry, use) (registry', use')) {env env' : Environment}
    (alike : env.Alike same env') {host host' : Host} (parked : host'.parked = host.parked) :
    Option.Rel (fun done done' => Answered.Alike same done.1.1 done'.1.1 ∧
        done.1.2.Alike same done'.1.2 ∧ done'.2.parked = done.2.parked)
      (use.make env { host with registry })
      (use'.make env' { host' with registry := registry' }) := by
  have faults := (Environment.respond_alike alike matched.uses.call).faults_eq
    fun fn fn' fns a b => matched.agree fns a b
  have first : (env'.respond use'.call).firstFault? registry' =
      (env.respond use.call).firstFault? registry := by
    rw [Inquiry.firstFault?, faults, Inquiry.firstFault?]
  obtain ⟨reply, asked⟩ := alike_answered alike matched.uses
    fun fn fn' fns a b => congrArg Judgement.order (matched.agree fns a b)
  -- The faults are the same, so the process lives through both uses or through neither.
  by_cases handled : (env.respond use.call).Handled registry
  · have handled' : (env'.respond use'.call).Handled registry' := by
      rw [Inquiry.Handled, faults]
      exact handled
    rw [make_handled handled, make_handled handled']
    refine .some ⟨⟨asked, reply.ended, reply.out, ?_⟩, reply.store, ?_⟩
    · dsimp only
      rw [first]
      cases matched.uses with
      | direct calls => simp only [tell, reply.ended, reply.out]
      | client call => simp only [tell, reply.ended, reply.out]
    · dsimp only
      rw [first, parked, reply.ended]
      cases matched.uses with
      | direct calls => rfl
      | client call => rfl
  · have unhandled : ¬ (env'.respond use'.call).Handled registry' := by
      rw [Inquiry.Handled, faults]
      exact handled
    rw [make_unhandled handled, make_unhandled unhandled]
    exact .none

/-- Any number of uses, one after another. -/
theorem history_matched {steps steps' : List (Registry × Use)}
    (matched : List.Forall₂ (Matched same) steps steps') {env env' : Environment}
    (alike : env.Alike same env') {host host' : Host} (parked : host'.parked = host.parked) :
    Option.Rel (Agreeing same) (history env steps host) (history env' steps' host') := by
  induction matched generalizing env env' host host' with
  | nil => exact .some ⟨.nil, alike, parked⟩
  | @cons step step' rest rest' now later ih =>
    obtain ⟨registry, use⟩ := step
    obtain ⟨registry', use'⟩ := step'
    have made := make_matched now alike parked
    rw [history_cons, history_cons]
    generalize use.make env { host with registry } = x at made
    generalize use'.make env' { host' with registry := registry' } = x' at made
    cases made with
    | none => exact .none
    | @some done done' made =>
      obtain ⟨answered, stores, waits⟩ := made
      have rest := ih stores waits
      simp only [Option.bind_some]
      generalize history done.1.2 _ done.2 = y at rest
      generalize history done'.1.2 _ done'.2 = y' at rest
      cases rest with
      | none => exact .none
      | some rest => exact .some ⟨.cons answered rest.answers, rest.store, rest.parked⟩

/-- Where every function carries an order, the process lives through all uses, and parks nothing. -/
theorem history_carried {steps steps' : List (Registry × Use)}
    (matched : List.Forall₂ (Matched same) steps steps') {env env' : Environment}
    (alike : env.Alike same env')
    (carried : ∀ step ∈ steps, ∀ fn fn', same fn fn' → ∃ f, step.1.Carries f fn) (host : Host) :
    ∃ done, history env steps host = some done ∧
      ∀ fault, done.2.parked = some fault → host.parked = some fault := by
  induction matched generalizing env env' host with
  | nil => exact ⟨_, rfl, fun _ h => h⟩
  | @cons step step' rest rest' now later ih =>
    obtain ⟨registry, use⟩ := step
    obtain ⟨registry', use'⟩ := step'
    -- What `same` relates is all that a use can ask for, and none of it faults.
    have sound : ∀ fn fn', same fn fn' → ∀ a b, (registry.judge fn a b).fault = none := by
      intro fn fn' fns a b
      obtain ⟨f, carries⟩ := carried _ List.mem_cons_self fn fn' fns
      rw [carries.judge]
      rfl
    have faultless := (Environment.respond_alike alike now.uses.call).faultless sound
    have handled : (env.respond use.call).Handled registry := by
      rw [Inquiry.Handled, faultless]
      intro met among
      cases among
    obtain ⟨reply, _⟩ := alike_answered alike now.uses
      fun fn fn' fns a b => congrArg Judgement.order (now.agree fns a b)
    obtain ⟨done, ends, waits⟩ := ih reply.store
      (fun step h => carried step (List.mem_cons_of_mem _ h))
      { host with
        registry
        parked := use.waiting host.parked none ((env.respond use.call).eval registry.order).ended }
    have first : (env.respond use.call).firstFault? registry = none := by
      rw [Inquiry.firstFault?, faultless]
      rfl
    rw [history_cons, make_handled handled]
    dsimp only [Option.bind_some]
    rw [first, ends]
    refine ⟨_, rfl, fun fault h => ?_⟩
    exact waiting_without_fault (waits fault h)

end Use

/-- **However an order is lent, it is one order.** Its functions report the same signs and never a
fault, whether the order was registered for a context or for none, by foreign code or not, and for as
long as it stays registered. So a store that is used with one of them replies as it does with another,
use by use, and holds the same at the end. -/
theorem lent_orders_are_interchangeable :
    (∀ {f : Order} {o : Registrar} {mode : Dispatch} {fn : CompareFn}, Lent f o mode fn →
      ∀ host : Host, host.registry = o.registry → Faithful f mode fn host) ∧
    (∀ (f : Order) (report : Bytes → Bytes → Int32), (∀ a b, SignOf (f a b) (report a b)) →
      ∀ (before : List Operation) (host host' : Host),
        host.registry = (Registrar.new.run before).registry →
        (∀ id, Foreign.registerContext id (some report) host = (.ok, host') → ∃ fn,
          Lent f ⟨host'.registry, (Registrar.new.run before).guards⟩ (.context ⟨id⟩) fn) ∧
        (Foreign.registerSingle (some report) host = (.ok, host') →
          Lent f ⟨host'.registry, (Registrar.new.run before).guards⟩ .single .single)) ∧
    ∀ (same : CompareFn → CompareFn → Prop) (env env' : Environment)
      (steps steps' : List (Registry × Use)) (host host' : Host),
      env.Alike same env' → List.Forall₂ (Use.Matched same) steps steps' →
      host'.parked = host.parked →
      Option.Rel (Use.Agreeing same) (Use.history env steps host)
        (Use.history env' steps' host') ∧
      ((∀ step ∈ steps, ∀ fn fn', same fn fn' → ∃ f, step.1.Carries f fn) →
        ∃ done, Use.history env steps host = some done ∧
          ∀ fault, done.2.parked = some fault → host.parked = some fault) := by
  refine ⟨fun lent host known => faithful_of_lent lent known, ?_, ?_⟩
  · intro f report signs before host host' known
    exact ⟨fun id called => registerContext_lent signs known called,
      fun called => registerSingle_lent signs known called⟩
  · intro same env env' steps steps' host host' alike matched parked
    exact ⟨Use.history_matched matched alike parked,
      fun carried => Use.history_carried matched alike carried host⟩

/-- Reports an order by integers that are as far apart as they can be. -/
def Order.extremes (f : Order) : Bytes → Bytes → Int32 := fun a b =>
  match f a b with
  | .lt => Int32.minValue
  | .eq => 0
  | .gt => Int32.maxValue

theorem Order.extremes_signs (f : Order) (a b : Bytes) : SignOf (f a b) (f.extremes a b) := by
  rw [extremes]
  cases f a b <;> decide

theorem Use.storing_matched {r r' : Registry} {fn fn' : CompareFn} {f : Order}
    (carried : r.Carries f fn) (carried' : r'.Carries f fn') :
    List.Forall₂ (Use.Matched fun g g' => g = fn ∧ g' = fn') ((Use.storing fn).map (r, ·))
      ((Use.storing fn').map (r', ·)) := by
  have orders : ∀ g g', g = fn ∧ g' = fn' →
      (∃ f, r.Carries f g ∧ r'.Carries f g') ∨ ∀ a b, r'.judge g' a b = r.judge g a b := by
    rintro _ _ ⟨rfl, rfl⟩
    exact .inl ⟨f, carried, carried'⟩
  exact .cons ⟨.direct (.other nofun), orders⟩ <|
    .cons ⟨.direct (.setOrder .keys 1 1 (.some ⟨rfl, rfl⟩)), orders⟩ <|
    .cons ⟨.client _, orders⟩ <| .cons ⟨.client _, orders⟩ <| .cons ⟨.client _, orders⟩ <|
    .cons ⟨.direct (.other nofun), orders⟩ .nil

/-- The reversed order from foreign code under a context, and from the process under none. -/
theorem lent_orders_are_interchangeable_when_reversed :
    ∃ (host host' : Host) (fn : CompareFn) (done done' : (List Answered × Environment) × Host),
      Foreign.registerContext 7 (some Order.reverse.extremes) (Host.new {}) = (.ok, host) ∧
      Foreign.registerSingle (some (Order.scaled Order.reverse 5)) (Host.new {}) = (.ok, host') ∧
      Faithful Order.reverse (.context ⟨7⟩) fn host ∧
      Faithful Order.reverse .single .single host' ∧
      Use.history (.new 1 "" {}) ((Use.storing fn).map (host.registry, ·)) host = some done ∧
      Use.history (.new 1 "" {}) ((Use.storing .single).map (host'.registry, ·)) host' =
        some done' ∧
      Use.Agreeing (fun g g' => g = fn ∧ g' = .single) done done' ∧
      done.1.2.committed.dbs.get? 1 = some [⟨[2], [[9]]⟩, ⟨[1], [[8]]⟩] := by
  have fresh : (Host.new {}).registry = (Registrar.new.run [.configure {}]).registry := rfl
  have scaled : ∀ a b, SignOf (Order.reverse a b) (Order.scaled Order.reverse 5 a b) := by
    intro a b
    rw [Order.scaled]
    cases Order.reverse a b <;> decide
  obtain ⟨host, called⟩ : ∃ host,
    Foreign.registerContext 7 (some Order.reverse.extremes) (Host.new {}) = (.ok, host) := ⟨_, rfl⟩
  obtain ⟨host', called'⟩ : ∃ host',
    Foreign.registerSingle (some (Order.scaled Order.reverse 5)) (Host.new {}) = (.ok, host') :=
      ⟨_, rfl⟩
  have foreign := lent_orders_are_interchangeable.2.1
  obtain ⟨fn, lent⟩ := (foreign _ _ Order.reverse.extremes_signs _ _ host fresh).1 7 called
  have lent' := (foreign _ _ scaled _ _ host' fresh).2 called'
  have carried : host.registry.Carries Order.reverse fn := ⟨_, _, rfl, lent⟩
  have matched := Use.storing_matched carried ⟨_, _, rfl, lent'⟩
  have parked : host'.parked = host.parked := by
    cases called
    cases called'
    rfl
  have runs := lent_orders_are_interchangeable.2.2 _ (.new 1 "" {}) (.new 1 "" {}) _ _ host host'
    ⟨_, .cons ⟨rfl, .none, .none, rfl⟩ .nil, rfl⟩ matched parked
  obtain ⟨done, ran, _⟩ := runs.2 fun step among g g' h => by
    obtain ⟨use, _, rfl⟩ := List.mem_map.mp among
    exact ⟨_, h.1 ▸ carried⟩
  have agreeing := runs.1
  rw [ran] at agreeing
  generalize ran' : Use.history (.new 1 "" {}) ((Use.storing .single).map (host'.registry, ·))
    host' = answered at agreeing
  cases agreeing with
  | @some _ done' agreeing =>
    refine ⟨host, host', fn, done, done', called, called',
      lent_orders_are_interchangeable.1 lent host rfl,
      lent_orders_are_interchangeable.1 lent' host' rfl, ran, ran', agreeing, ?_⟩
    obtain ⟨catalog, _, alike⟩ := agreeing.store
    have contents : (Use.history (.new 1 "" {}) ((Use.storing .single).map (host'.registry, ·))
        host').bind (fun done => done.1.2.committed.dbs.get? 1) =
          some [⟨[2], [[9]]⟩, ⟨[1], [[8]]⟩] := by
      cases called'
      rfl
    rw [ran', Option.bind_some, alike] at contents
    exact contents

end CollatedStore
