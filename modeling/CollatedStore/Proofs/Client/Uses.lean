import CollatedStore.Proofs.Client.Faults
import CollatedStore.Proofs.Environment.Alike

/-!
Uses of an environment one after another: calls of the store itself, and calls that a client makes
of it, each under the registry of its moment. What a use tells depends on the comparison functions
only through their answers and their faults.
-/
namespace CollatedStore

variable {same : CompareFn → CompareFn → Prop}

/-- The same strings are compared, under related functions. -/
structure Question.Alike (same : CompareFn → CompareFn → Prop) (q q' : Question) : Prop where
  fn : same q.fn q'.fn
  left : q'.left = q.left
  right : q'.right = q.right

namespace Inquiry

variable {α β : Type}

/-- The comparisons that are asked for when they get these answers. -/
def asked (answer : Question → Ordering) : Inquiry α → List Question
  | .done _ => []
  | .ask q next => q :: (next (answer q)).asked answer

/-- The faults are those of the comparisons asked for. -/
theorem faults_eq (r : Registry) (x : Inquiry α) :
    x.faults r =
      (x.asked r.order).flatMap fun q => (r.judge q.fn q.left q.right).fault.toList := by
  induction x with
  | done a => rfl
  | ask q next ih => rw [faults, asked, List.flatMap_cons, ih]

theorem asked_map (answer : Question → Ordering) (f : α → β) (x : Inquiry α) :
    (f <$> x).asked answer = x.asked answer := by
  rw [map_eq_pure_bind]
  induction x with
  | done a => rfl
  | ask q next ih => exact congrArg (q :: ·) (ih (answer q))

theorem faults_map (r : Registry) (f : α → β) (x : Inquiry α) :
    (f <$> x).faults r = x.faults r := by
  rw [faults_eq, asked_map, ← faults_eq]

/-- Under answers that agree, inquiries alike compare the same and come to related results. -/
theorem Alike.answered {R : α → β → Prop} {x : Inquiry α} {x' : Inquiry β}
    (alike : Inquiry.Alike same R x x') {answer answer' : Question → Ordering}
    (agree : ∀ q q', q.Alike same q' → answer' q' = answer q) :
    R (x.eval answer) (x'.eval answer') ∧
      List.Forall₂ (Question.Alike same) (x.asked answer) (x'.asked answer') := by
  induction alike with
  | done h => exact ⟨h, .nil⟩
  | @ask fn fn' left right next next' fns later ih =>
    have question : Question.Alike same ⟨fn, left, right⟩ ⟨fn', left, right⟩ := ⟨fns, rfl, rfl⟩
    have answers := agree _ _ question
    obtain ⟨result, rest⟩ := ih (answer ⟨fn, left, right⟩)
    constructor
    · rw [eval, eval, answers]
      exact result
    · rw [asked, asked, answers]
      exact .cons question rest

/-- Functions without faults make for inquiries without faults. -/
theorem Alike.faultless {R : α → β → Prop} {x : Inquiry α} {x' : Inquiry β}
    (alike : Inquiry.Alike same R x x') {r : Registry}
    (sound : ∀ fn fn', same fn fn' → ∀ a b, (r.judge fn a b).fault = none) : x.faults r = [] := by
  induction alike with
  | done h => rfl
  | ask fns later ih => rw [faults, ih, sound _ _ fns, Option.toList_none, List.nil_append]

/-- Where no functions are related, nothing is compared. -/
theorem Alike.quiet {R : α → β → Prop} {x : Inquiry α} {x' : Inquiry β}
    (alike : Inquiry.Alike (fun _ _ => False) R x x') (answer : Question → Ordering) :
    x.asked answer = [] := by
  cases alike with
  | done h => rfl
  | ask fns later => exact fns.elim

end Inquiry

/-! ## A client's calls -/

/-- What a client makes of the outcome of a store's call: a fault goes before a status. -/
def Client.conclude (op : String) (fault : Option Fault) (ended : Outcome) : Except Halt Unit :=
  match ended with
  | .error b => .error (.breach b)
  | .ok status => Client.verdict op fault status

theorem Client.tell_eq {ε α : Type} {op : String} {reply : Reply Outcome ε α} {host : Host} :
    Client.tell op reply host =
      some ((Client.conclude op host.parked reply.ended, reply.out, reply.store),
        { host with parked := if reply.ended.isOk then none else host.parked }) := by
  obtain ⟨b | status, out, store⟩ := reply
  · rfl
  · exact Client.tell_status

theorem Client.call_handing {ε α : Type} (op : String) (f : α → Handed)
    (native : Inquiry (Reply Outcome ε α)) (host : Host) :
    Client.call op (Reply.handing f <$> native) host = (Client.call op native host).map
      fun done => ((done.1.1, f done.1.2.1, done.1.2.2), done.2) := by
  rw [Client.call_apply, Client.call_apply, Inquiry.run_map]
  rcases native.run { host with parked := none } with _ | ⟨reply, host'⟩
  · rfl
  · simp only [Option.map_some, Option.bind_some, Client.tell_eq]
    rfl

namespace ClientCall

/-- The call of the store that a client makes. -/
def asCall : ClientCall → Call
  | .get txn dbi key => .get txn dbi (some (.filled key)) (some .empty)
  | .put txn dbi key value flags => .put txn dbi (some (.filled key)) (some (.filled value)) flags
  | .putDescribed txn dbi key value flags => .put txn dbi (some (.filled key)) (some value) flags
  | .del txn dbi key value => .del txn dbi (some (.filled key)) (value.map .filled)
  | .cursorGet cursor key value op =>
    if key.isEmpty then .cursorGet cursor (some .empty) (some .empty) op
    else if value.isEmpty then .cursorGet cursor (some (.filled key)) (some .empty) op
    else .cursorGet cursor (some (.filled key)) (some (.filled value)) op
  | .cursorPut cursor key value flags =>
    .cursorPut cursor (some (.filled key)) (some (.filled value)) flags
  | .cursorPutMany cursor key page stride flags batch _ =>
    .cursorPutMany cursor (some (.filled key)) page batch.count stride (flags ||| Flags.multiple)
  | .cursorDel cursor flags => .cursorDel cursor flags

/-- Makes the call. Gives its result, and the descriptor handed back in any case if there is one. -/
def answer (env : Environment) :
    ClientCall → Session (Except Halt Handed × Option Descriptor × Environment)
  | .get txn dbi key => do
    let (result, env) ← Client.get env txn dbi key
    return (result.map fun data => .data (some data), none, env)
  | .put txn dbi key value flags => do
    let (result, env) ← Client.put env txn dbi key value flags
    return (result.map fun _ => .nothing, none, env)
  | .putDescribed txn dbi key value flags => do
    let (result, back, env) ← Client.putDescribed env txn dbi key value flags
    return (result.map fun _ => .nothing, back, env)
  | .del txn dbi key value => do
    let (result, env) ← Client.del env txn dbi key value
    return (result.map fun _ => .nothing, none, env)
  | .cursorGet cursor key value op => do
    let (result, env) ← Client.cursorGet env cursor key value op
    return (result.map fun item => .pair (some item.1) (some item.2), none, env)
  | .cursorPut cursor key value flags => do
    let (result, env) ← Client.cursorPut env cursor key value flags
    return (result.map fun _ => .nothing, none, env)
  | .cursorPutMany cursor key page stride flags _ _ => do
    let (result, env) ← Client.cursorPutMany env cursor key page stride flags
    return (result.map fun count => .count count, none, env)
  | .cursorDel cursor flags => do
    let (result, env) ← Client.cursorDel env cursor flags
    return (result.map fun _ => .nothing, none, env)

/-- What the client tells of what the store handed out. -/
def given : ClientCall → Handed → Handed
  | .get .., .data data => .data (some (data.getD .empty))
  | .cursorGet .., .pair key data => .pair (some (key.getD .empty)) (some (data.getD .empty))
  | .cursorPutMany .., .count n => .count n
  | _, _ => .nothing

/-- The descriptor that is handed back whatever the result. -/
def back : ClientCall → Handed → Option Descriptor
  | .putDescribed .., .data data => data
  | _, _ => none

/-- What a client makes of a call of the store, if it does nothing else. -/
theorem finish_call {α : Type} (call : ClientCall) (f : α → Handed)
    {native : Inquiry (Reply Outcome Environment α)} {host : Host}
    {finish : Except Halt Unit × α × Environment →
      Session (Except Halt Handed × Option Descriptor × Environment)}
    (plain : ∀ result out env host, finish (result, out, env) host =
      some ((result.map fun _ => call.given (f out), call.back (f out), env), host)) :
    (Client.call call.op native >>= finish) host =
      (Client.call call.op (Reply.handing f <$> native) host).map fun done =>
        ((done.1.1.map fun _ => call.given done.1.2.1, call.back done.1.2.1, done.1.2.2),
          done.2) := by
  rw [Client.call_handing, Session.bind_apply]
  rcases Client.call call.op native host with _ | ⟨⟨result, out, env⟩, host'⟩
  · rfl
  · exact plain result out env host'

/-- Every call of a client is one call of the store. -/
theorem answer_eq (call : ClientCall) (env : Environment) (host : Host) :
    call.answer env host = (Client.call call.op (env.respond call.asCall) host).map fun done =>
      ((done.1.1.map fun _ => call.given done.1.2.1, call.back done.1.2.1, done.1.2.2),
        done.2) := by
  cases call with
  | get txn dbi key =>
    rw [answer, Client.get, bind_assoc]
    exact finish_call (.get txn dbi key) .data fun result _ _ _ => by cases result <;> rfl
  | put txn dbi key value flags =>
    rw [answer, Client.put, bind_assoc]
    exact finish_call (.put txn dbi key value flags) .data fun result _ _ _ => by cases result <;> rfl
  | putDescribed txn dbi key value flags =>
    rw [answer, Client.putDescribed]
    exact finish_call (.putDescribed txn dbi key value flags) .data
      fun result _ _ _ => by cases result <;> rfl
  | del txn dbi key value =>
    rw [answer, Client.del, bind_assoc]
    exact finish_call (.del txn dbi key value) (fun _ => .nothing)
      fun result _ _ _ => by cases result <;> rfl
  | cursorGet cursor key value op =>
    let pair (out : Option Descriptor × Option Descriptor) : Handed := .pair out.1 out.2
    rw [answer, Client.cursorGet, bind_assoc, asCall]
    split
    · exact finish_call (.cursorGet cursor key value op) pair
        fun result _ _ _ => by cases result <;> rfl
    · split
      · exact finish_call (.cursorGet cursor key value op) pair
          fun result _ _ _ => by cases result <;> rfl
      · exact finish_call (.cursorGet cursor key value op) pair
          fun result _ _ _ => by cases result <;> rfl
  | cursorPut cursor key value flags =>
    rw [answer, Client.cursorPut, bind_assoc]
    exact finish_call (.cursorPut cursor key value flags) .data fun result _ _ _ => by cases result <;> rfl
  | cursorPutMany cursor key page stride flags batch congruent =>
    rw [answer, Client.cursorPutMany, congruent, bind_assoc]
    exact finish_call (.cursorPutMany cursor key page stride flags batch congruent) .count
      fun result _ _ _ => by cases result <;> rfl
  | cursorDel cursor flags =>
    rw [answer, Client.cursorDel, bind_assoc]
    exact finish_call (.cursorDel cursor flags) (fun _ => .nothing)
      fun result _ _ _ => by cases result <;> rfl

end ClientCall

/-! ## Uses -/

/-- One use of an environment: a call of the store itself, or one that a client makes. -/
inductive Use where
  | direct (call : Call)
  | client (call : ClientCall)

/-- What a use tells: how it ended, and all that it hands out. -/
inductive Told where
  | direct (ended : Outcome) (out : Handed)
  | client (result : Except Halt Handed) (back : Option Descriptor)

/-- A use as it was made: the comparisons that the store asked for, its reply to them, and what was
told of it. -/
structure Answered where
  asked : List Question
  ended : Outcome
  out : Handed
  told : Told

namespace Use

/-- The call of the store. -/
def call : Use → Call
  | .direct call => call
  | .client call => call.asCall

def make (env : Environment) (use : Use) : Session (Answered × Environment) := do
  let order := (← get).registry.order
  let asked := (env.respond use.call).asked order
  let reply := (env.respond use.call).eval order
  match use with
  | .direct call =>
    let done ← (env.respond call).run
    return (⟨asked, reply.ended, reply.out, .direct done.ended done.out⟩, done.store)
  | .client call =>
    let (result, back, env) ← call.answer env
    return (⟨asked, reply.ended, reply.out, .client result back⟩, env)

/-- Uses one after another, each under the registry of its moment. -/
def history (env : Environment) : List (Registry × Use) → Session (List Answered × Environment)
  | [] => return ([], env)
  | (registry, use) :: rest => do
    modify fun host => { host with registry }
    let (answered, env) ← use.make env
    let (later, env) ← history env rest
    return (answered :: later, env)

/-- What is told of the first fault and of the store's reply. -/
def tell (use : Use) (fault : Option Fault) (reply : Reply Outcome Environment Handed) : Told :=
  match use with
  | .direct _ => .direct reply.ended reply.out
  | .client call =>
    .client ((Client.conclude call.op fault reply.ended).map fun _ => call.given reply.out)
      (call.back reply.out)

/-- The fault that waits afterwards. A client's call takes its own, unless the store breaks off. -/
def waiting (use : Use) (parked fault : Option Fault) (ended : Outcome) : Option Fault :=
  match use with
  | .direct _ => parked.or fault
  | .client _ => if ended.isOk then none else fault

/-- A use that the process lives through tells what the registry's orders and the first fault make
of it. -/
theorem make_handled {use : Use} {env : Environment} {host : Host}
    (handled : (env.respond use.call).Handled host.registry) :
    use.make env host = some
      ((⟨(env.respond use.call).asked host.registry.order,
          ((env.respond use.call).eval host.registry.order).ended,
          ((env.respond use.call).eval host.registry.order).out,
          use.tell ((env.respond use.call).firstFault? host.registry)
            ((env.respond use.call).eval host.registry.order)⟩,
        ((env.respond use.call).eval host.registry.order).store),
        { host with
          parked := use.waiting host.parked ((env.respond use.call).firstFault? host.registry)
            ((env.respond use.call).eval host.registry.order).ended }) := by
  cases use with
  | direct call =>
    have handled : (env.respond call).Handled host.registry := handled
    change ((env.respond call).run host).bind _ = _
    rw [Inquiry.run_handled handled]
    rfl
  | client call =>
    have handled : (env.respond call.asCall).Handled host.registry := handled
    change (call.answer env host).bind _ = _
    rw [ClientCall.answer_eq, Client.call_handled handled, Client.tell_eq]
    rfl

/-- A use that meets no fault parks none. -/
theorem waiting_without_fault {use : Use} {parked : Option Fault} {ended : Outcome} {fault : Fault}
    (waits : use.waiting parked none ended = some fault) : parked = some fault := by
  cases use with
  | direct call => rwa [waiting, Option.or_none] at waits
  | client call =>
    rw [waiting] at waits
    split at waits <;> cases waits

/-- Of a use that the process does not live through, nothing comes. -/
theorem make_unhandled {use : Use} {env : Environment} {host : Host}
    (unhandled : ¬ (env.respond use.call).Handled host.registry) : use.make env host = none := by
  cases use with
  | direct call =>
    change ((env.respond call).run host).bind _ = _
    cases ran : (env.respond call).run host with
    | none => rfl
    | some done => exact absurd (Inquiry.handled_of_run ran) unhandled
  | client call =>
    change (call.answer env host).bind _ = _
    rw [ClientCall.answer_eq]
    cases called : Client.call call.op (env.respond call.asCall) host with
    | none => rfl
    | some done => exact absurd (Client.handled_of_call called) unhandled

/-- What a history tells is what its first use tells, and then the rest. -/
theorem history_cons (env : Environment) (registry : Registry) (use : Use)
    (rest : List (Registry × Use)) (host : Host) :
    history env ((registry, use) :: rest) host =
      (use.make env { host with registry }).bind fun done =>
        (history done.1.2 rest done.2).map fun later =>
          ((done.1.1 :: later.1.1, later.1.2), later.2) := by
  change (use.make env { host with registry }).bind _ = _
  congr 1
  funext done
  exact (Option.map_eq_bind ..).symm

/-- The uses differ at most in a function that is given to a database. -/
inductive Alike (same : CompareFn → CompareFn → Prop) : Use → Use → Prop
  | direct {call call' : Call} (calls : call.Alike same call') :
      Alike same (.direct call) (.direct call')
  | client (call : ClientCall) : Alike same (.client call) (.client call)

theorem Alike.call {use use' : Use} (alike : use.Alike same use') :
    use.call.Alike same use'.call := by
  cases alike with
  | direct calls => exact calls
  | client call =>
    refine .other fun role txn dbi fn same => ?_
    cases call with
    | cursorGet cursor key value op =>
      simp only [Use.call, ClientCall.asCall] at same
      split at same
      · cases same
      · split at same <;> cases same
    | _ => cases same

/-- A use of environments alike makes the same comparisons, and the store replies the same, if the
registries' orders agree. -/
theorem alike_answered {env env' : Environment} (alike : env.Alike same env') {use use' : Use}
    (uses : use.Alike same use') {r r' : Registry}
    (agree : ∀ fn fn', same fn fn' → ∀ a b, (r'.judge fn' a b).order = (r.judge fn a b).order) :
    Reply.Alike same ((env.respond use.call).eval r.order)
        ((env'.respond use'.call).eval r'.order) ∧
      List.Forall₂ (Question.Alike same) ((env.respond use.call).asked r.order)
        ((env'.respond use'.call).asked r'.order) := by
  refine Inquiry.Alike.answered (Environment.respond_alike alike uses.call) fun q q' h => ?_
  rw [Registry.order, Registry.order, h.left, h.right]
  exact agree _ _ h.fn _ _

/-- Stores two keys under `fn`, looks one up, and commits. -/
def storing (fn : CompareFn) : List Use :=
  [.direct (.txnBegin none 0), .direct (.setOrder .keys 1 1 (some fn)),
    .client (.put 1 1 [1] [8] 0), .client (.put 1 1 [2] [9] 0), .client (.get 1 1 [1]),
    .direct (.txnCommit 1)]

end Use

end CollatedStore
