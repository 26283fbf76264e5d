import CollatedStore.Client
import CollatedStore.Proofs.Environment.Calls

/-!
Faults travel beside the status of a store's call: a comparison parks its fault, and the client's
call takes it up. Each call reports the first fault of its own comparisons, and no other.
-/
namespace CollatedStore

/-- The order that a comparison comes to. -/
def Registry.order (r : Registry) (q : Question) : Ordering := (r.judge q.fn q.left q.right).order

namespace Inquiry

variable {α β : Type}

/-- The faults of the comparisons that are asked for, in the order of asking, each with the policy
it falls under. -/
def faults (r : Registry) : Inquiry α → List (Fault × FaultPolicy)
  | .done _ => []
  | .ask q next =>
    (r.judge q.fn q.left q.right).fault.toList ++ (next (r.order q)).faults r

def firstFault? (r : Registry) (x : Inquiry α) : Option Fault := (x.faults r).head?.map Prod.fst

/-- Does the process live through all the faults? -/
def Handled (r : Registry) (x : Inquiry α) : Prop := ∀ met ∈ x.faults r, met.2 = .sentinel

theorem settle_handled {j : Judgement} {host : Host}
    (handled : ∀ met ∈ j.fault, met.2 = FaultPolicy.sentinel) :
    Session.settle j host =
      some (j.order, { host with parked := host.parked.or (j.fault.map Prod.fst) }) := by
  obtain ⟨order, _ | ⟨fault, policy⟩⟩ := j
  · simp only [Option.map_none, Option.or_none]
    rfl
  · obtain rfl : policy = .sentinel := handled _ rfl
    rfl

theorem handled_of_settle {j : Judgement} {o : Ordering} {host host' : Host}
    (settled : Session.settle j host = some (o, host')) :
    ∀ met ∈ j.fault, met.2 = FaultPolicy.sentinel := by
  obtain ⟨order, _ | ⟨fault, policy⟩⟩ := j
  · nofun
  · cases policy with
    | abort => cases settled
    | sentinel =>
      rintro met ⟨⟩
      rfl

theorem firstFault?_ask (r : Registry) (q : Question) (next : Ordering → Inquiry α) :
    (Inquiry.ask q next).firstFault? r =
      ((r.judge q.fn q.left q.right).fault.map Prod.fst).or
        ((next (r.order q)).firstFault? r) := by
  rw [firstFault?, faults]
  cases (r.judge q.fn q.left q.right).fault with
  | none => rfl
  | some met => rfl

/-- An inquiry that the process lives through comes to what the registry's orders make of it, and
parks its first fault, unless one waits already. -/
theorem run_handled {x : Inquiry α} {host : Host} (handled : x.Handled host.registry) :
    x.run host = some (x.eval host.registry.order,
      { host with parked := host.parked.or (x.firstFault? host.registry) }) := by
  induction x generalizing host with
  | done a =>
    have none_met : (Inquiry.done a).firstFault? host.registry = none := rfl
    rw [none_met, Option.or_none]
    rfl
  | ask q next ih =>
    have now : ∀ met ∈ (host.registry.judge q.fn q.left q.right).fault, met.2 = .sentinel :=
      fun met h => handled met (List.mem_append_left _ (Option.mem_toList.mpr h))
    have later : (next (host.registry.order q)).Handled host.registry :=
      fun met h => handled met (List.mem_append_right _ h)
    calc (Inquiry.ask q next).run host
      _ = (Session.settle (host.registry.judge q.fn q.left q.right) host).bind
            fun answered => (next answered.1).run answered.2 := rfl
      _ = (next (host.registry.order q)).run { host with
            parked := host.parked.or
              ((host.registry.judge q.fn q.left q.right).fault.map Prod.fst) } := by
          rw [settle_handled now]
          rfl
      _ = some ((next (host.registry.order q)).eval host.registry.order, { host with
            parked := (host.parked.or
              ((host.registry.judge q.fn q.left q.right).fault.map Prod.fst)).or
                ((next (host.registry.order q)).firstFault? host.registry) }) := ih _ later
      _ = _ := by
          rw [firstFault?_ask, Option.or_assoc]
          rfl

theorem run_map (f : α → β) (x : Inquiry α) (host : Host) :
    (f <$> x).run host = (x.run host).map fun done => (f done.1, done.2) := by
  rw [map_eq_pure_bind]
  induction x generalizing host with
  | done a => rfl
  | ask q next ih =>
    change (Session.answer q host).bind _ = ((Session.answer q host).bind _).map _
    cases Session.answer q host with
    | none => rfl
    | some answered => exact ih answered.1 answered.2

/-- What the process does not live through comes to nothing. -/
theorem handled_of_run {x : Inquiry α} {host host' : Host} {a : α}
    (ran : x.run host = some (a, host')) : x.Handled host.registry := by
  induction x generalizing host with
  | done a => nofun
  | ask q next ih =>
    obtain ⟨⟨o, host''⟩, settled, ran⟩ := Option.bind_eq_some_iff.mp ran
    have now := handled_of_settle settled
    cases (settle_handled now).symm.trans settled
    intro met h
    obtain h | h := List.mem_append.mp h
    · exact now met (Option.mem_toList.mp h)
    · exact ih _ ran met h

end Inquiry

/-- A reply without what it hands out. -/
def Reply.bare {ρ ε α : Type} (reply : Reply ρ ε α) : Reply ρ ε Unit :=
  ⟨reply.ended, (), reply.store⟩

namespace Client

section
variable {ε α : Type} {op : String} {native : Inquiry (Reply Outcome ε α)} {host : Host}

/-- What a call tells: its first fault, or else what the status says. -/
def verdict (op : String) (fault : Option Fault) (status : Status) : Except Halt Unit :=
  match fault with
  | some f => .error (.error (.fault f))
  | none => (CallError.check op status).mapError .error

/-- How a call goes on once the store has replied. -/
def tell (op : String) (reply : Reply Outcome ε α) : Session (Except Halt Unit × α × ε) :=
  match reply.ended with
  | .error b => return (.error (.breach b), reply.out, reply.store)
  | .ok status => do
    match ← Session.takeParked with
    | some fault => return (.error (.error (.fault fault)), reply.out, reply.store)
    | none => return ((CallError.check op status).mapError .error, reply.out, reply.store)

/-- Whatever was parked before a call makes no difference to it. -/
theorem call_apply (op : String) (native : Inquiry (Reply Outcome ε α)) (host : Host) :
    call op native host =
      (native.run { host with parked := none }).bind fun ran => tell op ran.1 ran.2 := rfl

theorem tell_status {status : Status} {out : α} {store : ε} :
    tell op ⟨.ok status, out, store⟩ host =
      some ((verdict op host.parked status, out, store), { host with parked := none }) := by
  obtain ⟨registry, _ | fault, lastError⟩ := host
  · rfl
  · rfl

theorem call_handled (handled : native.Handled host.registry) :
    call op native host = tell op (native.eval host.registry.order)
      { host with parked := native.firstFault? host.registry } := by
  have fresh : native.Handled ({ host with parked := none } : Host).registry := handled
  rw [call_apply, Inquiry.run_handled fresh, Option.none_or]
  rfl

theorem handled_of_call {done : (Except Halt Unit × α × ε) × Host}
    (called : call op native host = some done) : native.Handled host.registry := by
  rw [call_apply] at called
  obtain ⟨ran, runs, _⟩ := Option.bind_eq_some_iff.mp called
  have fresh : native.Handled ({ host with parked := none } : Host).registry :=
    Inquiry.handled_of_run runs
  exact fresh

theorem check_ne_fault {status : Status} {f : Fault} :
    CallError.check op status ≠ .error (.fault f) := by
  unfold CallError.check
  split
  · nofun
  · nofun

theorem verdict_eq_fault {fault : Option Fault} {status : Status} {f : Fault} :
    verdict op fault status = .error (.error (.fault f)) ↔ fault = some f := by
  cases fault with
  | none =>
    refine ⟨fun told => ?_, nofun⟩
    rw [verdict] at told
    cases checked : CallError.check op status with
    | ok u => rw [checked] at told; cases told
    | error e =>
      rw [checked] at told
      cases told
      exact absurd checked check_ne_fault
  | some g => simp [verdict]

theorem verdict_success : verdict op none .success = .ok () := rfl

theorem verdict_refusal {status : Status} (refused : status ≠ .success) :
    verdict op none status = .error (.error (.store op status)) := by
  have checked : CallError.check op status = .error (.store op status) := if_neg refused
  rw [verdict, checked]
  rfl

/-- A fault that is told was met in the call. -/
theorem call_fault {f : Fault} {out : α} {store : ε} {host' : Host}
    (called : call op native host = some ((.error (.error (.fault f)), out, store), host')) :
    native.firstFault? host.registry = some f := by
  rw [call_handled (handled_of_call called)] at called
  generalize native.eval host.registry.order = reply at called
  obtain ⟨b | status, out', store'⟩ := reply
  · cases called
  · rw [tell_status, Option.some.injEq, Prod.mk.injEq, Prod.mk.injEq] at called
    exact verdict_eq_fault.mp called.1.1

theorem call_bare (op : String) (native : Inquiry (Reply Outcome ε α)) (host : Host) :
    call op (Reply.bare <$> native) host =
      (call op native host).map fun done => ((done.1.1, (), done.1.2.2), done.2) := by
  rw [call_apply, call_apply, Inquiry.run_map]
  rcases native.run { host with parked := none } with _ | ⟨⟨b | status, out, store⟩, host'⟩
  · rfl
  · rfl
  · simp only [Option.map_some, Option.bind_some, Reply.bare, tell_status]

/-- What is done with a call's result, if it changes nothing. -/
theorem call_then {finish : Except Halt Unit × α × ε → Session (Except Halt Unit × ε)}
    (plain : ∀ result out store host,
      finish (result, out, store) host = some ((result, store), host)) :
    (call op native >>= finish) host = (call op (Reply.bare <$> native) host).map
      fun done => ((done.1.1, done.1.2.2), done.2) := by
  rw [call_bare, Session.bind_apply]
  rcases call op native host with _ | ⟨⟨result, out, store⟩, host'⟩
  · rfl
  · exact plain result out store host'

end

end Client

/-- A call as a client may make it. A page is all records, or the store is not called. -/
inductive ClientCall where
  | get (txn : Handle) (dbi : Dbi) (key : Bytes)
  | put (txn : Handle) (dbi : Dbi) (key value : Bytes) (flags : UInt32)
  | putDescribed (txn : Handle) (dbi : Dbi) (key : Bytes) (value : Descriptor) (flags : UInt32)
  | del (txn : Handle) (dbi : Dbi) (key : Bytes) (value : Option Bytes)
  | cursorGet (cursor : Handle) (key value : Bytes) (op : UInt32)
  | cursorPut (cursor : Handle) (key value : Bytes) (flags : UInt32)
  | cursorPutMany (cursor : Handle) (key page : Bytes) (stride : Nat) (flags : UInt32)
      (batch : Batch) (congruent : Batch.ofPage? page stride = some batch)
  | cursorDel (cursor : Handle) (flags : UInt32)

namespace ClientCall

variable {ε : Type} [Store ε]

/-- The name under which a status is reported. -/
def op : ClientCall → String
  | .get .. => "mdb_get"
  | .put .. | .putDescribed .. => "mdb_put"
  | .del .. => "mdb_del"
  | .cursorGet .. => "mdb_cursor_get"
  | .cursorPut .. | .cursorPutMany .. => "mdb_cursor_put"
  | .cursorDel .. => "mdb_cursor_del"

/-- The one call of the store. -/
def native (store : ε) : ClientCall → Inquiry (Reply Outcome ε Unit)
  | .get txn dbi key => Reply.bare <$> Buffers.get store txn dbi (some key)
  | .put txn dbi key value flags =>
    Reply.bare <$> Buffers.put store txn dbi (some key) (some value) flags
  | .putDescribed txn dbi key value flags =>
    Reply.bare <$> Buffers.putDescribed store txn dbi (some key) (some value) flags
  | .del txn dbi key value => Reply.bare <$> Buffers.del store txn dbi (some key) value
  | .cursorGet cursor key value op => Reply.bare <$>
    if key.isEmpty then Buffers.cursorGet store cursor op
    else if value.isEmpty then Buffers.cursorGetKey store cursor (some key) op
    else Buffers.cursorGetPair store cursor (some key) (some value) op
  | .cursorPut cursor key value flags =>
    Reply.bare <$> Buffers.cursorPut store cursor (some key) (some value) flags
  | .cursorPutMany cursor key page stride flags batch _ =>
    Reply.bare <$> Store.cursorPutMany store cursor (some (.filled key)) page batch.count stride
      (flags ||| Flags.multiple)
  | .cursorDel cursor flags => Reply.bare <$> Store.cursorDel store cursor flags

/-- Makes the call, and tells how it went. -/
def perform (store : ε) : ClientCall → Session (Except Halt Unit × ε)
  | .get txn dbi key => do
    let (result, store) ← Client.get store txn dbi key
    return (result.map fun _ => (), store)
  | .put txn dbi key value flags => Client.put store txn dbi key value flags
  | .putDescribed txn dbi key value flags => do
    let (result, _, store) ← Client.putDescribed store txn dbi key value flags
    return (result, store)
  | .del txn dbi key value => Client.del store txn dbi key value
  | .cursorGet cursor key value op => do
    let (result, store) ← Client.cursorGet store cursor key value op
    return (result.map fun _ => (), store)
  | .cursorPut cursor key value flags => Client.cursorPut store cursor key value flags
  | .cursorPutMany cursor key page stride flags _ _ => do
    let (result, store) ← Client.cursorPutMany store cursor key page stride flags
    return (result.map fun _ => (), store)
  | .cursorDel cursor flags => Client.cursorDel store cursor flags

/-- Every call is one call of the store, with nothing before or after it that matters. -/
theorem perform_eq (call : ClientCall) (store : ε) (host : Host) :
    call.perform store host = (Client.call call.op (call.native store) host).map
      fun done => ((done.1.1, done.1.2.2), done.2) := by
  cases call with
  | get txn dbi key =>
    rw [perform, Client.get, bind_assoc]
    exact Client.call_then fun result _ _ _ => by cases result <;> rfl
  | put txn dbi key value flags => exact Client.call_then fun _ _ _ _ => rfl
  | putDescribed txn dbi key value flags => exact Client.call_then fun _ _ _ _ => rfl
  | del txn dbi key value => exact Client.call_then fun _ _ _ _ => rfl
  | cursorGet cursor key value op =>
    rw [perform, Client.cursorGet, bind_assoc]
    exact Client.call_then fun result _ _ _ => by cases result <;> rfl
  | cursorPut cursor key value flags => exact Client.call_then fun _ _ _ _ => rfl
  | cursorPutMany cursor key page stride flags batch congruent =>
    rw [perform, Client.cursorPutMany, congruent, bind_assoc]
    exact Client.call_then fun result _ _ _ => by cases result <;> rfl
  | cursorDel cursor flags => exact Client.call_then fun _ _ _ _ => rfl

/-- What a call tells that met these faults and that the store answered with this status. -/
structure Reported (op : String) (faults : List Fault) (status : Status)
    (result : Except Halt Unit) : Prop where
  /-- The first fault is told, and none that was not met. -/
  fault : ∀ f, result = .error (.error (.fault f)) ↔ faults.head? = some f
  success : faults = [] → (result = .ok () ↔ status = .success)
  refusal : faults = [] → status ≠ .success → result = .error (.error (.store op status))

theorem verdict_reported (op : String) (faults : List Fault) (status : Status) :
    Reported op faults status (Client.verdict op faults.head? status) := by
  constructor
  case fault => exact fun f => Client.verdict_eq_fault
  case success =>
    rintro rfl
    rw [List.head?_nil]
    by_cases h : status = .success
    · rw [h, Client.verdict_success]
      exact ⟨fun _ => rfl, fun _ => rfl⟩
    · rw [Client.verdict_refusal h]
      exact ⟨fun told => (by cases told), fun done => absurd done h⟩
  case refusal =>
    rintro rfl refused
    exact Client.verdict_refusal refused

/-- The faults that the comparisons of a call meet. -/
def met (call : ClientCall) (store : ε) (r : Registry) : List Fault :=
  ((call.native store).faults r).map Prod.fst

theorem perform_handled {call : ClientCall} {store store' : ε} {host : Host} {status : Status}
    (handled : (call.native store).Handled host.registry)
    (answered : (call.native store).eval host.registry.order = ⟨.ok status, (), store'⟩) :
    call.perform store host = some
      ((Client.verdict call.op (call.met store host.registry).head? status, store'),
        { host with parked := none }) := by
  rw [perform_eq, Client.call_handled handled, answered, Client.tell_status, met, List.head?_map]
  rfl

theorem perform_fault {call : ClientCall} {store store' : ε} {host host' : Host} {f : Fault}
    (performed : call.perform store host = some ((.error (.error (.fault f)), store'), host')) :
    (call.met store host.registry).head? = some f := by
  rw [perform_eq] at performed
  obtain ⟨⟨⟨result, out, _⟩, _⟩, called, told⟩ := Option.map_eq_some_iff.mp performed
  cases told
  rw [met, List.head?_map]
  exact Client.call_fault called

end ClientCall

/-- What may happen in a process: a client's call, a use of the store past the client, a comparison,
a change of the registry, or someone taking the fault that waits. -/
inductive Occurrence (ε : Type) where
  | call (made : ClientCall)
  | direct (use : ε → Inquiry ε)
  | compare (question : Question)
  | dispatch (id : ContextId) (left right : Bytes)
  | alter (change : Registry → Registry)
  | take

/-- A client's call as it was made: the faults it met, and what it told. -/
structure Report where
  met : List Fault
  result : Except Halt Unit

/-- No fault is told that was not the first one met. -/
def Report.Own (report : Report) : Prop :=
  ∀ f, report.result = .error (.error (.fault f)) → report.met.head? = some f

namespace Occurrence

variable {ε : Type} [Store ε]

def happen (store : ε) : Occurrence ε → Session (List Report × ε)
  | .call made => do
    let met := made.met store (← get).registry
    let (result, store) ← made.perform store
    return ([⟨met, result⟩], store)
  | .direct use => do return ([], ← (use store).run)
  | .compare q => do
    let _ ← Session.answer q
    return ([], store)
  | .dispatch id left right => do
    let _ ← Session.dispatch id left right
    return ([], store)
  | .alter change => do
    modify fun host => { host with registry := change host.registry }
    return ([], store)
  | .take => do
    let _ ← Session.takeParked
    return ([], store)

/-- Whatever happens one after another, with the reports of the calls among it. -/
def history (store : ε) : List (Occurrence ε) → Session (List Report × ε)
  | [] => return ([], store)
  | occurrence :: rest => do
    let (reports, store) ← occurrence.happen store
    let (later, store) ← history store rest
    return (reports ++ later, store)

theorem happen_own {occurrence : Occurrence ε} {store store' : ε} {host host' : Host}
    {reports : List Report}
    (happened : occurrence.happen store host = some ((reports, store'), host')) :
    ∀ report ∈ reports, report.Own := by
  cases occurrence with
  | call made =>
    obtain ⟨⟨⟨result, store''⟩, host''⟩, performed, ends⟩ := Option.bind_eq_some_iff.mp happened
    cases ends
    intro report listed f told
    rw [List.mem_singleton.mp listed] at told ⊢
    dsimp only at told
    rw [told] at performed
    exact ClientCall.perform_fault performed
  | direct use | compare q | dispatch id left right =>
    obtain ⟨done, _, ends⟩ := Option.bind_eq_some_iff.mp happened
    cases ends
    nofun
  | alter change | take =>
    cases happened
    nofun

theorem history_own {occurrences : List (Occurrence ε)} {store store' : ε} {host host' : Host}
    {reports : List Report}
    (happened : history store occurrences host = some ((reports, store'), host')) :
    ∀ report ∈ reports, report.Own := by
  induction occurrences generalizing store host reports with
  | nil => cases happened; nofun
  | cons occurrence rest ih =>
    obtain ⟨⟨⟨first, _⟩, _⟩, now, happened⟩ := Option.bind_eq_some_iff.mp happened
    obtain ⟨⟨⟨later, _⟩, _⟩, next, ends⟩ := Option.bind_eq_some_iff.mp happened
    cases ends
    intro report listed
    obtain listed | listed := List.mem_append.mp listed
    · exact happen_own now report listed
    · exact ih next report listed

end Occurrence

namespace ClientCall

/-- **A call reports the faults of its own comparisons**: the first of them, if there are any, and
else what the store's status says. What was parked before is neither reported nor left behind, and so
no fault is ever reported by a call that met none, whatever happens between the calls. -/
theorem calls_report_their_own_faults {ε : Type} [Store ε] :
    (∀ (call : ClientCall) (store store' : ε) (host : Host) (status : Status),
      (call.native store).Handled host.registry →
      (call.native store).eval host.registry.order = ⟨.ok status, (), store'⟩ →
      ∃ result, call.perform store host = some ((result, store'), { host with parked := none }) ∧
        Reported call.op (call.met store host.registry) status result) ∧
    ∀ (occurrences : List (Occurrence ε)) (store store' : ε) (host host' : Host)
      (reports : List Report),
      Occurrence.history store occurrences host = some ((reports, store'), host') →
      ∀ report ∈ reports, ∀ f, report.result = .error (.error (.fault f)) →
        report.met.head? = some f := by
  refine ⟨fun call store store' host status handled answered => ?_, ?_⟩
  · exact ⟨_, perform_handled handled answered, verdict_reported _ _ _⟩
  · intro occurrences store store' host host' reports happened
    exact Occurrence.history_own happened

/-- Both comparisons of a look-up find no collation. The first fault is told, not the one that
waited and not the status. -/
theorem calls_report_their_own_faults_over_a_stale_one :
    ∃ (env : Environment) (host : Host) (call : ClientCall) (result : Except Halt Unit),
      host.parked = some ⟨.handler, "stale"⟩ ∧ (call.native env).Handled host.registry ∧
        (call.native env).eval host.registry.order = ⟨.ok .notFound, (), env⟩ ∧
        (call.met env host.registry).length = 2 ∧
        call.perform env host = some ((result, env), { host with parked := none }) ∧
        Reported call.op (call.met env host.registry) .notFound result := by
  let snapshot : Snapshot :=
    ⟨1, Table.empty.insert Environment.rootDbi [⟨[1], [[5]]⟩, ⟨[3], [[6]]⟩], 4⟩
  let env : Environment := { Environment.new 1 "" {} with
    catalog := [⟨none, ⟨some .single, none, .plain⟩⟩]
    txns := Table.empty.insert 1 (.reader snapshot 0) }
  let host : Host := { Host.new { policy := .sentinel } with parked := some ⟨.handler, "stale"⟩ }
  let call : ClientCall := .get 1 Environment.rootDbi [9]
  have faults : (call.native env).faults host.registry =
      [(⟨.unregistered, CallError.noSingle.text⟩, .sentinel),
        (⟨.unregistered, CallError.noSingle.text⟩, .sentinel)] := rfl
  have handled : (call.native env).Handled host.registry := by
    rw [Inquiry.Handled, faults]
    simp
  have answered : (call.native env).eval host.registry.order = ⟨.ok .notFound, (), env⟩ := rfl
  have twice : (call.met env host.registry).length = 2 := by
    rw [met, List.length_map, faults]
    rfl
  obtain ⟨result, performed, reported⟩ :=
    calls_report_their_own_faults.1 call env env host .notFound handled answered
  exact ⟨env, host, call, result, rfl, handled, answered, twice, performed, reported⟩

end ClientCall

end CollatedStore
