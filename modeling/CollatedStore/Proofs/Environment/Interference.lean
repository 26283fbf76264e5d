import CollatedStore.Proofs.Environment.Atomicity
import CollatedStore.Proofs.Environment.Beside
import CollatedStore.Proofs.Environment.Twins

/-!
Databases of one transaction. A call on one of them touches nothing that belongs to another, so that
calls on several can be made in any order that keeps those on each in sequence.
-/
namespace CollatedStore

namespace Environment

/-- What a call on the database `dbi` of the writer `txn` leaves as it was. -/
structure Confined (txn : Handle) (dbi : Dbi) (call : Call) (env env' : Environment) : Prop where
  committed : env'.committed = env.committed
  catalog : env'.catalog = env.catalog
  txns : ∀ t, t ≠ txn → env'.txns.get? t = env.txns.get? t
  writer : ∀ s, env.txns.get? txn = some (.writer s) →
    ∃ s', env'.txns.get? txn = some (.writer s') ∧ ∀ d, d ≠ dbi → s'.dbs.get? d = s.dbs.get? d
  cursors : ∀ h, call.cursor ≠ some h → env'.cursors.get? h = env.cursors.get? h
  /-- The same cursors are open, each in its database. -/
  homes : ∀ h, (env'.cursors.get? h).map Cursor.home = (env.cursors.get? h).map Cursor.home

/-- What no call of the transaction `txn` touches. -/
structure Outside (txn : Handle) (env env' : Environment) : Prop where
  committed : env'.committed = env.committed
  txns : ∀ t, t ≠ txn → env'.txns.get? t = env.txns.get? t
  cursors : ∀ h c, c.txn ≠ txn → (env'.cursors.get? h = some c ↔ env.cursors.get? h = some c)

section
variable {txn : Handle} {dbi : Dbi} {call : Call} {env env' : Environment} {s : Snapshot}

/-! ## One call -/

theorem Confined.refl : Confined txn dbi call env env :=
  ⟨rfl, rfl, fun _ _ => rfl, fun s was => ⟨s, was, fun _ _ => rfl⟩, fun _ _ => rfl, fun _ => rfl⟩

theorem Confined.setCursor {h : Handle} {c c' : Cursor} (confined : Confined txn dbi call env env')
    (own : call.cursor = some h) (here : env.cursors.get? h = some c) (home : c'.home = c.home) :
    Confined txn dbi call env (env'.setCursor h c') := by
  refine ⟨confined.committed, confined.catalog, confined.txns, confined.writer, fun k other => ?_,
    fun k => ?_⟩
  · have apart : k ≠ h := fun same => other (same ▸ own)
    simpa [Environment.setCursor, apart] using confined.cursors k other
  · by_cases same : k = h
    · subst same
      simp [Environment.setCursor, here, home]
    · simpa [Environment.setCursor, same] using confined.homes k

theorem Confined.keep {db : Opened} (writable : env.writable txn dbi = .ok db) (holding : Holding) :
    Confined txn dbi call env (env.keep db holding) := by
  obtain ⟨snapshot, _, _, was, _, _, rfl⟩ := writable_eq_ok.mp writable
  refine ⟨rfl, rfl, fun t other => Table.get?_insert_of_ne _ _ other, fun s now => ?_,
    fun _ _ => rfl, fun _ => rfl⟩
  cases was.symm.trans now
  exact ⟨_, Table.get?_insert_self _ _ _, fun d apart => Table.get?_insert_of_ne _ _ apart⟩

theorem Unchanged.confined (unchanged : Unchanged call.cursor env env') :
    Confined txn dbi call env env' := by
  have data := unchanged.data
  refine ⟨?_, ?_, fun t _ => ?_, fun s was => ⟨s, ?_, fun _ _ => rfl⟩,
    fun h other => unchanged.others h other.symm, unchanged.homes⟩
  all_goals rw [data]
  exact was

theorem Addresses.subject (addresses : env.Addresses txn dbi call) {d : Dbi}
    (subject : env.subject call = some d) : d = dbi := by
  have stands : ∀ {cursor}, env.Stands cursor txn dbi →
      (env.cursors.get? cursor).map (·.dbi) = some d → d = dbi := by
    rintro cursor ⟨c, here, _, rfl⟩ subject
    rw [here] at subject
    exact (Option.some.inj subject).symm
  cases call with
  | put | del => exact (Option.some.inj subject).symm.trans addresses.2
  | cursorPut | cursorPutMany | cursorDel => exact stands addresses subject
  | _ => cases subject

theorem Addresses.stands (addresses : env.Addresses txn dbi call) {h : Handle}
    (own : call.cursor = some h) : env.Stands h txn dbi := by
  cases call with
  | cursorGet | cursorPut | cursorPutMany | cursorDel =>
    cases own
    exact addresses
  | _ => cases own

theorem Attempted.confined {may : Question → Ordering → Prop} {outcome : Outcome}
    (serial : Serial env) (writer : env.txns.get? txn = some (.writer s))
    (addresses : env.Addresses txn dbi call) (attempt : Attempted may env call outcome env') :
    Confined txn dbi call env env' := by
  induction attempt with
  | refused => exact .refl
  | @wrote db _ holding writable subject =>
    obtain ⟨_, _, _, was, _, _, _⟩ := writable_eq_ok.mp writable
    obtain rfl := serial.same_writer writer was
    obtain rfl := addresses.subject subject
    exact .keep writable holding
  | stopped => exact .refl
  | moved _ own here inTxn inDb _ confined =>
    exact confined.setCursor own here (Prod.ext inTxn inDb)

theorem BatchEnded.confined {may : Question → Ordering → Prop} {cursor : Handle}
    {key : Option Descriptor} {page : Bytes} {count stride : Nat} {flags : UInt32}
    {reply : Reply Outcome Environment Nat} (stands : env.Stands cursor txn dbi)
    (ended : BatchEnded may env cursor key page count stride flags reply) :
    Confined txn dbi (.cursorPutMany cursor key page count stride flags) env reply.store := by
  cases ended with
  | refused => exact .refl
  | unfit _ here => exact Confined.refl.setCursor rfl here rfl
  | made here writable =>
    obtain ⟨c, own, rfl, rfl⟩ := stands
    cases here.symm.trans own
    exact (Confined.keep writable _).setCursor rfl here rfl

theorem respond_confined {reply : Reply Outcome Environment Handed} (serial : Serial env)
    (writer : env.txns.get? txn = some (.writer s)) (addresses : env.Addresses txn dbi call)
    (made : (env.respond call).Yields reply) : Confined txn dbi call env reply.store := by
  have performed : (env.perform call).Yields (reply.ended, reply.store) := by
    rw [perform_eq_respond, Inquiry.yields_map]
    exact ⟨reply, made, rfl⟩
  generalize reply.ended = outcome at performed
  generalize reply.store = env' at performed
  cases perform_ended (Inquiry.yields_iff.mp performed) with
  | read => exact .refl
  | attempted _ attempt => exact attempt.confined serial writer addresses
  | batch ended => exact ended.confined addresses
  | moved ended => exact Unchanged.confined ended.unchanged
  | txnBegin | txnCommit | txnAbort | dbiOpen | setOrder | cursorOpen | cursorClose =>
    exact addresses.elim

/-! ## What other calls find -/

theorem Confined.stands (confined : Confined txn dbi call env env') {h t : Handle} {d : Dbi}
    (stands : env.Stands h t d) : env'.Stands h t d := by
  obtain ⟨c, here, rfl, rfl⟩ := stands
  have home := confined.homes h
  rw [here] at home
  obtain ⟨c', here', home⟩ := Option.map_eq_some_iff.mp home
  obtain ⟨inTxn, inDb⟩ := Prod.mk.inj home
  exact ⟨c', here', inTxn, inDb⟩

theorem Confined.addresses (confined : Confined txn dbi call env env') {t : Handle} {d : Dbi}
    {later : Call} (addresses : env.Addresses t d later) : env'.Addresses t d later := by
  cases later with
  | get | put | del => exact addresses
  | cursorGet | cursorPut | cursorPutMany | cursorDel => exact confined.stands addresses
  | _ => exact addresses

/-- A cursor of another home is none that the call names. -/
theorem Confined.cursors_iff (confined : Confined txn dbi call env env')
    (addresses : env.Addresses txn dbi call) {h : Handle} {c : Cursor} (other : c.home ≠ (txn, dbi)) :
    env'.cursors.get? h = some c ↔ env.cursors.get? h = some c := by
  by_cases own : call.cursor = some h
  · obtain ⟨d, here, rfl, rfl⟩ := addresses.stands own
    have home := confined.homes h
    rw [here] at home
    refine iff_of_false (fun there => other ?_) fun there => other ?_
    · rw [there] at home
      exact Option.some.inj home
    · cases here.symm.trans there
      rfl
  · rw [confined.cursors h own]

/-- Another database is as it was. -/
theorem Confined.beside (confined : Confined txn dbi call env env')
    (writer : env.txns.get? txn = some (.writer s)) (addresses : env.Addresses txn dbi call)
    {d : Dbi} (apart : d ≠ dbi) : env.Beside txn d env' := by
  obtain ⟨s', now, others⟩ := confined.writer s writer
  refine ⟨by rw [confined.catalog], ⟨s, s', writer, now, others d apart⟩, fun h c _ inDb => ?_⟩
  exact confined.cursors_iff addresses fun home => apart (inDb.symm.trans (congrArg Prod.snd home))

theorem Outside.refl (txn : Handle) (env : Environment) : Outside txn env env :=
  ⟨rfl, fun _ _ => rfl, fun _ _ _ => Iff.rfl⟩

theorem Outside.trans {env'' : Environment} (h : Outside txn env env')
    (h' : Outside txn env' env'') : Outside txn env env'' :=
  ⟨h'.committed.trans h.committed, fun t other => (h'.txns t other).trans (h.txns t other),
    fun k c other => (h'.cursors k c other).trans (h.cursors k c other)⟩

theorem Confined.outside (confined : Confined txn dbi call env env')
    (addresses : env.Addresses txn dbi call) : Outside txn env env' :=
  ⟨confined.committed, confined.txns, fun _ _ other =>
    confined.cursors_iff addresses fun home => other (congrArg Prod.fst home)⟩

end

/-! ## Calls in turn -/

/-- Of what is listed with databases, what is listed with this one. -/
def madeOn {α : Type} (dbi : Dbi) (xs : List (Dbi × α)) : List (Dbi × α) := xs.filter (·.1 == dbi)

/-- Makes calls one after another, each listed with the database it is made on. -/
def inTurn (env : Environment) :
    List (Dbi × Call) → Inquiry (List (Dbi × Outcome × Handed) × Environment)
  | [] => return ([], env)
  | (dbi, call) :: rest => do
    let reply ← env.respond call
    let (told, env) ← reply.store.inTurn rest
    return ((dbi, reply.ended, reply.out) :: told, env)

/-- No call was refused for want of room. -/
def Roomy (told : List (Dbi × Outcome × Handed)) : Prop := ∀ x ∈ told, x.2.1 ≠ .ok .mapFull

section
variable {answer : Question → Ordering} {txn : Handle} {env env' : Environment} {dbi : Dbi}
  {calls : List (Dbi × Call)} {s : Snapshot}

theorem eval_inTurn_cons (answer : Question → Ordering) (env : Environment) (dbi : Dbi)
    (call : Call) (rest : List (Dbi × Call)) :
    (env.inTurn ((dbi, call) :: rest)).eval answer =
      ((dbi, ((env.respond call).eval answer).ended, ((env.respond call).eval answer).out) ::
        ((((env.respond call).eval answer).store.inTurn rest).eval answer).1,
        ((((env.respond call).eval answer).store.inTurn rest).eval answer).2) := by
  simp only [inTurn, Inquiry.eval_bind]
  rfl

theorem eval_inTurn_append (answer : Question → Ordering) (env : Environment)
    (first later : List (Dbi × Call)) :
    (env.inTurn (first ++ later)).eval answer =
      (((env.inTurn first).eval answer).1 ++
          ((((env.inTurn first).eval answer).2.inTurn later).eval answer).1,
        ((((env.inTurn first).eval answer).2.inTurn later).eval answer).2) := by
  induction first generalizing env with
  | nil => rfl
  | cons x rest ih =>
    obtain ⟨dbi, call⟩ := x
    rw [List.cons_append, eval_inTurn_cons, eval_inTurn_cons, ih]
    rfl

/-- Calls in turn lead on, and touch nothing outside their transaction. -/
theorem inTurn_outside (answer : Question → Ordering) (reached : Reachable env)
    (writer : env.txns.get? txn = some (.writer s))
    (each : ∀ x ∈ calls, env.Addresses txn x.1 x.2) :
    Reachable ((env.inTurn calls).eval answer).2 ∧
      Outside txn env ((env.inTurn calls).eval answer).2 := by
  induction calls generalizing env s with
  | nil => exact ⟨reached, .refl txn env⟩
  | cons x rest ih =>
    obtain ⟨dbi, call⟩ := x
    rw [eval_inTurn_cons]
    have made := Inquiry.yields_eval answer (env.respond call)
    generalize (env.respond call).eval answer = reply at made
    have addresses := each _ List.mem_cons_self
    have confined := respond_confined (reachable_serial reached) writer addresses made
    obtain ⟨s', writer', _⟩ := confined.writer s writer
    obtain ⟨reached', outside⟩ := ih (reached.responded made) writer' fun x later =>
      confined.addresses (each x (List.mem_cons_of_mem _ later))
    exact ⟨reached', (confined.outside addresses).trans outside⟩

/-- **What is made on one database is told as if nothing else were called**, and comes to the same
there, as long as there is room. -/
theorem inTurn_beside (reached : Reachable env) (reached' : Reachable env')
    (beside : env.Beside txn dbi env') (each : ∀ x ∈ calls, env.Addresses txn x.1 x.2)
    (roomy : Roomy ((env.inTurn calls).eval answer).1)
    (roomy' : Roomy ((env'.inTurn (madeOn dbi calls)).eval answer).1) :
    madeOn dbi ((env.inTurn calls).eval answer).1 = ((env'.inTurn (madeOn dbi calls)).eval answer).1 ∧
      ((env.inTurn calls).eval answer).2.Beside txn dbi
        ((env'.inTurn (madeOn dbi calls)).eval answer).2 := by
  induction calls generalizing env env' with
  | nil => exact ⟨rfl, beside⟩
  | cons x rest ih =>
    obtain ⟨d, call⟩ := x
    obtain ⟨s, _, writer, _⟩ := beside.writers
    have addresses := each _ List.mem_cons_self
    have made := Inquiry.yields_eval answer (env.respond call)
    have confined := respond_confined (reachable_serial reached) writer addresses made
    have later := fun x there => confined.addresses (each x (List.mem_cons_of_mem _ there))
    rw [eval_inTurn_cons] at roomy ⊢
    obtain ⟨told, roomy⟩ := List.forall_mem_cons.mp roomy
    by_cases own : d = dbi
    · subst own
      have listed : madeOn d ((d, call) :: rest) = (d, call) :: madeOn d rest := by simp [madeOn]
      rw [listed, eval_inTurn_cons] at roomy' ⊢
      obtain ⟨told', roomy'⟩ := List.forall_mem_cons.mp roomy'
      have same := respond_beside answer (reachable_balanced reached)
        (reachable_balanced reached') beside addresses
      have made' := Inquiry.yields_eval answer (env'.respond call)
      have left := reached.responded made
      have left' := reached'.responded made'
      generalize (env.respond call).eval answer = reply at *
      generalize (env'.respond call).eval answer = reply' at *
      cases same with
      | full ended => exact absurd ended told
      | fullBeside ended => exact absurd ended told'
      | same beside =>
        obtain ⟨same, besides⟩ := ih left left' beside later roomy roomy'
        refine ⟨?_, besides⟩
        simpa [madeOn] using same
    · have listed : madeOn dbi ((d, call) :: rest) = madeOn dbi rest := by simp [madeOn, own]
      rw [listed] at roomy' ⊢
      have apart := (confined.beside writer addresses (Ne.symm own)).symm.trans beside
      obtain ⟨same, besides⟩ := ih (reached.responded made) reached' apart later roomy roomy'
      refine ⟨?_, besides⟩
      simpa [madeOn, own] using same

end

/-! ## Calls in different orders -/

/-- Each call is told the same and hands out the same in both orders, and the same is left. -/
structure SameOutcome (answer : Question → Ordering) (env : Environment)
    (calls calls' : List (Dbi × Call)) : Prop where
  told : ∀ dbi, madeOn dbi ((env.inTurn calls').eval answer).1 =
    madeOn dbi ((env.inTurn calls).eval answer).1
  data : SameData ((env.inTurn calls').eval answer).2 ((env.inTurn calls).eval answer).2
  cursors : ∀ h, ((env.inTurn calls').eval answer).2.cursors.get? h =
    ((env.inTurn calls).eval answer).2.cursors.get? h

section
variable {answer : Question → Ordering} {txn : Handle} {env env' : Environment} {dbi : Dbi}
  {calls calls' : List (Dbi × Call)} {s : Snapshot}

/-- A writer that finds the same in each database has used as many bytes. -/
theorem bytesUsed_of_beside (balanced : Balanced env) (balanced' : Balanced env')
    (beside : ∀ dbi, env.Beside txn dbi env') : env'.bytesUsed txn = env.bytesUsed txn := by
  obtain ⟨t, t', was, was', _⟩ := (beside rootDbi).writers
  have found : ∀ dbi, t'.dbs.get? dbi = t.dbs.get? dbi := by
    intro dbi
    obtain ⟨u, u', now, now', same⟩ := (beside dbi).writers
    cases was.symm.trans now
    cases was'.symm.trans now'
    exact same
  have used : t.used = t.dbs.sum Contents.size := (balanced.live was).used
  have used' : t'.used = t'.dbs.sum Contents.size := (balanced'.live was').used
  simp only [bytesUsed, was, was', Option.map_some, Txn.snapshot, used, used',
    Table.sum_congr Contents.size found]

theorem view_of_beside (beside : env.Beside txn dbi env') :
    env'.view txn dbi = env.view txn dbi := by
  obtain ⟨t, t', was, was', same⟩ := beside.writers
  simp only [view, was, was', Option.bind_some, Txn.snapshot, same]

theorem sameOutcome_of_same_sequences (reached : Reachable env)
    (writer : env.txns.get? txn = some (.writer s))
    (each : ∀ x ∈ calls, env.Addresses txn x.1 x.2) (same : ∀ dbi, madeOn dbi calls' = madeOn dbi calls)
    (roomy : Roomy ((env.inTurn calls).eval answer).1)
    (roomy' : Roomy ((env.inTurn calls').eval answer).1)
    (alone : ∀ dbi, Roomy ((env.inTurn (madeOn dbi calls)).eval answer).1) :
    SameOutcome answer env calls calls' := by
  have each' : ∀ x ∈ calls', env.Addresses txn x.1 x.2 := by
    intro x there
    have listed : x ∈ madeOn x.1 calls' := List.mem_filter.mpr ⟨there, beq_self_eq_true _⟩
    rw [same] at listed
    exact each x (List.mem_filter.mp listed).1
  have part := fun dbi =>
    inTurn_beside reached reached (.refl writer dbi) each roomy (alone dbi)
  have part' := fun dbi => by
    have alone := alone dbi
    rw [← same] at alone
    have part := inTurn_beside reached reached (.refl writer dbi) each' roomy' alone
    rwa [same] at part
  have beside := fun dbi => (part dbi).2.trans (part' dbi).2.symm
  obtain ⟨left, outside⟩ := inTurn_outside answer reached writer each
  obtain ⟨left', outside'⟩ := inTurn_outside answer reached writer each'
  refine ⟨fun dbi => (part' dbi).1.trans (part dbi).1.symm, ⟨fun t dbi => ?_, fun t => ?_, ?_⟩,
    fun h => Option.ext fun c => ?_⟩
  · by_cases own : t = txn
    · rw [own]
      exact view_of_beside (beside dbi)
    · simp only [view, outside.txns t own, outside'.txns t own]
  · by_cases own : t = txn
    · rw [own]
      exact bytesUsed_of_beside (reachable_balanced left) (reachable_balanced left') beside
    · simp only [bytesUsed, outside.txns t own, outside'.txns t own]
  · exact outside'.committed.trans outside.committed.symm
  · by_cases own : c.txn = txn
    · exact (beside c.dbi).cursors h c own rfl
    · exact (outside'.cursors h c own).trans (outside.cursors h c own).symm

end

/-- Calls on two databases in one order, which keeps the sequence of those on each. -/
inductive Interleaves (a b : Dbi) : List Call → List Call → List (Dbi × Call) → Prop
  | none : Interleaves a b [] [] []
  | left {x : Call} {xs ys : List Call} {zs : List (Dbi × Call)} (rest : Interleaves a b xs ys zs) :
      Interleaves a b (x :: xs) ys ((a, x) :: zs)
  | right {y : Call} {xs ys : List Call} {zs : List (Dbi × Call)}
      (rest : Interleaves a b xs ys zs) : Interleaves a b xs (y :: ys) ((b, y) :: zs)

namespace Interleaves

variable {a b : Dbi} {xs ys : List Call} {zs : List (Dbi × Call)}

theorem madeOn_eq (apart : a ≠ b) (interleaves : Interleaves a b xs ys zs) (dbi : Dbi) :
    madeOn dbi zs = if a = dbi then xs.map (a, ·) else if b = dbi then ys.map (b, ·) else [] := by
  induction interleaves with
  | none => simp [madeOn]
  | @left x xs ys zs _ ih =>
    by_cases own : a = dbi
    · simp only [own, if_true] at ih ⊢
      simpa [madeOn] using ih
    · simp only [own, if_false] at ih ⊢
      simpa [madeOn, own] using ih
  | @right y xs ys zs _ ih =>
    by_cases own : b = dbi
    · have other : a ≠ dbi := own ▸ apart
      simp only [own, other, if_true, if_false] at ih ⊢
      simpa [madeOn] using ih
    · simp only [own, if_false] at ih ⊢
      simpa [madeOn, own] using ih

theorem rightOnly (a : Dbi) (ys : List Call) : Interleaves a b [] ys (ys.map (b, ·)) := by
  induction ys with
  | nil => exact .none
  | cons y ys ih => exact ih.right

theorem leftOnly (b : Dbi) (xs : List Call) : Interleaves a b xs [] (xs.map (a, ·)) := by
  induction xs with
  | nil => exact .none
  | cons x xs ih => exact ih.left

/-- One sequence after the other. -/
theorem inSequence (a b : Dbi) (xs ys : List Call) :
    Interleaves a b xs ys (xs.map (a, ·) ++ ys.map (b, ·)) := by
  induction xs with
  | nil => exact rightOnly a ys
  | cons x xs ih => exact ih.left

theorem inSequence_swapped (a b : Dbi) (xs ys : List Call) :
    Interleaves a b xs ys (ys.map (b, ·) ++ xs.map (a, ·)) := by
  induction ys with
  | nil => exact leftOnly b xs
  | cons y ys ih => exact ih.right

/-- The one call comes last, in between or first. -/
theorem of_two_and_one {x x' y : Call} (order : Interleaves a b [x, x'] [y] zs) :
    zs = [(a, x), (a, x'), (b, y)] ∨ zs = [(a, x), (b, y), (a, x')] ∨
      zs = [(b, y), (a, x), (a, x')] := by
  cases order with
  | left rest =>
    cases rest with
    | left rest =>
      cases rest with
      | right rest =>
        cases rest
        exact .inl rfl
    | right rest =>
      cases rest with
      | left rest =>
        cases rest
        exact .inr (.inl rfl)
  | right rest =>
    cases rest with
    | left rest =>
      cases rest with
      | left rest =>
        cases rest
        exact .inr (.inr rfl)

end Interleaves

/-- **Databases of one transaction do not interfere.** A call on one of them touches no other
transaction and no cursor but the one it names; and however two sequences of calls are
interleaved, one on each of two databases, each call comes to the same and the same is left as
where one sequence follows the other, as long as none is refused for want of room. -/
theorem databases_do_not_interfere {env : Environment} {txn : Handle} {snapshot : Snapshot}
    (reached : Reachable env) (writer : env.txns.get? txn = some (.writer snapshot))
    (answer : Question → Ordering) :
    (∀ {dbi call reply}, env.Addresses txn dbi call → (env.respond call).Yields reply →
      Confined txn dbi call env reply.store) ∧
    ∀ {a b : Dbi} {xs ys : List Call}, a ≠ b → (∀ x ∈ xs, env.Addresses txn a x) →
      (∀ y ∈ ys, env.Addresses txn b y) →
      (∀ zs, Interleaves a b xs ys zs → Roomy ((env.inTurn zs).eval answer).1) →
      ∀ zs, Interleaves a b xs ys zs →
        SameOutcome answer env (xs.map (a, ·) ++ ys.map (b, ·)) zs := by
  refine ⟨fun addresses made => respond_confined (reachable_serial reached) writer addresses made,
    fun {a b xs ys} apart onA onB roomy zs interleaves => ?_⟩
  have inSequence := Interleaves.inSequence a b xs ys
  have listed := inSequence.madeOn_eq apart
  refine sameOutcome_of_same_sequences reached writer ?each (fun dbi => ?same) (roomy _ inSequence)
    (roomy zs interleaves) fun dbi => ?alone
  case each =>
    refine List.forall_mem_append.mpr ⟨List.forall_mem_map.mpr onA, List.forall_mem_map.mpr onB⟩
  case same => rw [interleaves.madeOn_eq apart, listed]
  case alone =>
    -- Each sequence comes first in one of the orders.
    have first := roomy _ inSequence
    have second := roomy _ (Interleaves.inSequence_swapped a b xs ys)
    rw [eval_inTurn_append] at first second
    rw [listed]
    split
    · exact (List.forall_mem_append.mp first).1
    · split
      · exact (List.forall_mem_append.mp second).1
      · exact nofun

/-- A put and a deletion through a cursor, and a put elsewhere before, between or after them. -/
theorem databases_do_not_interfere_where_one_is_written_meanwhile :
    ∃ env snapshot, Reachable env ∧ env.txns.get? 1 = some (.writer snapshot) ∧
      ∀ zs, Interleaves 2 3
          [.cursorPut 2 (some (.filled [1])) (some (.filled [5])) 0, .cursorDel 2 0]
          [.put 1 3 (some (.filled [1])) (some (.filled [7, 7])) 0] zs →
        (∀ x ∈ ((env.inTurn zs).eval fun q => Order.baseline q.left q.right).1,
          x.2.1 = .ok .success) ∧
        SameOutcome (fun q => Order.baseline q.left q.right) env
          [(2, .cursorPut 2 (some (.filled [1])) (some (.filled [5])) 0), (2, .cursorDel 2 0),
            (3, .put 1 3 (some (.filled [1])) (some (.filled [7, 7])) 0)] zs := by
  obtain ⟨env, snapshot, reached, writer, stands, succeed⟩ :
      ∃ env snapshot, Reachable env ∧ env.txns.get? 1 = some (.writer snapshot) ∧
        env.Stands 2 1 2 ∧
        ∀ zs, Interleaves 2 3
            [.cursorPut 2 (some (.filled [1])) (some (.filled [5])) 0, .cursorDel 2 0]
            [.put 1 3 (some (.filled [1])) (some (.filled [7, 7])) 0] zs →
          ∀ x ∈ ((env.inTurn zs).eval fun q => Order.baseline q.left q.right).1,
            x.2.1 = .ok .success := by
    have start : Reachable (Environment.new 1 "" {}) := ⟨1, "", {}, 0, .start⟩
    have begun := start.next (.txnBegin none 0) ⟨_, .done _⟩
    have one := begun.next (.dbiOpen 1 (some "values") (Flags.dupSort ||| Flags.create))
      ⟨_, .done _⟩
    have two := one.next (.dbiOpen 1 (some "names") Flags.create) ⟨_, .done _⟩
    have reached := two.next (.cursorOpen 1 2) ⟨_, .done _⟩
    refine ⟨_, _, reached, rfl, ⟨_, rfl, rfl, rfl⟩, fun zs order => ?_⟩
    have all : ∀ {x y z : Dbi × Outcome × Handed}, x.2.1 = .ok .success → y.2.1 = .ok .success →
        z.2.1 = .ok .success → ∀ told ∈ [x, y, z], told.2.1 = .ok .success := by
      simp_all
    obtain rfl | rfl | rfl := order.of_two_and_one
    all_goals
      refine all ?_ ?_ ?_
      all_goals rfl
  have apart : ∀ {x : Dbi × Outcome × Handed}, x.2.1 = .ok .success → x.2.1 ≠ .ok .mapFull := by
    intro x success full
    cases success.symm.trans full
  have onValues : ∀ x ∈ [.cursorPut 2 (some (.filled [1])) (some (.filled [5])) 0, .cursorDel 2 0],
      env.Addresses 1 2 x :=
    List.forall_mem_cons.mpr ⟨stands, List.forall_mem_singleton.mpr stands⟩
  have onNames : ∀ y ∈ [.put 1 3 (some (.filled [1])) (some (.filled [7, 7])) 0],
      env.Addresses 1 3 y := List.forall_mem_singleton.mpr ⟨rfl, rfl⟩
  exact ⟨env, snapshot, reached, writer, fun zs order => ⟨succeed zs order,
    (databases_do_not_interfere reached writer _).2 (by decide) onValues onNames
      (fun zs order x there => apart (succeed zs order x there)) zs order⟩⟩

end Environment

end CollatedStore
