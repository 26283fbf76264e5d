import CollatedStore.Proofs.Environment.Effects
import CollatedStore.Proofs.Flags
import CollatedStore.Proofs.Reference.Basic

/-!
Requests on one database of a writer. What a reference does, the database does too, request by
request, as long as the map has room.
-/
namespace CollatedStore

namespace PutRule

/-- The flags that ask for this rule. -/
def word (rule : PutRule) : UInt32 :=
  (if rule.noOverwrite then Flags.noOverwrite else 0) |||
    (if rule.noDupData then Flags.noDupData else 0) |||
    (if rule.append then Flags.append else 0) |||
    (if rule.appendDup then Flags.appendDup else 0)

@[simp] theorem ofFlags_word (rule : PutRule) : ofFlags rule.word = rule := by
  obtain ⟨a, b, c, d⟩ := rule
  revert a b c d
  decide

theorem within_word (rule : PutRule) : Flags.within rule.word Flags.put = true := by
  obtain ⟨a, b, c, d⟩ := rule
  revert a b c d
  decide

theorem within_word_cursorPut (rule : PutRule) :
    Flags.within rule.word Flags.cursorPut = true := by
  obtain ⟨a, b, c, d⟩ := rule
  revert a b c d
  decide

theorem word_not_current (rule : PutRule) : Flags.has rule.word Flags.current = false :=
  Flags.has_of_within (by decide) rule.within_word

theorem word_not_multiple (rule : PutRule) : Flags.has rule.word Flags.multiple = false :=
  Flags.has_of_within (by decide) rule.within_word

end PutRule

namespace Environment

/-- Makes a request. A deletion hands nothing out, and leaves the descriptor as it was. -/
def request (env : Environment) (txn : Handle) (dbi : Dbi) :
    Request → Inquiry (Reply Outcome Environment (Option Descriptor))
  | .get key data => env.get txn dbi key data
  | .put key data rule => env.put txn dbi key data rule.word
  | .cursorPut cursor key data rule => env.cursorPut cursor key data rule.word
  | .del key data => do
    let reply ← env.del txn dbi key data
    return ⟨reply.ended, data, reply.store⟩

/-- Makes requests one after another. -/
def requests (env : Environment) (txn : Handle) (dbi : Dbi) :
    List Request → Inquiry (List (Outcome × Option Descriptor) × Environment)
  | [] => return ([], env)
  | request :: rest => do
    let reply ← env.request txn dbi request
    let (told, env) ← reply.store.requests txn dbi rest
    return ((reply.ended, reply.out) :: told, env)

/-- How a put is told, given the environments that it may leave. -/
def putReply (data : Option Descriptor) (wrote : Place → Holding → Environment)
    (met : Place → Environment) (left : Environment) :
    Except Stop (Place × Holding) → Reply Outcome Environment (Option Descriptor)
  | .ok (p, holding) => ⟨.ok .success, data, wrote p holding⟩
  | .error (.existing p v) => ⟨(Stop.existing p v).outcome, some (.filled v), met p⟩
  | .error stop => ⟨stop.outcome, data, left⟩

/-- The writer `txn` finds this holding in a database of this layout. -/
def Serves (env : Environment) (txn : Handle) (dbi : Dbi) (layout : Layout) (holding : Holding) :
    Prop :=
  ∃ db, env.writable txn dbi = .ok db ∧ db.layout = layout ∧ db.holding = holding

theorem Serves.database {env : Environment} {txn : Handle} {dbi : Dbi} {layout : Layout}
    {holding : Holding} (h : env.Serves txn dbi layout holding) :
    ∃ db, env.writable txn dbi = .ok db ∧ db.layout = layout ∧ db.holding = holding := h

/-- The cursor stands in this database, within this transaction. -/
def Stands (env : Environment) (cursor txn : Handle) (dbi : Dbi) : Prop :=
  ∃ c, env.cursors.get? cursor = some c ∧ c.txn = txn ∧ c.dbi = dbi

/-- A request that goes through a cursor goes through one of this database. -/
def Suits (env : Environment) (txn : Handle) (dbi : Dbi) : Request → Prop
  | .cursorPut cursor _ _ _ => env.Stands cursor txn dbi
  | _ => True

/-- What requests leave as it was. -/
structure Keeps (env env' : Environment) (txn : Handle) (dbi : Dbi) : Prop where
  config : env'.config = env.config
  cursors : ∀ {cursor}, env.Stands cursor txn dbi → env'.Stands cursor txn dbi

section
variable {env : Environment} {txn cursor : Handle} {dbi : Dbi} {layout : Layout}
  {holding : Holding} {db : Opened}

theorem Keeps.refl : Keeps env env txn dbi := ⟨rfl, fun stands => stands⟩

theorem Keeps.trans {env' env'' : Environment} (h : Keeps env env' txn dbi)
    (h' : Keeps env' env'' txn dbi) : Keeps env env'' txn dbi :=
  ⟨h'.config.trans h.config, fun stands => h'.cursors (h.cursors stands)⟩

theorem Keeps.suits {env' : Environment} (h : Keeps env env' txn dbi) {request : Request}
    (suits : env.Suits txn dbi request) : env'.Suits txn dbi request := by
  cases request with
  | cursorPut => exact h.cursors suits
  | get | put | del => trivial

theorem keep_serves (writable : env.writable txn dbi = .ok db) (holding : Holding) :
    (env.keep db holding).Serves txn dbi db.layout holding := by
  obtain ⟨snapshot, record, entries, _, named, _, rfl⟩ := writable_eq_ok.mp writable
  have kept := Table.get?_insert_self env.txns txn
    (.writer { snapshot with dbs := snapshot.dbs.insert dbi holding.entries, used := holding.used })
  exact ⟨_, writable_eq_ok.mpr ⟨_, record, holding.entries, kept, named,
    Table.get?_insert_self _ _ _, rfl⟩, rfl, rfl⟩

theorem keep_keeps (db : Opened) (holding : Holding) : Keeps env (env.keep db holding) txn dbi :=
  ⟨rfl, fun stands => stands⟩

theorem setCursor_serves {c : Cursor} (h : env.Serves txn dbi layout holding) :
    (env.setCursor cursor c).Serves txn dbi layout holding := h

theorem setCursor_keeps {c : Cursor} (inTxn : c.txn = txn) (inDb : c.dbi = dbi) :
    Keeps env (env.setCursor cursor c) txn dbi := by
  refine ⟨rfl, fun {k} stands => ?_⟩
  obtain ⟨c', here, inTxn', inDb'⟩ := stands
  by_cases same : k = cursor
  · exact ⟨c, by simp [setCursor, same], inTxn, inDb⟩
  · exact ⟨c', by simp [setCursor, same, here], inTxn', inDb'⟩

end

/-! ## One request -/

section
variable {env : Environment} {txn cursor : Handle} {dbi : Dbi} {db : Opened}
  {answer : Question → Ordering} {key value : Descriptor}

theorem eval_get {entries : Contents} {layout : Layout}
    (readable : env.readable txn dbi = .ok (entries, layout))
    (valid : validKey key.bytes = true) :
    (env.get txn dbi (some key) (some value)).eval answer =
      match (do
          entries.valueAt (← Cursor.seekKey layout entries key.bytes)).eval answer with
      | .ok found => ⟨.ok .success, some (.filled found), env⟩
      | .error stop => ⟨stop.outcome, some value, env⟩ := by
  have admitted : env.admitGet txn dbi (some key) (some value) = .ok (key.bytes, entries, layout) :=
    admitGet_eq_ok.mpr ⟨rfl, ⟨_, rfl⟩, valid, readable⟩
  simp only [get, admitted, Inquiry.eval_bind, Work.eval_run]
  generalize Work.eval answer _ = result
  cases result <;> rfl

theorem eval_put_of_within {flags : UInt32} (writable : env.writable txn dbi = .ok db)
    (valid : validKey key.bytes = true) (within : Flags.within flags Flags.put = true) :
    (env.put txn dbi (some key) (some value) flags).eval answer =
      putReply (some value) (fun _ holding => env.keep db holding) (fun _ => env) env
        ((db.holding.put db.layout env.config.mapSize (.ofFlags flags) key.bytes
          value.bytes).eval answer) := by
  have admitted : env.admitPut txn dbi (some key) (some value) flags =
      .ok (key.bytes, value.bytes, db) :=
    admitPut_eq_ok.mpr ⟨rfl, rfl, within, valid, writable⟩
  simp only [put, admitted, Inquiry.eval_bind, Work.eval_run]
  generalize Work.eval answer _ = result
  rcases result with stop | ⟨p, holding⟩
  · cases stop <;> rfl
  · rfl

theorem eval_put (writable : env.writable txn dbi = .ok db) (valid : validKey key.bytes = true)
    (rule : PutRule) :
    (env.put txn dbi (some key) (some value) rule.word).eval answer =
      putReply (some value) (fun _ holding => env.keep db holding) (fun _ => env) env
        ((db.holding.put db.layout env.config.mapSize rule key.bytes value.bytes).eval answer) := by
  rw [eval_put_of_within writable valid rule.within_word, PutRule.ofFlags_word]

/-- An admitted put through a cursor ends as the write does that its flags ask for. -/
theorem eval_cursorPut_of_within {c : Cursor} {flags : UInt32}
    (here : env.cursors.get? cursor = some c) (writable : env.writable c.txn c.dbi = .ok db)
    (valid : validKey key.bytes = true) (within : Flags.within flags Flags.cursorPut = true) :
    (env.cursorPut cursor (some key) (some value) flags).eval answer =
      putReply (some value)
        (fun p holding =>
          (env.keep db holding).setCursor cursor { c with place := some p, deleted := false })
        (fun p => env.setCursor cursor { c with place := some p, deleted := false })
        (env.setCursor cursor { c with deleted := false })
        ((writePair c db env.config.mapSize flags key.bytes value.bytes).eval answer) := by
  have admitted : env.admitCursorPut cursor (some key) (some value) flags =
      .ok (key.bytes, value.bytes, c, db) :=
    admitCursorPut_eq_ok.mpr ⟨rfl, rfl, within, valid, here, writable⟩
  simp only [cursorPut, admitted, Inquiry.eval_bind, Work.eval_run]
  generalize Work.eval answer _ = result
  rcases result with stop | ⟨p, holding⟩
  · cases stop <;> rfl
  · rfl

theorem eval_cursorPut {c : Cursor} (here : env.cursors.get? cursor = some c)
    (writable : env.writable c.txn c.dbi = .ok db) (valid : validKey key.bytes = true)
    (rule : PutRule) :
    (env.cursorPut cursor (some key) (some value) rule.word).eval answer =
      putReply (some value)
        (fun p holding =>
          (env.keep db holding).setCursor cursor { c with place := some p, deleted := false })
        (fun p => env.setCursor cursor { c with place := some p, deleted := false })
        (env.setCursor cursor { c with deleted := false })
        ((db.holding.put db.layout env.config.mapSize rule key.bytes value.bytes).eval answer) := by
  rw [eval_cursorPut_of_within here writable valid rule.within_word_cursorPut,
    writePair_put rule.word_not_multiple rule.word_not_current, PutRule.ofFlags_word]

theorem eval_del (writable : env.writable txn dbi = .ok db) (valid : validKey key.bytes = true)
    (data : Option Descriptor) :
    (env.del txn dbi (some key) data).eval answer =
      match (db.holding.remove db.layout key.bytes (data.map Descriptor.bytes)).eval answer with
      | .ok holding => ⟨.ok .success, (), env.keep db holding⟩
      | .error stop => ⟨stop.outcome, (), env⟩ := by
  have admitted : env.admitDel txn dbi (some key) = .ok (key.bytes, db) :=
    admitDel_eq_ok.mpr ⟨rfl, valid, writable⟩
  simp only [del, admitted, Inquiry.eval_bind, Work.eval_run]
  generalize Work.eval answer _ = result
  cases result <;> rfl

end

/-! ## Requests and what a reference answers -/

section
variable {M : Type} {ref : Reference M} {layout : Layout} {answer : Question → Ordering}
  {env : Environment} {txn cursor : Handle} {dbi : Dbi} {m : M} {rest : Nat}
  {key data : Option Descriptor} {rule : PutRule}

/-- The reply tells what the reference answers, and leaves a database that stands for what the
reference leaves. -/
structure Answers (ref : Reference M) (layout : Layout) (env : Environment) (txn : Handle)
    (dbi : Dbi) (rest : Nat) (answered : Answer × M) (data : Option Descriptor)
    (reply : Reply Outcome Environment (Option Descriptor)) : Prop where
  told : (reply.ended, reply.out) = answered.1.told data
  serves : reply.store.Serves txn dbi layout (ref.holding rest answered.2)
  keeps : Keeps env reply.store txn dbi

theorem get_answers (sim : ref.Simulates layout answer)
    (here : env.Serves txn dbi layout (ref.holding rest m)) :
    Answers ref layout env txn dbi rest (ref.answer m (.get key data)) data
      ((env.get txn dbi key data).eval answer) := by
  cases key with
  | none => exact ⟨rfl, here, .refl⟩
  | some key =>
    cases data with
    | none => exact ⟨rfl, here, .refl⟩
    | some data =>
      simp only [Reference.answer, Reference.answerGet]
      by_cases valid : validKey key.bytes = true
      · obtain ⟨db, writable, sameLayout, holds⟩ := here.database
        subst sameLayout
        have entries : db.entries = ref.contents m := congrArg Holding.entries holds
        rw [eval_get (readable_of_writable writable) valid, entries, sim.get m valid, if_pos valid]
        cases ref.get m key.bytes with
        | none => exact ⟨rfl, here, .refl⟩
        | some found => exact ⟨rfl, here, .refl⟩
      · have refused : env.admitGet txn dbi (some key) (some data) = .error .badValSize := by
          simp [admitGet, present, checkKey, valid]
        rw [get, refused, if_neg valid]
        exact ⟨rfl, here, .refl⟩

theorem del_answers (sim : ref.Simulates layout answer)
    (here : env.Serves txn dbi layout (ref.holding rest m)) :
    Answers ref layout env txn dbi rest (ref.answer m (.del key data)) data
      ((env.request txn dbi (.del key data)).eval answer) := by
  simp only [request, Inquiry.eval_bind, Reference.answer, Reference.answerDel]
  cases key with
  | none => exact ⟨rfl, here, .refl⟩
  | some key =>
    dsimp only
    by_cases valid : validKey key.bytes = true
    · obtain ⟨db, writable, sameLayout, holds⟩ := here.database
      subst sameLayout
      have matched := sim.remove m rest key.bytes (data.map Descriptor.bytes)
      rw [eval_del writable valid, holds, if_pos valid]
      generalize Work.eval answer _ = result at matched ⊢
      cases removed : ref.remove m key.bytes (data.map Descriptor.bytes) with
      | none =>
        rw [removed] at matched
        cases matched with
        | refused => exact ⟨rfl, here, .refl⟩
      | some m' =>
        rw [removed] at matched
        cases matched with
        | done same counted =>
          refine ⟨rfl, ?_, keep_keeps _ _⟩
          rw [same, counted]
          exact keep_serves writable _
    · have refused : env.admitDel txn dbi (some key) = .error .badValSize := by
        simp [admitDel, present, checkKey, valid]
      rw [del, refused, if_neg valid]
      exact ⟨rfl, here, .refl⟩

/-- What a write comes to decides how the reply goes on, whether or not a cursor moves with it. -/
theorem write_answers {result : Except Stop (Place × Holding)}
    {expected : Except Answer M} {wrote : Place → Holding → Environment}
    {met : Place → Environment} {left : Environment}
    (matched : ref.Matches rest (result.map (·.2)) expected)
    (onWrite : ∀ p h, (wrote p h).Serves txn dbi layout h ∧ Keeps env (wrote p h) txn dbi)
    (onMeet : ∀ p, (met p).Serves txn dbi layout (ref.holding rest m) ∧ Keeps env (met p) txn dbi)
    (onLeave : left.Serves txn dbi layout (ref.holding rest m) ∧ Keeps env left txn dbi) :
    Answers ref layout env txn dbi rest (Reference.settle m expected) data
      (putReply data wrote met left result) := by
  rcases result with stop | ⟨p, h⟩
  · cases matched with
    | refused s => exact ⟨rfl, onLeave.1, onLeave.2⟩
    | existing p v => exact ⟨rfl, (onMeet p).1, (onMeet p).2⟩
  · cases matched with
    | @done _ _ m' same counted =>
      obtain ⟨serves, keeps⟩ := onWrite p (ref.holding rest m')
      subst same counted
      exact ⟨rfl, serves, keeps⟩

theorem put_answers (sim : ref.Simulates layout answer)
    (here : env.Serves txn dbi layout (ref.holding rest m))
    (room : rest + (ref.contents (ref.answer m (.put key data rule)).2).size ≤ env.config.mapSize) :
    Answers ref layout env txn dbi rest (ref.answer m (.put key data rule)) data
      ((env.put txn dbi key data rule.word).eval answer) := by
  simp only [Reference.answer, Reference.answerPut] at room ⊢
  cases key with
  | none => exact ⟨rfl, here, .refl⟩
  | some key =>
    cases data with
    | none => exact ⟨rfl, here, .refl⟩
    | some value =>
      dsimp only at room ⊢
      by_cases valid : validKey key.bytes = true
      · obtain ⟨db, writable, sameLayout, holds⟩ := here.database
        subst sameLayout
        rw [if_pos valid] at room
        rw [eval_put writable valid, holds, if_pos valid]
        exact write_answers
          (sim.put m rest env.config.mapSize rule key.bytes value.bytes
            fun m' stored => by rwa [stored] at room)
          (fun _ holding => ⟨keep_serves writable holding, keep_keeps db holding⟩)
          (fun _ => ⟨here, .refl⟩) ⟨here, .refl⟩
      · have refused : env.admitPut txn dbi (some key) (some value) rule.word =
            .error .badValSize := by
          simp [admitPut, present, checkFlags, rule.within_word, checkKey, valid]
        rw [put, refused, if_neg valid]
        exact ⟨rfl, here, .refl⟩

theorem cursorPut_answers (sim : ref.Simulates layout answer)
    (here : env.Serves txn dbi layout (ref.holding rest m)) (stands : env.Stands cursor txn dbi)
    (room : rest + (ref.contents (ref.answer m (.cursorPut cursor key data rule)).2).size ≤
      env.config.mapSize) :
    Answers ref layout env txn dbi rest (ref.answer m (.cursorPut cursor key data rule)) data
      ((env.cursorPut cursor key data rule.word).eval answer) := by
  simp only [Reference.answer, Reference.answerPut] at room ⊢
  cases key with
  | none => exact ⟨rfl, here, .refl⟩
  | some key =>
    cases data with
    | none => exact ⟨rfl, here, .refl⟩
    | some value =>
      dsimp only at room ⊢
      by_cases valid : validKey key.bytes = true
      · obtain ⟨db, writable, sameLayout, holds⟩ := here.database
        subst sameLayout
        obtain ⟨c, placed, rfl, rfl⟩ := stands
        rw [if_pos valid] at room
        rw [eval_cursorPut placed writable valid, holds, if_pos valid]
        exact write_answers
          (sim.put m rest env.config.mapSize rule key.bytes value.bytes
            fun m' stored => by rwa [stored] at room)
          (fun _ holding => ⟨setCursor_serves (keep_serves writable holding),
            (keep_keeps db holding).trans (setCursor_keeps rfl rfl)⟩)
          (fun _ => ⟨setCursor_serves here, setCursor_keeps rfl rfl⟩)
          ⟨setCursor_serves here, setCursor_keeps rfl rfl⟩
      · have refused : env.admitCursorPut cursor (some key) (some value) rule.word =
            .error .badValSize := by
          simp [admitCursorPut, present, checkFlags, rule.within_word_cursorPut, checkKey, valid]
        rw [cursorPut, refused, if_neg valid]
        exact ⟨rfl, here, .refl⟩

theorem request_answers (sim : ref.Simulates layout answer)
    (here : env.Serves txn dbi layout (ref.holding rest m)) {request : Request}
    (suits : env.Suits txn dbi request)
    (room : rest + (ref.contents (ref.answer m request).2).size ≤ env.config.mapSize) :
    Answers ref layout env txn dbi rest (ref.answer m request) request.data
      ((env.request txn dbi request).eval answer) := by
  cases request with
  | get => exact get_answers sim here
  | put => exact put_answers sim here room
  | cursorPut => exact cursorPut_answers sim here suits room
  | del => exact del_answers sim here

/-- What holds after each request of a sequence holds after all of them. The map has to have room
for what the reference holds at every moment. -/
theorem requests_answers (sim : ref.Simulates layout answer)
    (here : env.Serves txn dbi layout (ref.holding rest m)) (requests : List Request)
    (suits : ∀ request ∈ requests, env.Suits txn dbi request)
    (room : ∀ n, rest + (ref.contents (ref.run m (requests.take n)).2).size ≤ env.config.mapSize) :
    ∃ env', (env.requests txn dbi requests).eval answer = ((ref.run m requests).1, env') ∧
      env'.Serves txn dbi layout (ref.holding rest (ref.run m requests).2) ∧
        Keeps env env' txn dbi := by
  induction requests generalizing env m with
  | nil => exact ⟨env, rfl, here, .refl⟩
  | cons request requests ih =>
    have answers := request_answers sim here (suits request (by simp)) (room 1)
    simp only [Environment.requests, Inquiry.eval_bind, Reference.run]
    generalize Inquiry.eval answer (env.request txn dbi request) = reply at answers ⊢
    obtain ⟨env', followed, serves, keeps⟩ := ih answers.serves
      (fun later there => answers.keeps.suits (suits later (by simp [there])))
      fun n => by rw [answers.keeps.config]; exact room (n + 1)
    refine ⟨env', ?_, serves, answers.keeps.trans keeps⟩
    rw [followed, ← answers.told]
    rfl

end

end Environment

end CollatedStore
