import CollatedStore.Listing
import CollatedStore.Proofs.Answers
import CollatedStore.Proofs.Readers
import CollatedStore.Proofs.Text.Utf8

/-!
Listing the readers. A handler hears the lines one after another, as long as it lets them pass; what
the listing comes to tells a code that stopped it, a handler that gave up and one that failed apart,
also where they leave the same code behind.
-/
namespace CollatedStore

section
variable {α σ ρ : Type}

/-- A function with a state is called on the items, one after another, and lets all of them pass. -/
inductive Passes (call : α → StateM σ ρ) (pass : ρ) : List α → σ → σ → Prop
  | nil (s : σ) : Passes call pass [] s s
  | cons {x : α} {items : List α} {s s' s'' : σ} (first : call x s = (pass, s'))
      (rest : Passes call pass items s' s'') : Passes call pass (x :: items) s s''

/-- The same function, which also writes down what it is called on. -/
def logged (call : α → StateM σ ρ) : α → StateM (σ × List α) ρ := fun x (s, heard) =>
  let (result, s') := call x s
  (result, s', heard ++ [x])

variable {call : α → StateM σ ρ} {pass : ρ} {x : α} {items : List α} {s s' : σ}

theorem logged_apply {result : ρ} (made : call x s = (result, s')) (heard : List α) :
    logged call x (s, heard) = (result, s', heard ++ [x]) := by
  simp only [logged, made]

theorem Passes.logged (passes : Passes call pass items s s') (heard : List α) :
    Passes (logged call) pass items (s, heard) (s', heard ++ items) := by
  induction passes generalizing heard with
  | nil s =>
    rw [List.append_nil]
    exact .nil _
  | @cons x items _ _ _ first _ ih =>
    refine .cons (logged_apply first heard) ?_
    have later := ih (heard ++ [x])
    rwa [List.append_assoc] at later

/-- All items pass, or there is a first one that does not. -/
theorem passes_or_first (call : α → StateM σ ρ) (pass : ρ) (items : List α) (s : σ) :
    (∃ s', Passes call pass items s s') ∨
      ∃ before x after s', items = before ++ x :: after ∧ Passes call pass before s s' ∧
        (call x s').1 ≠ pass := by
  induction items generalizing s with
  | nil => exact .inl ⟨s, .nil s⟩
  | cons x items ih =>
    by_cases goes_on : (call x s).1 = pass
    · have first : call x s = (pass, (call x s).2) := Prod.ext goes_on rfl
      obtain ⟨s', passes⟩ | ⟨before, y, after, s', rfl, passes, ends⟩ := ih (call x s).2
      · exact .inl ⟨s', .cons first passes⟩
      · exact .inr ⟨x :: before, y, after, s', rfl, .cons first passes, ends⟩
    · exact .inr ⟨[], x, items, s, rfl, .nil s, goes_on⟩

end

/-! ## The calls of a message function -/

theorem Messenger.until_cons {σ : Type} (call : Messenger σ) (m : Message) (rest : List Message)
    (s : σ) : call.until (m :: rest) s =
      if (call m s).1 = 0 then call.until rest (call m s).2
      else (⟨(call m s).1⟩, (call m s).2) := by
  change (Messenger.until call (m :: rest)).run s = _
  simp only [Messenger.until, StateT.run_bind]
  change (if (call m s).1 = 0 then Messenger.until call rest else _).run (call m s).2 = _
  split <;> rfl

/-- One that never stops is called on every message, in order. -/
theorem Messenger.until_of_never_stops {σ : Type} {call : Messenger σ}
    (never : ∀ m s, (call m s).1 = 0) (messages : List Message) (s : σ) :
    call.until messages s = (.success, messages.foldl (fun s m => (call m s).2) s) := by
  induction messages generalizing s with
  | nil => rfl
  | cons m messages ih => rw [until_cons, if_pos (never m s), ih, List.foldl_cons]

namespace Listing

variable {σ : Type} {handler : Handler σ} {lines : List Line} {line : Line} {s s' : σ} {n : Nat}

/-- The message that brings a line to the handler. -/
def message (line : Line) : Message := ⟨some line.bytes, true⟩

/-- What the handler makes of a line is kept in the progress. -/
theorem messenger_ok {code : Int32} (made : handler line s = (.ok code, s')) (n : Nat) :
    messenger handler (message line) ⟨s, n, none, none⟩ =
      (code, ⟨s', n + 1, if code = 0 then none else some code, none⟩) := by
  change handler ⟨line.bytes⟩ s = _ at made
  simp only [messenger, message, if_true, made]
  split <;> rfl

theorem messenger_error {text : String} (made : handler line s = (.error text, s')) (n : Nat) :
    messenger handler (message line) ⟨s, n, none, none⟩ =
      (-1, ⟨s', n + 1, none, some ⟨.handler, text⟩⟩) := by
  change handler ⟨line.bytes⟩ s = _ at made
  simp only [messenger, message, if_true, made]

theorem until_passes (passes : Passes handler (.ok 0) lines s s') (rest : List Message) (n : Nat) :
    (messenger handler).until (lines.map message ++ rest) ⟨s, n, none, none⟩ =
      (messenger handler).until rest ⟨s', n + lines.length, none, none⟩ := by
  induction passes generalizing n with
  | nil => rfl
  | cons first _ ih =>
    simp only [List.map_cons, List.cons_append, Messenger.until_cons, messenger_ok first, if_true]
    rw [ih, List.length_cons, Nat.add_assoc, Nat.add_comm 1]

theorem until_stopped {code : Int32} (stops : handler line s = (.ok code, s')) (nonzero : code ≠ 0)
    (rest : List Message) (n : Nat) :
    (messenger handler).until (message line :: rest) ⟨s, n, none, none⟩ =
      (⟨code⟩, ⟨s', n + 1, some code, none⟩) := by
  simp only [Messenger.until_cons, messenger_ok stops, if_neg nonzero]

theorem until_failed {text : String} (fails : handler line s = (.error text, s'))
    (rest : List Message) (n : Nat) :
    (messenger handler).until (message line :: rest) ⟨s, n, none, none⟩ =
      (⟨-1⟩, ⟨s', n + 1, none, some ⟨.handler, text⟩⟩) := by
  simp only [Messenger.until_cons, messenger_error fails]
  rfl

/-! ## What a listing comes to -/

end Listing

/-- The lines of the reader table, as the store hands them out. -/
def Environment.readerLines (env : Environment) : List Line :=
  (env.readers.lines env.owner).map fun text => ⟨Utf8.encode text⟩

/-- A cut among the texts of the table is a cut among the lines handed out. -/
theorem Environment.readerLines_cut {env : Environment} {before after : List String}
    {text : String} (lines : env.readers.lines env.owner = before ++ text :: after) :
    env.readerLines = before.map (fun text => ⟨Utf8.encode text⟩) ++
      ⟨Utf8.encode text⟩ :: after.map fun text => ⟨Utf8.encode text⟩ := by
  rw [readerLines, lines, List.map_append, List.map_cons]

theorem Environment.listReaders_eq {σ : Type} (env : Environment) (call : Messenger σ) :
    env.listReaders (some call) = call.until (env.readerLines.map Listing.message) := by
  rw [readerLines, List.map_map]
  rfl

namespace Listing

variable {env : Environment} {host : Host}

/-- Under the sentinel policy a listing leaves the host as it is, whatever the handler does. -/
theorem run_eq (sentinel : host.registry.settings.policy = .sentinel) {status : Status}
    {p : Progress σ} (listed : (messenger handler).until (env.readerLines.map message)
      ⟨s, 0, none, none⟩ = (status, p)) :
    run env handler s host = some ((match p.fault with
      | some fault => .error (.fault fault)
      | none => conclude status p, p.state), host) := by
  have made : (Store.listReaders env (some (messenger handler))).run ⟨s, 0, none, none⟩ =
      (status, p) := by
    change env.listReaders (some (messenger handler)) ⟨s, 0, none, none⟩ = _
    rw [Environment.listReaders_eq, listed]
  unfold run
  rw [made, Session.bind_apply]
  change (some (host, host)).bind _ = _
  simp only [Option.bind_some, sentinel]
  cases p.fault with
  | none => rfl
  | some fault => rfl

section
variable (sentinel : host.registry.settings.policy = .sentinel)
include sentinel

theorem run_unstopped (passes : Passes handler (.ok 0) env.readerLines s s') :
    run env handler s host = some ((.ok ⟨0, env.readerLines.length, false⟩, s'), host) := by
  have listed := until_passes passes [] 0
  rw [List.append_nil, Nat.zero_add] at listed
  rw [run_eq sentinel listed]
  rfl

theorem run_stopped {before after : List Line} {t : σ} {code : Int32}
    (lines : env.readerLines = before ++ line :: after) (passes : Passes handler (.ok 0) before s t)
    (stops : handler line t = (.ok code, s')) (nonzero : code ≠ 0) :
    run env handler s host = some ((.ok ⟨code, before.length + 1, true⟩, s'), host) := by
  have listed := until_passes passes (message line :: after.map message) 0
  rw [until_stopped stops nonzero, ← List.map_cons, ← List.map_append, ← lines,
    Nat.zero_add] at listed
  rw [run_eq sentinel listed]
  rfl

theorem run_failed {before after : List Line} {t : σ} {text : String}
    (lines : env.readerLines = before ++ line :: after) (passes : Passes handler (.ok 0) before s t)
    (fails : handler line t = (.error text, s')) :
    run env handler s host = some ((.error (.fault ⟨.handler, text⟩), s'), host) := by
  have listed := until_passes passes (message line :: after.map message) 0
  rw [until_failed fails, ← List.map_cons, ← List.map_append, ← lines] at listed
  rw [run_eq sentinel listed]

end

/-! ## Handlers that may give up -/

theorem text_encode (text : String) : (⟨Utf8.encode text⟩ : Line).text = text :=
  Utf8.decodeLossy_encode text

section
variable {taking : String → StateM σ Taking} {texts : List String} {text : String}

theorem giveUp_taken (made : taking text s = (.taken, s')) (failure : Option String) :
    giveUp taking ⟨Utf8.encode text⟩ (s, failure) = (.ok 0, s', failure) := by
  simp only [giveUp, text_encode, made]

theorem giveUp_gaveUp {message : String} (made : taking text s = (.gaveUp message, s'))
    (failure : Option String) :
    giveUp taking ⟨Utf8.encode text⟩ (s, failure) = (.ok (-1), s', some message) := by
  simp only [giveUp, text_encode, made]

theorem giveUp_failed {cause : String} (made : taking text s = (.failed cause, s'))
    (failure : Option String) :
    giveUp taking ⟨Utf8.encode text⟩ (s, failure) = (.error cause, s', failure) := by
  simp only [giveUp, text_encode, made]

theorem giveUp_passes (passes : Passes taking .taken texts s s') (failure : Option String) :
    Passes (giveUp taking) (.ok 0) (texts.map fun text => ⟨Utf8.encode text⟩) (s, failure)
      (s', failure) := by
  induction passes with
  | nil s => exact .nil _
  | cons first _ ih => exact .cons (giveUp_taken first failure) ih

variable (sentinel : host.registry.settings.policy = .sentinel)
include sentinel

theorem runTaking_unstopped
    (passes : Passes taking .taken (env.readers.lines env.owner) s s') :
    runTaking env taking s host =
      some ((.ok (env.readers.lines env.owner).length, s'), host) := by
  have all : Passes (giveUp taking) (.ok 0) env.readerLines (s, none) (s', none) :=
    giveUp_passes passes none
  rw [runTaking, Session.bind_apply, run_unstopped sentinel all, Environment.readerLines,
    List.length_map]
  rfl

theorem runTaking_gaveUp {before after : List String} {t : σ} {message : String}
    (lines : env.readers.lines env.owner = before ++ text :: after)
    (passes : Passes taking .taken before s t) (gives_up : taking text t = (.gaveUp message, s')) :
    runTaking env taking s host = some ((.error (.handler message), s'), host) := by
  have ran := run_stopped sentinel (Environment.readerLines_cut lines) (giveUp_passes passes none)
    (giveUp_gaveUp gives_up none) (by decide)
  rw [runTaking, Session.bind_apply, ran]
  rfl

theorem runTaking_failed {before after : List String} {t : σ} {failure : String}
    (lines : env.readers.lines env.owner = before ++ text :: after)
    (passes : Passes taking .taken before s t) (fails : taking text t = (.failed failure, s')) :
    runTaking env taking s host =
      some ((.error (.call (.fault ⟨.handler, failure⟩)), s'), host) := by
  have ran := run_failed sentinel (Environment.readerLines_cut lines) (giveUp_passes passes none)
    (giveUp_failed fails none)
  rw [runTaking, Session.bind_apply, ran]
  rfl

end

/-! ## Collecting the lines -/

theorem keep_passes (lines : List Line) (kept : List String) :
    Passes keep (.ok 0) lines kept ((lines.map Line.trimmed).reverse ++ kept) := by
  induction lines generalizing kept with
  | nil => exact .nil kept
  | cons line lines ih =>
    refine .cons rfl ?_
    rw [List.map_cons, List.reverse_cons, List.append_assoc]
    exact ih (line.trimmed :: kept)

theorem collect_eq (sentinel : host.registry.settings.policy = .sentinel) :
    collect env host = some (.ok (env.readerLines.map Line.trimmed), host) := by
  have all := keep_passes env.readerLines []
  rw [collect, Session.bind_apply, run_unstopped sentinel all, List.append_nil]
  change some (Except.ok (env.readerLines.map Line.trimmed).reverse.reverse, host) = _
  rw [List.reverse_reverse]

/-- The text does not end with a line break. -/
def Clean (text : String) : Prop := ∀ c ∈ text.toList.getLast?, Line.isLineBreak c = false

/-- One line break is taken off again. -/
theorem trimmed_append {text : String} (clean : Clean text) :
    (⟨Utf8.encode (text ++ "\n")⟩ : Line).trimmed = text := by
  have last : ("\n" : String).toList = ['\n'] := rfl
  rw [Line.trimmed, text_encode, String.toList_append, last, List.reverse_append]
  have dropped : (['\n'].reverse ++ text.toList.reverse).dropWhile Line.isLineBreak =
      text.toList.reverse.dropWhile Line.isLineBreak := rfl
  rw [dropped]
  have kept : text.toList.reverse.dropWhile Line.isLineBreak = text.toList.reverse := by
    cases rest : text.toList.reverse with
    | nil => rfl
    | cons c cs =>
      have ends : text.toList.getLast? = some c := by rw [← List.head?_reverse, rest]; rfl
      rw [List.dropWhile_cons, clean c ends]
      rfl
  rw [kept, List.reverse_reverse, String.ofList_toList]

/-- A line of the table is a text that ends with a digit, and a line break. -/
theorem line_eq (owner : String) (reader : Reader) :
    ∃ text, Readers.line owner reader = text ++ "\n" ∧ Clean text := by
  obtain ⟨start, ends⟩ := Readers.line_ends owner reader
  refine ⟨start ++ (" " ++ toString reader.txnId), by simp only [ends, String.append_assoc], ?_⟩
  intro c last
  have digits : (start ++ (" " ++ toString reader.txnId)).toList =
      (start.toList ++ [' ']) ++ Nat.toDigits 10 reader.txnId := by
    simp [String.toList_append, Nat.toString_eq_repr, Nat.toList_repr]
  rw [digits, List.getLast?_append_of_ne_nil _ Nat.toDigits_ne_nil] at last
  have digit := Nat.isDigit_of_mem_toDigits (by decide) (by decide) (List.mem_of_getLast? last)
  cases broken : Line.isLineBreak c with
  | false => rfl
  | true =>
    simp only [Line.isLineBreak, Bool.or_eq_true, beq_iff_eq] at broken
    obtain rfl | rfl := broken <;> cases digit

/-! ## The protocol -/

/-- The listing comes to `result`, the handler hears the lines `heard` and no other, in this order,
and nothing of the host changes, a fault that waits included. -/
def Comes (env : Environment) (host : Host) (handler : Handler σ) (s : σ) (heard : List Line)
    (result : Except CallError Summary) (s' : σ) : Prop :=
  run env handler s host = some ((result, s'), host) ∧
    run env (logged handler) (s, []) host = some ((result, s', heard), host)

/-- The same for a handler that may give up. It hears texts. -/
def TakingComes (env : Environment) (host : Host) (taking : String → StateM σ Taking) (s : σ)
    (heard : List String) (result : Except Failure Nat) (s' : σ) : Prop :=
  runTaking env taking s host = some ((result, s'), host) ∧
    runTaking env (logged taking) (s, []) host = some ((result, s', heard), host)

/-- What a listing to `handler`, which is in the state `s`, comes to. -/
structure Handling (env : Environment) (host : Host) (handler : Handler σ) (s : σ) : Prop where
  unstopped : ∀ {s'}, Passes handler (.ok 0) env.readerLines s s' →
    Comes env host handler s env.readerLines (.ok ⟨0, env.readerLines.length, false⟩) s'
  stopped : ∀ {before line after t code s'}, env.readerLines = before ++ line :: after →
    Passes handler (.ok 0) before s t → handler line t = (.ok code, s') → code ≠ 0 →
    Comes env host handler s (before ++ [line]) (.ok ⟨code, before.length + 1, true⟩) s'
  failed : ∀ {before line after t text s'}, env.readerLines = before ++ line :: after →
    Passes handler (.ok 0) before s t → handler line t = (.error text, s') →
    Comes env host handler s (before ++ [line]) (.error (.fault ⟨.handler, text⟩)) s'
  /-- There are no other ways: the first line that does not pass stops the handler or fails it. -/
  total : (∃ s', Passes handler (.ok 0) env.readerLines s s') ∨
    ∃ before line after t, env.readerLines = before ++ line :: after ∧
      Passes handler (.ok 0) before s t ∧ (handler line t).1 ≠ .ok 0

/-- What a listing to a handler that may give up comes to. -/
structure Attempting (env : Environment) (host : Host) (taking : String → StateM σ Taking)
    (s : σ) : Prop where
  unstopped : ∀ {s'}, Passes taking .taken (env.readers.lines env.owner) s s' →
    TakingComes env host taking s (env.readers.lines env.owner)
      (.ok (env.readers.lines env.owner).length) s'
  gaveUp : ∀ {before text after t message s'},
    env.readers.lines env.owner = before ++ text :: after → Passes taking .taken before s t →
    taking text t = (.gaveUp message, s') →
    TakingComes env host taking s (before ++ [text]) (.error (.handler message)) s'
  failed : ∀ {before text after t failure s'},
    env.readers.lines env.owner = before ++ text :: after → Passes taking .taken before s t →
    taking text t = (.failed failure, s') →
    TakingComes env host taking s (before ++ [text])
      (.error (.call (.fault ⟨.handler, failure⟩))) s'
  total : (∃ s', Passes taking .taken (env.readers.lines env.owner) s s') ∨
    ∃ before text after t, env.readers.lines env.owner = before ++ text :: after ∧
      Passes taking .taken before s t ∧ (taking text t).1 ≠ .taken

theorem handling (sentinel : host.registry.settings.policy = .sentinel) (handler : Handler σ)
    (s : σ) : Handling env host handler s where
  unstopped passes :=
    ⟨run_unstopped sentinel passes, run_unstopped sentinel (passes.logged [])⟩
  stopped lines passes stops nonzero :=
    ⟨run_stopped sentinel lines passes stops nonzero,
      run_stopped sentinel lines (passes.logged []) (logged_apply stops _) nonzero⟩
  failed lines passes fails :=
    ⟨run_failed sentinel lines passes fails,
      run_failed sentinel lines (passes.logged []) (logged_apply fails _)⟩
  total := passes_or_first handler (.ok 0) env.readerLines s

theorem attempting (sentinel : host.registry.settings.policy = .sentinel)
    (taking : String → StateM σ Taking) (s : σ) : Attempting env host taking s where
  unstopped passes :=
    ⟨runTaking_unstopped sentinel passes, runTaking_unstopped sentinel (passes.logged [])⟩
  gaveUp lines passes gives_up :=
    ⟨runTaking_gaveUp sentinel lines passes gives_up,
      runTaking_gaveUp sentinel lines (passes.logged []) (logged_apply gives_up _)⟩
  failed lines passes fails :=
    ⟨runTaking_failed sentinel lines passes fails,
      runTaking_failed sentinel lines (passes.logged []) (logged_apply fails _)⟩
  total := passes_or_first taking .taken (env.readers.lines env.owner) s

/-- **The listing protocol.** Whatever the state of the environment, whatever the handler and its
state: it hears the lines of the reader table in order up to the first that it does not let pass, the
result tells how that came, and the host stays as it is. Collected lines lose their line break. -/
theorem listing_protocol (env : Environment) {host : Host}
    (sentinel : host.registry.settings.policy = .sentinel) :
    env.readerLines.map Line.text = env.readers.lines env.owner ∧
      (∀ {σ : Type} (handler : Handler σ) (s : σ), Handling env host handler s) ∧
      (∀ {σ : Type} (taking : String → StateM σ Taking) (s : σ), Attempting env host taking s) ∧
      ∃ texts, collect env host = some (.ok texts, host) ∧
        texts.map (· ++ "\n") = env.readers.lines env.owner ∧ ∀ text ∈ texts, Clean text := by
  refine ⟨?_, handling sentinel, attempting sentinel, _, collect_eq sentinel, ?_, ?_⟩
  · rw [Environment.readerLines, List.map_map]
    exact (List.map_congr_left fun text _ => text_encode text).trans (List.map_id _)
  · rw [Environment.readerLines, Readers.lines, List.map_map, List.map_map, List.map_map]
    refine List.map_congr_left fun reader _ => ?_
    obtain ⟨text, line, clean⟩ := line_eq env.owner reader
    simp only [Function.comp_apply, line, trimmed_append clean]
  · intro text there
    rw [Environment.readerLines, Readers.lines, List.map_map, List.map_map, List.mem_map] at there
    obtain ⟨reader, _, rfl⟩ := there
    obtain ⟨text, line, clean⟩ := line_eq env.owner reader
    simp only [Function.comp_apply, line, trimmed_append clean]
    exact clean

/-- Two readers, and handlers that end at the second line: a code of `-1` is told from a failure,
which leaves that code behind as well, and from giving up, which returns it. -/
theorem listing_protocol_with_two_readers :
    ∃ (env : Environment) (host : Host), host.registry.settings.policy = .sentinel ∧
      env.readerLines.length = 2 ∧
      run env (fun _ n => (.ok (if n = 1 then -1 else 0), n + 1)) 0 host =
        some ((.ok ⟨-1, 2, true⟩, 2), host) ∧
      run env (fun _ n => (if n = 1 then .error "lost" else .ok 0, n + 1)) 0 host =
        some ((.error (.fault ⟨.handler, "lost"⟩), 2), host) ∧
      runTaking env (fun _ n => (if n = 1 then .gaveUp "full" else .taken, n + 1)) 0 host =
        some ((.error (.handler "full"), 2), host) := by
  let one := ((Environment.new 1 "7" {}).txnBegin none Flags.readOnly).store
  let env := (one.txnBegin none Flags.readOnly 31).store
  let host := { Host.new { policy := .sentinel } with parked := some ⟨.collation, "waits"⟩ }
  have sentinel : host.registry.settings.policy = .sentinel := rfl
  have protocol := listing_protocol env sentinel
  have texts : env.readers.lines env.owner =
      [Readers.line "7" ⟨1, 0⟩] ++ Readers.line "7" ⟨31, 0⟩ :: [] := rfl
  have lines := Environment.readerLines_cut texts
  refine ⟨env, host, sentinel, rfl, ?_, ?_, ?_⟩
  · have handling := protocol.2.1 (fun _ n => (.ok (if n = 1 then -1 else 0), n + 1)) 0
    exact (handling.stopped lines (.cons rfl (.nil 1)) rfl (by decide)).1
  · have handling := protocol.2.1 (fun _ n => (if n = 1 then .error "lost" else .ok 0, n + 1)) 0
    exact (handling.failed lines (.cons rfl (.nil 1)) rfl).1
  · have attempting := protocol.2.2.1
      (fun _ n => (if n = 1 then .gaveUp "full" else .taken, n + 1)) 0
    exact (attempting.gaveUp texts (.cons rfl (.nil 1)) rfl).1

end Listing

end CollatedStore
