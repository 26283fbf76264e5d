import CollatedStore.Proofs.Environment.Handles

/-!
Handles of what is over. Whatever is called on them is turned away before it asks or changes
anything, and no cursor outlives its transaction.
-/
namespace CollatedStore

/-- The handle that a call is given. -/
def Call.handle : Call → Option Handle
  | .txnBegin parent _ _ => parent
  | .txnCommit txn | .txnAbort txn | .dbiOpen txn _ _ | .setOrder _ txn _ _ | .get txn _ _ _
  | .put txn _ _ _ _ | .del txn _ _ _ | .cursorOpen txn _ => some txn
  | .cursorClose cursor | .cursorGet cursor _ _ _ | .cursorPut cursor _ _ _
  | .cursorPutMany cursor _ _ _ _ _ | .cursorDel cursor _ => some cursor

/-- The key that a call looks at before it looks for its handle. -/
def Call.key : Call → Option Descriptor
  | .get _ _ key _ | .put _ _ key _ _ | .del _ _ key _ | .cursorPut _ key _ _
  | .cursorPutMany _ key _ _ _ _ => key
  | _ => none

/-- That key could be stored, if there is one. -/
def Call.Keyed (call : Call) : Prop := ∀ d, call.key = some d → validKey d.bytes = true

/-- Does the call only let go of something? It has no status to tell. -/
def Call.releases : Call → Bool
  | .txnAbort _ | .cursorClose _ => true
  | _ => false

namespace Environment

/-! ## Refusals -/

/-- Every status that the arguments are refused with satisfies `P`. -/
def Fails {α : Type} (P : Status → Prop) (x : Except Status α) : Prop := ∀ s, x = .error s → P s

section
variable {env : Environment} {P : Status → Prop} {txn h : Handle} {dbi : Dbi}
  {key data : Option Descriptor} {flags : UInt32}

theorem Fails.bind {α β : Type} {x : Except Status α} {f : α → Except Status β} (first : Fails P x)
    (later : ∀ a, x = .ok a → Fails P (f a)) : Fails P (x >>= f) := by
  intro s failed
  cases x with
  | error t =>
    cases failed
    exact first s rfl
  | ok a => exact later a rfl s failed

theorem fails_ok {α : Type} (a : α) : Fails P (.ok a) := nofun

theorem fails_error {α : Type} {s : Status} (h : P s) : Fails P (.error s : Except Status α) := by
  intro t same
  cases same
  exact h

theorem fails_of_eq {α : Type} {x : Except Status α} {s : Status} (denied : x = .error s)
    (h : P s) : Fails P x := by
  rw [denied]
  exact fails_error h

theorem fails_present (invalid : P .invalid) (d : Option Descriptor) : Fails P (present d) := by
  cases d with
  | none => exact fails_error invalid
  | some d => exact fails_ok d.bytes

theorem fails_checkFlags {mask : UInt32} (invalid : P .invalid) :
    Fails P (checkFlags flags mask) := by
  unfold checkFlags
  split
  · exact fails_ok ()
  · exact fails_error invalid

theorem fails_checkKey {k : Bytes} (size : validKey k = false → P .badValSize) :
    Fails P (checkKey k) := by
  unfold checkKey
  split
  · exact fails_ok ()
  · rename_i short
    exact fails_error (size (by simpa using short))

theorem fails_cursor (invalid : P .invalid) : Fails P (env.cursor h) := by
  unfold Environment.cursor
  split
  · exact fails_ok _
  · exact fails_error invalid

theorem admitGet_fails (invalid : P .invalid)
    (size : ∀ k, present key = .ok k → validKey k = false → P .badValSize)
    (rest : Fails P (env.readable txn dbi)) : Fails P (env.admitGet txn dbi key data) := by
  apply (fails_present invalid key).bind
  intro k given
  apply (fails_present invalid data).bind
  intro _ _
  apply (fails_checkKey (size k given)).bind
  intro _ _
  exact rest.bind fun found _ => fails_ok _

theorem admitPut_fails (invalid : P .invalid)
    (size : ∀ k, present key = .ok k → validKey k = false → P .badValSize)
    (rest : Fails P (env.writable txn dbi)) : Fails P (env.admitPut txn dbi key data flags) := by
  apply (fails_present invalid key).bind
  intro k given
  apply (fails_present invalid data).bind
  intro v _
  apply (fails_checkFlags invalid).bind
  intro _ _
  apply (fails_checkKey (size k given)).bind
  intro _ _
  exact rest.bind fun db _ => fails_ok _

theorem admitDel_fails (invalid : P .invalid)
    (size : ∀ k, present key = .ok k → validKey k = false → P .badValSize)
    (rest : Fails P (env.writable txn dbi)) : Fails P (env.admitDel txn dbi key) := by
  apply (fails_present invalid key).bind
  intro k given
  apply (fails_checkKey (size k given)).bind
  intro _ _
  exact rest.bind fun db _ => fails_ok _

theorem admitMove_fails (invalid : P .invalid)
    (rest : ∀ c, env.cursors.get? h = some c → Fails P (env.readable c.txn c.dbi)) :
    Fails P (env.admitMove h) := by
  apply (fails_cursor invalid).bind
  intro c here
  exact (rest c (cursor_eq_ok.mp here)).bind fun found _ => fails_ok _

theorem admitCursorPut_fails (invalid : P .invalid)
    (size : ∀ k, present key = .ok k → validKey k = false → P .badValSize)
    (rest : ∀ c, env.cursors.get? h = some c → Fails P (env.writable c.txn c.dbi)) :
    Fails P (env.admitCursorPut h key data flags) := by
  apply (fails_present invalid key).bind
  intro k given
  apply (fails_present invalid data).bind
  intro v _
  apply (fails_checkFlags invalid).bind
  intro _ _
  apply (fails_checkKey (size k given)).bind
  intro _ _
  apply (fails_cursor invalid).bind
  intro c here
  exact (rest c (cursor_eq_ok.mp here)).bind fun db _ => fails_ok _

theorem admitCursorDel_fails (invalid : P .invalid)
    (rest : ∀ c, env.cursors.get? h = some c → Fails P (env.writable c.txn c.dbi)) :
    Fails P (env.admitCursorDel h) := by
  apply (fails_cursor invalid).bind
  intro c here
  apply (rest c (cursor_eq_ok.mp here)).bind
  intro db _
  split
  · exact fails_ok _
  · exact fails_error invalid

end

/-! ## Handles that stand for nothing -/

/-- The call asks nothing and changes nothing. It is refused, because of its handle unless its key
could not be stored either. -/
inductive TurnedAway (env : Environment) (call : Call) : Prop
  | ignored (releases : call.releases = true) (made : env.perform call = .done (.ok .success, env))
  | refused {s : Status} (made : env.perform call = .done (.ok s, env)) (failed : s ≠ .success)
      (handle : call.Keyed → s = .invalid)

section
variable {env : Environment} {g : Handle} {call : Call}

/-- The status is one for a handle that stands for nothing. -/
structure Excuse (call : Call) (s : Status) : Prop where
  failed : s ≠ .success
  handle : call.Keyed → s = .invalid

theorem excuse_invalid (call : Call) : Excuse call .invalid := ⟨by decide, fun _ => rfl⟩

/-- A key that could not be stored is told of first. -/
theorem excuse_badValSize {k : Bytes} (given : present call.key = .ok k)
    (short : validKey k = false) : Excuse call .badValSize := by
  refine ⟨by decide, fun keyed => ?_⟩
  cases key : call.key with
  | none =>
    rw [key] at given
    cases given
  | some d =>
    rw [key] at given
    cases given
    rw [keyed d key] at short
    cases short

theorem turnedAway_invalid (made : env.perform call = .done (.ok .invalid, env)) :
    TurnedAway env call :=
  .refused made (by decide) fun _ => rfl

/-- Arguments that are refused, and never taken for good, turn the call away. -/
theorem turnedAway_of_fails {α : Type} {x : Except Status α} (fails : Fails (Excuse call) x)
    (never : ∀ a, x ≠ .ok a) (made : ∀ s, x = .error s → env.perform call = .done (.ok s, env)) :
    TurnedAway env call := by
  cases denied : x with
  | error s =>
    have excuse := fails s denied
    exact .refused (made s denied) excuse.failed excuse.handle
  | ok a => exact absurd denied (never a)

theorem readable_gone {dbi : Dbi} (gone : env.txns.get? g = none) :
    env.readable g dbi = .error .invalid := by
  simp [readable, gone]

theorem writable_gone {dbi : Dbi} (gone : env.txns.get? g = none) :
    env.writable g dbi = .error .invalid := by
  simp [writable, gone]

theorem erase_absent {c : Table Handle Cursor} (absent : c.get? g = none) : c.erase g = c := by
  obtain ⟨pairs, distinct⟩ := c
  simp only [Table.erase, Table.filter, Table.mk.injEq]
  exact Table.filter_ne_of_absent absent

/-- One case for each call. -/
theorem Spent.turns_away (spent : env.Spent g) (given : call.handle = some g) :
    TurnedAway env call := by
  have gone : env.txns.get? g = none := by
    cases live : env.txns.get? g with
    | none => rfl
    | some t =>
      cases t with
      | reader s slot => exact absurd (.reader live) (spent.empty _)
      | writer s => exact absurd (.writer live) (spent.empty _)
  have closed : env.cursors.get? g = none := by
    cases here : env.cursors.get? g with
    | none => rfl
    | some c => exact absurd (.cursor here) (spent.empty _)
  have not_open : env.cursor g = .error .invalid := by simp [Environment.cursor, closed]
  have none_open : ∀ {α : Type} {x : Cursor → Except Status α} (c : Cursor),
      env.cursors.get? g = some c → Fails (Excuse call) (x c) := by
    intro α x c here
    rw [closed] at here
    cases here
  have invalid := excuse_invalid call
  have size : ∀ k, present call.key = .ok k → validKey k = false → Excuse call .badValSize :=
    fun k => excuse_badValSize
  cases call with
  | txnBegin parent flags thread =>
    cases given
    exact turnedAway_invalid rfl
  | txnCommit txn =>
    cases given
    apply turnedAway_invalid
    simp [perform, txnCommit, finish, gone, Reply.settled]
  | txnAbort txn =>
    cases given
    apply TurnedAway.ignored rfl
    simp [perform, txnAbort, finish, gone]
  | dbiOpen txn name flags =>
    cases given
    apply turnedAway_invalid
    simp only [perform, dbiOpen, gone]
    cases DbFlags.ofFlags? flags <;> rfl
  | setOrder role txn dbi fn =>
    cases given
    apply turnedAway_invalid
    simp [perform, setOrder, Table.contains, gone, Reply.settled]
  | get txn dbi key data =>
    cases given
    have fails : Fails (Excuse (.get g dbi key data)) (env.admitGet g dbi key data) :=
      admitGet_fails invalid size (fails_of_eq (readable_gone gone) invalid)
    apply turnedAway_of_fails fails
    · rintro ⟨k, entries, layout⟩ admitted
      have readable := (admitGet_eq_ok.mp admitted).2.2.2
      rw [readable_gone gone] at readable
      cases readable
    · intro s denied
      simp only [perform, Environment.get, denied]
      rfl
  | put txn dbi key data flags =>
    cases given
    have fails : Fails (Excuse (.put g dbi key data flags)) (env.admitPut g dbi key data flags) :=
      admitPut_fails invalid size (fails_of_eq (writable_gone gone) invalid)
    apply turnedAway_of_fails fails
    · rintro ⟨k, v, db⟩ admitted
      have writable := (admitPut_eq_ok.mp admitted).2.2.2.2
      rw [writable_gone gone] at writable
      cases writable
    · intro s denied
      simp only [perform, Environment.put, denied]
      rfl
  | del txn dbi key data =>
    cases given
    have fails : Fails (Excuse (.del g dbi key data)) (env.admitDel g dbi key) :=
      admitDel_fails invalid size (fails_of_eq (writable_gone gone) invalid)
    apply turnedAway_of_fails fails
    · rintro ⟨k, db⟩ admitted
      have writable := (admitDel_eq_ok.mp admitted).2.2
      rw [writable_gone gone] at writable
      cases writable
    · intro s denied
      simp only [perform, Environment.del, denied]
      rfl
  | cursorOpen txn dbi =>
    cases given
    apply turnedAway_invalid
    simp only [perform, cursorOpen, readable_gone gone]
    rfl
  | cursorClose cursor =>
    cases given
    apply TurnedAway.ignored rfl
    simp only [perform, cursorClose, erase_absent closed]
  | cursorGet cursor key data op =>
    cases given
    apply turnedAway_invalid
    simp only [perform, Environment.cursorGet, admitMove, not_open]
    rfl
  | cursorPut cursor key data flags =>
    cases given
    have fails : Fails (Excuse (.cursorPut g key data flags))
        (env.admitCursorPut g key data flags) :=
      admitCursorPut_fails invalid size none_open
    apply turnedAway_of_fails fails
    · rintro ⟨k, v, c, db⟩ admitted
      have here := (admitCursorPut_eq_ok.mp admitted).2.2.2.2.1
      rw [closed] at here
      cases here
    · intro s denied
      simp only [perform, Environment.cursorPut, denied]
      rfl
  | cursorPutMany cursor key page count stride flags =>
    cases given
    have fails : Fails (Excuse (.cursorPutMany g key page count stride flags))
        (env.admitCursorPut g key (some (.filled page)) flags) :=
      admitCursorPut_fails invalid size none_open
    apply turnedAway_of_fails fails
    · rintro ⟨k, v, c, db⟩ admitted
      have here := (admitCursorPut_eq_ok.mp admitted).2.2.2.2.1
      rw [closed] at here
      cases here
    · intro s denied
      simp only [perform, Environment.cursorPutMany, denied]
      rfl
  | cursorDel cursor flags =>
    cases given
    apply turnedAway_invalid
    simp only [perform, Environment.cursorDel, admitCursorDel, not_open]
    rfl

end

/-! ## Open cursors -/

section
variable {env env' : Environment} {h : Handle} {c : Cursor}

/-- What an open cursor belongs to is there. -/
theorem open_readable (reached : Reachable env) (here : env.cursors.get? h = some c) :
    ∃ entries layout, env.readable c.txn c.dbi = .ok (entries, layout) := by
  obtain ⟨t, entries, live, has⟩ := (reachable_handled reached).rooted here
  have held : env.Has c.dbi := ⟨t.snapshot, entries, .inr ⟨c.txn, t, live, rfl⟩, has⟩
  obtain ⟨record, listed⟩ :=
    (reachable_catalogued reached).dated.listed (reachable_balanced reached) held
  exact ⟨entries, record.layout, readable_eq_ok.mpr ⟨t, record, live, listed, has, rfl⟩⟩

theorem open_readable_fails (reached : Reachable env) (here : env.cursors.get? h = some c) :
    Fails (· ≠ .badDbi) (env.readable c.txn c.dbi) := by
  obtain ⟨entries, layout, readable⟩ := open_readable reached here
  rw [readable]
  exact fails_ok _

theorem open_writable_fails (reached : Reachable env) (here : env.cursors.get? h = some c) :
    Fails (· ≠ .badDbi) (env.writable c.txn c.dbi) := by
  obtain ⟨entries, layout, readable⟩ := open_readable reached here
  obtain ⟨t, record, live, listed, has, _⟩ := readable_eq_ok.mp readable
  cases t with
  | reader s slot =>
    have denied : env.writable c.txn c.dbi = .error .accessDenied := by
      simp [writable, live, listed]
    rw [denied]
    exact fails_error (by decide)
  | writer s =>
    have writable := writable_eq_ok.mpr ⟨s, record, entries, live, listed, has, rfl⟩
    rw [writable]
    exact fails_ok _

section
variable {key data : Option Descriptor} {flags op : UInt32}

theorem cursorGet_ne_badDbi (reached : Reachable env)
    {reply : Reply Outcome Environment (Option Descriptor × Option Descriptor)}
    (made : (env.cursorGet h key data op).Yields reply) : reply.ended ≠ .ok .badDbi := by
  cases cursorGet_ended (Inquiry.yields_iff.mp made) with
  | refused denied =>
    have fails : Fails (· ≠ .badDbi) (env.admitMove h) :=
      admitMove_fails (by decide) fun c here => open_readable_fails reached here
    exact fun told => fails _ denied (Except.ok.inj told)
  | unknown => exact fun told => absurd (Except.ok.inj told) (by decide)
  | stuck admitted _ moved =>
    have balanced := reachable_balanced reached
    exact ((move_checked balanced admitted).stop moved.yields).outcome_ne_badDbi
  | unread _ _ _ read =>
    obtain ⟨b, broken⟩ := unrefused_handOut _ _ _ _ _ read.yields
    rw [broken]
    exact nofun
  | yielded => exact fun told => absurd (Except.ok.inj told) (by decide)

theorem admitCursorPut_ne_badDbi (reached : Reachable env) {s : Status}
    (denied : env.admitCursorPut h key data flags = .error s) : s ≠ .badDbi := by
  have fails : Fails (· ≠ .badDbi) (env.admitCursorPut h key data flags) :=
    admitCursorPut_fails (by decide) (fun _ _ _ => by decide) fun c here =>
      open_writable_fails reached here
  exact fails s denied

theorem cursorPut_ne_badDbi (reached : Reachable env)
    {reply : Reply Outcome Environment (Option Descriptor)}
    (made : (env.cursorPut h key data flags).Yields reply) : reply.ended ≠ .ok .badDbi := by
  unfold cursorPut at made
  split at made
  · rename_i s denied
    cases made
    exact fun told => admitCursorPut_ne_badDbi reached denied (Except.ok.inj told)
  · rename_i k v c db admitted
    have writable := writable_self (admitCursorPut_eq_ok.mp admitted).2.2.2.2.2
    have ok := writable_accounted (reachable_balanced reached) writable
    obtain ⟨result, stored, ends⟩ := Inquiry.yields_bind.mp made
    have checked : Work.Ensures False (writePair c db env.config.mapSize flags k v) _ :=
      ensures_writePair ok False.elim
    split at ends
    · cases ends
      exact fun told => absurd (Except.ok.inj told) (by decide)
    · cases ends
      exact (checked.stop stored).outcome_ne_badDbi
    · cases ends
      exact (checked.stop stored).outcome_ne_badDbi

theorem putRecords_ne_badDbi {layout : Layout} {limit rest : Nat} {rule : PutRule} {k : Bytes}
    (valid : validKey k = true) {records : List Bytes} {progress progress' : Progress}
    {outcome : Outcome} (ok : Holding.Accounted layout limit rest progress.holding)
    (put : (putRecords layout limit rule k records progress).Yields (outcome, progress')) :
    outcome ≠ .ok .badDbi := by
  induction records generalizing progress with
  | nil =>
    cases put
    exact fun told => absurd (Except.ok.inj told) (by decide)
  | cons record more ih =>
    obtain ⟨result, stored, put⟩ := Inquiry.yields_bind.mp put
    cases result with
    | ok placed =>
      have change := (Holding.put_placed valid (Inquiry.yields_iff.mp stored)).change
      exact ih (change.edits.accounted ok) put
    | error stop =>
      cases put
      exact ((Holding.ensures_put ok False.elim).stop stored).outcome_ne_badDbi

theorem cursorPutMany_ne_badDbi (reached : Reachable env) {page : Bytes} {count stride : Nat}
    {reply : Reply Outcome Environment Nat}
    (made : (env.cursorPutMany h key page count stride flags).Yields reply) :
    reply.ended ≠ .ok .badDbi := by
  unfold cursorPutMany at made
  split at made
  · rename_i s denied
    cases made
    exact fun told => admitCursorPut_ne_badDbi reached denied (Except.ok.inj told)
  · rename_i k v c db admitted
    obtain ⟨_, _, _, valid, _, writable⟩ := admitCursorPut_eq_ok.mp admitted
    have ok := writable_accounted (reachable_balanced reached) (writable_self writable)
    dsimp only at made
    split at made
    · cases made
      exact fun told => absurd (Except.ok.inj told) (by decide)
    · split at made
      · cases made
        exact fun told => absurd (Except.ok.inj told) (by decide)
      · obtain ⟨⟨outcome, progress⟩, put, ends⟩ := Inquiry.yields_bind.mp made
        cases ends
        exact putRecords_ne_badDbi valid ok put

theorem cursorDel_ne_badDbi (reached : Reachable env) {reply : Reply Outcome Environment Unit}
    (made : (env.cursorDel h flags).Yields reply) : reply.ended ≠ .ok .badDbi := by
  unfold cursorDel at made
  split at made
  · rename_i s denied
    cases made
    have fails : Fails (· ≠ .badDbi) (env.admitCursorDel h) :=
      admitCursorDel_fails (by decide) fun c here => open_writable_fails reached here
    exact fun told => fails _ denied (Except.ok.inj told)
  · rename_i c p db admitted
    obtain ⟨_, writable, stands⟩ := admitCursorDel_eq_ok.mp admitted
    have ok := writable_accounted (reachable_balanced reached) (writable_self writable)
    obtain ⟨_, holds⟩ := Option.filter_eq_some_iff.mp stands
    obtain ⟨result, removed, ends⟩ := Inquiry.yields_bind.mp made
    cases result with
    | ok left =>
      cases ends
      exact fun told => absurd (Except.ok.inj told) (by decide)
    | error stop =>
      cases ends
      have ensured : ∀ all, Work.Ensures False (db.holding.removeAt p all) fun _ => True :=
        fun all => Holding.ensures_removeAt ok holds
      exact ((ensured _).stop removed).outcome_ne_badDbi

end

/-- No call on a cursor finds its database missing. -/
theorem cursor_call_ne_badDbi (reached : Reachable env) {call : Call}
    (through : call.cursor = some h) {outcome : Outcome}
    (made : (env.perform call).Yields (outcome, env')) : outcome ≠ .ok .badDbi := by
  have reply : ∀ {α : Type} {x : Inquiry (Reply Outcome Environment α)},
      (∀ {r}, x.Yields r → r.ended ≠ .ok .badDbi) →
      (Reply.ending <$> x).Yields (outcome, env') → outcome ≠ .ok .badDbi := by
    intro α x none made
    obtain ⟨r, found, ends⟩ := Inquiry.yields_map.mp made
    cases ends
    exact none found
  cases call with
  | cursorGet => exact reply (cursorGet_ne_badDbi reached) made
  | cursorPut => exact reply (cursorPut_ne_badDbi reached) made
  | cursorPutMany => exact reply (cursorPutMany_ne_badDbi reached) made
  | cursorDel => exact reply (cursorDel_ne_badDbi reached) made
  | _ => cases through

end

/-! ## What is over -/

/-- The handle was handed out for a cursor in this transaction, which may be closed again. -/
def OpenedIn (env : Environment) (txn g : Handle) : Prop :=
  ∃ env₀ dbi n, Reachable env₀ ∧ (env₀.cursorOpen txn dbi).ended = .success ∧
    (env₀.cursorOpen txn dbi).out = g ∧ Run (env₀.cursorOpen txn dbi).store n env

section
variable {env env' : Environment} {txn g : Handle}

theorem Denotes.open {dbi : Dbi} (denotes : env.Denotes g (.cursor txn dbi)) :
    ∃ c, env.cursors.get? g = some c ∧ c.txn = txn := by
  cases denotes with
  | cursor here => exact ⟨_, here, rfl⟩

/-- Once a transaction is gone, so are the cursors that were opened in it. -/
theorem OpenedIn.spent (opened : env.OpenedIn txn g) (gone : env.txns.get? txn = none) :
    env.Spent g := by
  obtain ⟨env₀, dbi, n, reached, succeeded, out, run⟩ := opened
  obtain ⟨s, failed, refused⟩ | ⟨found, _, made⟩ := cursorOpen_cases env₀ txn dbi
  · rw [refused] at succeeded
    exact absurd succeeded failed
  · have opened : Reachable (env₀.cursorOpen txn dbi).store :=
      reached.next (.cursorOpen txn dbi) ⟨_, .done _⟩
    rw [made] at out run opened
    dsimp only at out run opened
    subst out
    obtain ⟨later, stood⟩ := run_denotes run
    refine ⟨later, fun o denotes => ?_⟩
    -- All that the handle can stand for is a cursor of a transaction that is gone.
    have own : o = .cursor txn dbi := (reachable_handled opened).denotes_one
      (stood (Nat.le_refl _) denotes)
      (@Denotes.cursor _ _ (.new txn dbi) (Table.get?_insert_self _ _ _))
    subst own
    obtain ⟨c, here, home⟩ := denotes.open
    obtain ⟨t, entries, live, _⟩ := (reachable_handled (opened.run run)).rooted here
    rw [home, gone] at live
    cases live

/-- Committed or aborted, a transaction is gone. -/
theorem gone_of_end {call : Call} (ends : call = .txnCommit txn ∨ call = .txnAbort txn)
    (step : Step call env env') : env'.txns.get? txn = none := by
  obtain ⟨outcome, made⟩ := step
  obtain rfl | rfl := ends
  · cases made
    unfold txnCommit finish
    cases was : env.txns.get? txn with
    | none => exact was
    | some t => cases t <;> exact Table.get?_erase_self _ _
  · cases made
    unfold txnAbort finish
    cases was : env.txns.get? txn with
    | none => exact was
    | some t => exact Table.get?_erase_self _ _

theorem spent_of_end {call : Call} (reached : Reachable env) (live : env.isLive txn)
    (ends : call = .txnCommit txn ∨ call = .txnAbort txn) (step : Step call env env') :
    env'.Spent txn := by
  obtain ⟨t, was⟩ := Option.isSome_iff_exists.mp live
  have handled := reachable_handled reached
  have traffic := effect_traffic (step_effect step)
  have gone := gone_of_end ends step
  constructor
  · exact Nat.le_trans (handled.txns was) traffic.last_le
  · intro o denotes
    cases denotes with
    | reader live | writer live =>
      rw [gone] at live
      cases live
    | cursor here =>
      obtain ⟨c, stood, _⟩ := traffic.cursor (handled.txns was) here
      rw [handled.apart was] at stood
      cases stood

end

/-- What every state of an environment promises of its handles. -/
structure HandleDiscipline (env : Environment) : Prop where
  /-- The handles handed out from here on increase, and are beyond all that were before. -/
  issues : ∀ {handles env'}, Issues env handles env' →
    (∀ h ∈ handles, env.lastHandle < h) ∧ handles.Pairwise (· < ·)
  /-- All that stands for something was handed out, and stands for nothing else, now or later. -/
  denotes : ∀ {h o}, env.Denotes h o → h ≤ env.lastHandle ∧ (∀ {o'}, env.Denotes h o' → o' = o) ∧
    ∀ {n env' o'}, Run env n env' → env'.Denotes h o' → o' = o
  /-- Nor does a handle come to stand for something again. -/
  spent : ∀ {h n env'}, env.Spent h → Run env n env' → env'.Spent h
  /-- An open cursor belongs to a live transaction, and to a database in its snapshot. -/
  rooted : ∀ {k c}, env.cursors.get? k = some c → ∃ t entries,
    env.txns.get? c.txn = some t ∧ t.snapshot.dbs.get? c.dbi = some entries
  present : ∀ {k call outcome env'}, Call.cursor call = some k →
    (env.perform call).Yields (outcome, env') → outcome ≠ .ok .badDbi
  /-- From when a transaction is committed or aborted, calls on it or on a cursor that was opened in
  it are turned away. -/
  stale : ∀ {txn g : Handle} {ending call : Call} {e env' : Environment} {n : Nat},
    env.isLive txn → ending = .txnCommit txn ∨ ending = .txnAbort txn → Step ending env e →
    g = txn ∨ env.OpenedIn txn g → Run e n env' → call.handle = some g → TurnedAway env' call

/-- **A handle is for one object, and dies with its transaction**, whatever calls led here. -/
theorem handles_die_with_their_transaction {env : Environment} (reached : Reachable env) :
    HandleDiscipline env := by
  have handled := reachable_handled reached
  constructor
  case issues =>
    intro handles env' issues
    obtain ⟨between, increasing, _⟩ := issues.increase
    exact ⟨fun h there => (between h there).1, increasing⟩
  case denotes =>
    intro h o denotes
    have old := handled.denotes_le denotes
    refine ⟨old, fun denotes' => handled.denotes_one denotes' denotes, fun run denotes' => ?_⟩
    exact handled.denotes_one ((run_denotes run).2 old denotes') denotes
  case spent => exact fun spent run => spent.run run
  case rooted => exact handled.rooted
  case present => exact fun through made => cursor_call_ne_badDbi reached through made
  case stale =>
    intro txn g ending call e env' n live ends step own run given
    have spent : e.Spent g := by
      obtain rfl | opened := own
      · exact spent_of_end reached live ends step
      · obtain ⟨env₀, dbi, m, before, succeeded, out, run₀⟩ := opened
        have opened : e.OpenedIn txn g :=
          ⟨env₀, dbi, _, before, succeeded, out, run₀.next ending step⟩
        exact opened.spent (gone_of_end ends step)
    exact (spent.run run).turns_away given

/-- A cursor that was left open when its transaction was committed is refused, and so is the
transaction itself, also after another one has begun. -/
theorem handles_die_with_their_transaction_on_commit :
    ∃ env e env', Reachable env ∧ env.Denotes 2 (.cursor 1 rootDbi) ∧
      Step (.txnCommit 1) env e ∧ Run e 0 env' ∧ env'.Denotes 3 .writer ∧
      TurnedAway env' (.cursorGet 2 none none CursorOp.first.code) ∧
      TurnedAway env' (.put 1 rootDbi (some (.filled [1])) (some (.filled [2])) 0) := by
  have start : Reachable (Environment.new 1 "" {}) := ⟨1, "", {}, 0, .start⟩
  have begun := start.next (.txnBegin none 0) ⟨_, .done _⟩
  have cursor := begun.next (.cursorOpen 1 rootDbi) ⟨_, .done _⟩
  obtain ⟨env, e, env', reached, denotes, live, opened, commit, run, writer⟩ :
      ∃ env e env', Reachable env ∧ env.Denotes 2 (.cursor 1 rootDbi) ∧ env.isLive 1 ∧
        env.OpenedIn 1 2 ∧ Step (.txnCommit 1) env e ∧ Run e 0 env' ∧ env'.Denotes 3 .writer :=
    ⟨_, _, _, cursor, @Denotes.cursor _ _ (.new 1 rootDbi) rfl, rfl,
      ⟨_, rootDbi, 0, begun, rfl, rfl, .start⟩, ⟨_, .done _⟩,
      .next (.txnBegin none 0) .start ⟨_, .done _⟩, .writer rfl⟩
  have discipline := handles_die_with_their_transaction reached
  refine ⟨env, e, env', reached, denotes, commit, run, writer, ?_, ?_⟩
  · exact discipline.stale live (.inl rfl) commit (.inr opened) run rfl
  · exact discipline.stale live (.inl rfl) commit (.inl rfl) run rfl

end Environment

end CollatedStore
