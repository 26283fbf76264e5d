import CollatedStore.Proofs.Environment.Alike
import CollatedStore.Proofs.Environment.Stale

/-!
Environments that differ in one cursor's mark. The mark shows in what a step forward to an item
comes to, and in no other call, and it is gone once the cursor was moved.
-/
namespace CollatedStore

/-! ## Cursors that differ in their marks -/

/-- The cursors differ at most in their marks. -/
def Cursor.Twin (c c' : Cursor) : Prop := ∃ deleted, c' = { c with deleted }

theorem Cursor.Twin.refl (c : Cursor) : c.Twin c := ⟨c.deleted, rfl⟩

theorem twin_refl (c : Option Cursor) : Option.Rel Cursor.Twin c c := by
  cases c with
  | none => exact .none
  | some c => exact .some (.refl c)

/-- Only a step forward to an item heeds the mark. -/
def CursorOp.heedsMark : CursorOp → Bool
  | .next | .nextNoDup => true
  | _ => false

theorem Cursor.Twin.move {c c' : Cursor} (twin : c.Twin c') {op : CursorOp}
    (blind : op.heedsMark = false) (layout : Layout) (entries : Contents) (key data : Bytes) :
    c'.move layout entries op key data = c.move layout entries op key data := by
  obtain ⟨deleted, rfl⟩ := twin
  cases op with
  | next | nextNoDup => cases blind
  | _ => rfl

/-- The same cursors are open, and differ at most in the mark of the one excepted. -/
structure TwinCursors (except : Option Handle) (cursors cursors' : Table Handle Cursor) : Prop where
  each : ∀ k, Option.Rel Cursor.Twin (cursors.get? k) (cursors'.get? k)
  others : ∀ k, except ≠ some k → cursors'.get? k = cursors.get? k

/-- What is still excepted once cursor `h` is set. -/
def settled (except : Option Handle) (h : Handle) : Option Handle :=
  if except = some h then none else except

theorem settled_of_ne {except : Option Handle} {h k : Handle} (excepted : except = some k)
    (other : k ≠ h) : settled except h = some k := by
  subst excepted
  simp [settled, other]

namespace TwinCursors

variable {except : Option Handle} {cursors cursors' : Table Handle Cursor}

theorem refl (except : Option Handle) (cursors : Table Handle Cursor) :
    TwinCursors except cursors cursors := ⟨fun _ => twin_refl _, fun _ _ => rfl⟩

/-- Where no cursor is excepted, one may be. -/
theorem mono {h : Handle} (twin : TwinCursors (settled except h) cursors cursors') :
    TwinCursors except cursors cursors' := by
  refine ⟨twin.each, fun k other => twin.others k ?_⟩
  unfold settled
  split
  · exact nofun
  · exact other

/-- A cursor that is not open has no mark to differ in. -/
theorem settle {h : Handle} (twin : TwinCursors except cursors cursors')
    (absent : cursors.get? h = none) : TwinCursors (settled except h) cursors cursors' := by
  refine ⟨twin.each, fun k other => ?_⟩
  by_cases own : k = h
  · subst own
    have both := twin.each k
    rw [absent] at both ⊢
    generalize cursors'.get? k = c' at both
    cases both
    rfl
  · exact twin.others k fun excepted => other (settled_of_ne excepted own)

/-- A mark that is no different need not be excepted. -/
theorem alone {h : Handle} (twin : TwinCursors (some h) cursors cursors')
    (same : cursors'.get? h = cursors.get? h) : TwinCursors none cursors cursors' := by
  refine ⟨twin.each, fun k _ => ?_⟩
  by_cases own : k = h
  · rw [own, same]
  · exact twin.others k fun excepted => own (Option.some.inj excepted).symm

theorem insert (twin : TwinCursors except cursors cursors') (h : Handle) (c : Cursor) :
    TwinCursors (settled except h) (cursors.insert h c) (cursors'.insert h c) := by
  constructor
  case each =>
    intro k
    by_cases own : k = h
    · subst own
      rw [Table.get?_insert_self, Table.get?_insert_self]
      exact twin_refl _
    · rw [Table.get?_insert_of_ne _ _ own, Table.get?_insert_of_ne _ _ own]
      exact twin.each k
  case others =>
    intro k other
    by_cases own : k = h
    · subst own
      simp
    · rw [Table.get?_insert_of_ne _ _ own, Table.get?_insert_of_ne _ _ own]
      exact twin.others k fun excepted => other (settled_of_ne excepted own)

theorem erase (twin : TwinCursors except cursors cursors') (h : Handle) :
    TwinCursors except (cursors.erase h) (cursors'.erase h) := by
  constructor
  case each =>
    intro k
    rw [Table.get?_erase, Table.get?_erase]
    split
    · exact .none
    · exact twin.each k
  case others =>
    intro k other
    rw [Table.get?_erase, Table.get?_erase, twin.others k other]

/-- The cursors of a transaction are the same ones on both sides. -/
theorem finish (twin : TwinCursors except cursors cursors') (txn : Handle) :
    TwinCursors except (cursors.filter fun _ c => c.txn != txn)
      (cursors'.filter fun _ c => c.txn != txn) := by
  constructor
  case each =>
    intro k
    rw [Table.get?_filter, Table.get?_filter]
    have both := twin.each k
    generalize cursors.get? k = c at both
    generalize cursors'.get? k = c' at both
    cases both with
    | none => exact .none
    | @some c _ marked =>
      obtain ⟨deleted, rfl⟩ := marked
      rw [Option.filter_some, Option.filter_some]
      dsimp only
      split
      · exact .some ⟨deleted, rfl⟩
      · exact .none
  case others =>
    intro k other
    rw [Table.get?_filter, Table.get?_filter, twin.others k other]

end TwinCursors

/-! ## Environments that differ in a mark -/

/-- The environments differ at most in the mark of the cursor excepted. -/
def Environment.Twin (except : Option Handle) (env env' : Environment) : Prop :=
  ∃ cursors, TwinCursors except env.cursors cursors ∧ env' = { env with cursors }

/-- The same is told and handed out, and the stores differ at most in a mark. -/
structure Reply.Twin (except : Option Handle) {ρ α : Type} (reply reply' : Reply ρ Environment α) :
    Prop where
  ended : reply'.ended = reply.ended
  out : reply'.out = reply.out
  store : reply.store.Twin except reply'.store

namespace Environment

variable {except : Option Handle} {env env' : Environment}

theorem Twin.refl (except : Option Handle) (env : Environment) : Twin except env env :=
  ⟨_, .refl except env.cursors, rfl⟩

theorem Twin.mono {h : Handle} (twin : Twin (settled except h) env env') :
    Twin except env env' := by
  obtain ⟨cursors, twins, rfl⟩ := twin
  exact ⟨cursors, twins.mono, rfl⟩

theorem Twin.alone {h : Handle} (twin : Twin (some h) env env')
    (same : env'.cursors.get? h = env.cursors.get? h) : Twin none env env' := by
  obtain ⟨cursors, twins, rfl⟩ := twin
  exact ⟨cursors, twins.alone same, rfl⟩

theorem Twin.setCursor (twin : Twin except env env') (h : Handle) (c : Cursor) :
    Twin (settled except h) (env.setCursor h c) (env'.setCursor h c) := by
  obtain ⟨cursors, twins, rfl⟩ := twin
  exact ⟨_, twins.insert h c, rfl⟩

theorem Twin.keep (twin : Twin except env env') (db : Opened) (holding : Holding) :
    Twin except (env.keep db holding) (env'.keep db holding) := by
  obtain ⟨cursors, twins, rfl⟩ := twin
  exact ⟨cursors, twins, rfl⟩

/-! ## Calls on transactions and databases -/

theorem twin_txnBegin (twin : Twin except env env') (parent : Option Handle) (flags : UInt32)
    (thread : Nat) :
    Reply.Twin except (env.txnBegin parent flags thread) (env'.txnBegin parent flags thread) := by
  obtain ⟨cursors, twins, rfl⟩ := twin
  unfold txnBegin
  dsimp only
  split
  · exact ⟨rfl, rfl, cursors, twins, rfl⟩
  · split
    · split
      · exact ⟨rfl, rfl, cursors, twins, rfl⟩
      · exact ⟨rfl, rfl, cursors, twins, rfl⟩
    · split
      · exact ⟨rfl, rfl, cursors, twins, rfl⟩
      · exact ⟨rfl, rfl, cursors, twins, rfl⟩

theorem twin_txnCommit (twin : Twin except env env') (txn : Handle) :
    Reply.Twin except (env.txnCommit txn) (env'.txnCommit txn) := by
  obtain ⟨cursors, twins, rfl⟩ := twin
  unfold txnCommit Environment.finish
  dsimp only
  cases env.txns.get? txn with
  | none => exact ⟨rfl, rfl, cursors, twins, rfl⟩
  | some t => cases t <;> exact ⟨rfl, rfl, _, twins.finish txn, rfl⟩

theorem twin_txnAbort (twin : Twin except env env') (txn : Handle) :
    (env.txnAbort txn).Twin except (env'.txnAbort txn) := by
  obtain ⟨cursors, twins, rfl⟩ := twin
  unfold txnAbort Environment.finish
  dsimp only
  cases env.txns.get? txn with
  | none => exact ⟨cursors, twins, rfl⟩
  | some t => exact ⟨_, twins.finish txn, rfl⟩

theorem twin_createDb (twin : Twin except env env') (txn : Handle) (snapshot : Snapshot)
    (name : Option String) (flags : DbFlags) :
    Reply.Twin except (env.createDb txn snapshot name flags)
      (env'.createDb txn snapshot name flags) := by
  obtain ⟨cursors, twins, rfl⟩ := twin
  unfold createDb
  dsimp only
  split
  · exact ⟨rfl, rfl, cursors, twins, rfl⟩
  · split
    · exact ⟨rfl, rfl, cursors, twins, rfl⟩
    · exact ⟨rfl, rfl, cursors, twins, rfl⟩

theorem twin_dbiOpen (twin : Twin except env env') (txn : Handle) (name : Option String)
    (flags : UInt32) :
    Reply.Twin except (env.dbiOpen txn name flags) (env'.dbiOpen txn name flags) := by
  have seen : env'.txns = env.txns ∧ env'.known? = env.known? := by
    obtain ⟨cursors, _, rfl⟩ := twin
    exact ⟨rfl, rfl⟩
  unfold dbiOpen
  rw [seen.1, seen.2]
  split
  · exact ⟨rfl, rfl, twin⟩
  · split
    · exact ⟨rfl, rfl, twin⟩
    · split
      · split
        · exact ⟨rfl, rfl, twin⟩
        · exact ⟨rfl, rfl, twin⟩
      · split
        · split
          · exact ⟨rfl, rfl, twin⟩
          · exact twin_createDb twin _ _ _ _
        · exact ⟨rfl, rfl, twin⟩

theorem twin_setOrder (twin : Twin except env env') (role : Role) (txn : Handle) (dbi : Dbi)
    (fn : Option CompareFn) :
    Reply.Twin except (env.setOrder role txn dbi fn) (env'.setOrder role txn dbi fn) := by
  obtain ⟨cursors, twins, rfl⟩ := twin
  unfold setOrder
  dsimp only
  split
  · exact ⟨rfl, rfl, cursors, twins, rfl⟩
  · exact ⟨rfl, rfl, cursors, twins, rfl⟩

theorem twin_cursorOpen (twin : Twin except env env') (txn : Handle) (dbi : Dbi) :
    Reply.Twin except (env.cursorOpen txn dbi) (env'.cursorOpen txn dbi) := by
  obtain ⟨cursors, twins, rfl⟩ := twin
  unfold cursorOpen
  rw [show ({ env with cursors } : Environment).readable txn dbi = env.readable txn dbi from rfl]
  cases env.readable txn dbi with
  | error s => exact ⟨rfl, rfl, cursors, twins, rfl⟩
  | ok found => exact ⟨rfl, rfl, _, (twins.insert _ _).mono, rfl⟩

theorem twin_cursorClose (twin : Twin except env env') (cursor : Handle) :
    (env.cursorClose cursor).Twin except (env'.cursorClose cursor) := by
  obtain ⟨cursors, twins, rfl⟩ := twin
  exact ⟨_, twins.erase cursor, rfl⟩

/-! ## Calls on data -/

/-- The same step ends in the same way on both sides. -/
theorem twin_after {α β γ : Type} {R : β → γ → Prop} (w : Work α) {f : Except Stop α → Inquiry β}
    {f' : Except Stop α → Inquiry γ}
    (replies : ∀ result, Inquiry.Alike Eq R (f result) (f' result)) :
    Inquiry.Alike Eq R (w.run >>= f) (w.run >>= f') := by
  refine (Inquiry.Alike.refl w.run).bind ?_
  rintro result _ rfl
  exact replies result

theorem twin_get (twin : Twin except env env') (txn : Handle) (dbi : Dbi)
    (key data : Option Descriptor) :
    Inquiry.Alike Eq (Reply.Twin except) (env.get txn dbi key data)
      (env'.get txn dbi key data) := by
  have admitted : env'.admitGet txn dbi key data = env.admitGet txn dbi key data := by
    obtain ⟨cursors, _, rfl⟩ := twin
    rfl
  unfold get
  rw [admitted]
  split
  · exact .done ⟨rfl, rfl, twin⟩
  · refine twin_after _ fun result => ?_
    cases result with
    | ok value => exact .done ⟨rfl, rfl, twin⟩
    | error stop => exact .done ⟨rfl, rfl, twin⟩

theorem Twin.config (twin : Twin except env env') : env'.config = env.config := by
  obtain ⟨cursors, _, rfl⟩ := twin
  rfl

theorem twin_put (twin : Twin except env env') (txn : Handle) (dbi : Dbi)
    (key data : Option Descriptor) (flags : UInt32) :
    Inquiry.Alike Eq (Reply.Twin except) (env.put txn dbi key data flags)
      (env'.put txn dbi key data flags) := by
  have admitted : env'.admitPut txn dbi key data flags = env.admitPut txn dbi key data flags := by
    obtain ⟨cursors, _, rfl⟩ := twin
    rfl
  unfold put
  rw [admitted, twin.config]
  split
  · exact .done ⟨rfl, rfl, twin⟩
  · refine twin_after _ fun result => ?_
    cases result with
    | ok done => exact .done ⟨rfl, rfl, twin.keep _ _⟩
    | error stop =>
      cases stop with
      | status s => exact .done ⟨rfl, rfl, twin⟩
      | existing p v => exact .done ⟨rfl, rfl, twin⟩
      | broken b => exact .done ⟨rfl, rfl, twin⟩

theorem twin_del (twin : Twin except env env') (txn : Handle) (dbi : Dbi)
    (key data : Option Descriptor) :
    Inquiry.Alike Eq (Reply.Twin except) (env.del txn dbi key data)
      (env'.del txn dbi key data) := by
  have admitted : env'.admitDel txn dbi key = env.admitDel txn dbi key := by
    obtain ⟨cursors, _, rfl⟩ := twin
    rfl
  unfold del
  rw [admitted]
  split
  · exact .done ⟨rfl, rfl, twin⟩
  · refine twin_after _ fun result => ?_
    cases result with
    | ok holding => exact .done ⟨rfl, rfl, twin.keep _ _⟩
    | error stop => exact .done ⟨rfl, rfl, twin⟩

/-! ## Calls through cursors -/

theorem twin_cursor (twin : Twin except env env') (h : Handle) :
    CollatedStore.Checked Cursor.Twin (env.cursor h) (env'.cursor h) := by
  obtain ⟨cursors, twins, rfl⟩ := twin
  have both := twins.each h
  unfold Environment.cursor
  dsimp only
  generalize env.cursors.get? h = c at both
  generalize cursors.get? h = c' at both
  cases both with
  | none => exact .refused _
  | some marked => exact .passed marked

theorem twin_admitCursorPut (twin : Twin except env env') (h : Handle)
    (key data : Option Descriptor) (flags : UInt32) :
    CollatedStore.Checked (fun x x' => ∃ c, x.2.2.1.Twin c ∧ x' = (x.1, x.2.1, c, x.2.2.2))
      (env.admitCursorPut h key data flags) (env'.admitCursorPut h key data flags) := by
  refine .after _ fun key => .after _ fun value => .after _ fun _ => .after _ fun _ => ?_
  apply (twin_cursor twin h).bind
  rintro c _ ⟨deleted, rfl⟩
  obtain ⟨cursors, _, rfl⟩ := twin
  exact .after (env.writable c.txn c.dbi) fun db => .passed ⟨_, ⟨deleted, rfl⟩, rfl⟩

theorem twin_cursorPut (twin : Twin except env env') (h : Handle) (key data : Option Descriptor)
    (flags : UInt32) :
    Inquiry.Alike Eq (Reply.Twin except) (env.cursorPut h key data flags)
      (env'.cursorPut h key data flags) := by
  have admitted := twin_admitCursorPut twin h key data flags
  unfold cursorPut
  rw [twin.config]
  generalize env.admitCursorPut h key data flags = x at admitted
  generalize env'.admitCursorPut h key data flags = x' at admitted
  cases admitted with
  | refused s => exact .done ⟨rfl, rfl, twin⟩
  | @passed x x' marked =>
    obtain ⟨key, value, c, db⟩ := x
    obtain ⟨_, ⟨deleted, rfl⟩, rfl⟩ := marked
    refine twin_after _ fun result => ?_
    cases result with
    | ok done => exact .done ⟨rfl, rfl, ((twin.keep db done.2).setCursor h _).mono⟩
    | error stop =>
      cases stop with
      | status s => exact .done ⟨rfl, rfl, (twin.setCursor h _).mono⟩
      | existing p v => exact .done ⟨rfl, rfl, (twin.setCursor h _).mono⟩
      | broken b => exact .done ⟨rfl, rfl, (twin.setCursor h _).mono⟩

theorem twin_cursorPutMany (twin : Twin except env env') (h : Handle) (key : Option Descriptor)
    (page : Bytes) (count stride : Nat) (flags : UInt32) :
    Inquiry.Alike Eq (Reply.Twin except) (env.cursorPutMany h key page count stride flags)
      (env'.cursorPutMany h key page count stride flags) := by
  have admitted := twin_admitCursorPut twin h key (some (.filled page)) flags
  unfold cursorPutMany
  rw [twin.config]
  generalize env.admitCursorPut h key _ flags = x at admitted
  generalize env'.admitCursorPut h key _ flags = x' at admitted
  cases admitted with
  | refused s => exact .done ⟨rfl, rfl, twin⟩
  | @passed x x' marked =>
    obtain ⟨key, _, c, db⟩ := x
    obtain ⟨_, ⟨deleted, rfl⟩, rfl⟩ := marked
    dsimp only
    split
    · exact .done ⟨rfl, rfl, (twin.setCursor h _).mono⟩
    · split
      · exact .done ⟨rfl, rfl, (twin.setCursor h _).mono⟩
      · refine (Inquiry.Alike.refl _).bind ?_
        rintro done _ rfl
        exact .done ⟨rfl, rfl, ((twin.keep db _).setCursor h _).mono⟩

theorem twin_admitCursorDel (twin : Twin except env env') (h : Handle) :
    CollatedStore.Checked (fun x x' => ∃ c, x.1.Twin c ∧ x' = (c, x.2))
      (env.admitCursorDel h) (env'.admitCursorDel h) := by
  apply (twin_cursor twin h).bind
  rintro c _ ⟨deleted, rfl⟩
  obtain ⟨cursors, _, rfl⟩ := twin
  refine .after (env.writable c.txn c.dbi) fun db => ?_
  rw [show ({ c with deleted } : Cursor).current db.entries = c.current db.entries from rfl]
  split
  · exact .passed ⟨_, ⟨deleted, rfl⟩, rfl⟩
  · exact .refused _

theorem twin_cursorDel (twin : Twin except env env') (h : Handle) (flags : UInt32) :
    Inquiry.Alike Eq (Reply.Twin except) (env.cursorDel h flags) (env'.cursorDel h flags) := by
  have admitted := twin_admitCursorDel twin h
  unfold cursorDel
  generalize env.admitCursorDel h = x at admitted
  generalize env'.admitCursorDel h = x' at admitted
  cases admitted with
  | refused s => exact .done ⟨rfl, rfl, twin⟩
  | @passed x x' marked =>
    obtain ⟨c, p, db⟩ := x
    obtain ⟨_, ⟨deleted, rfl⟩, rfl⟩ := marked
    refine twin_after _ fun result => ?_
    cases result with
    | ok done => exact .done ⟨rfl, rfl, ((twin.keep db done.2).setCursor h _).mono⟩
    | error stop => exact .done ⟨rfl, rfl, twin⟩

/-- A move is refused only where there is no cursor, and so no mark to differ in. -/
theorem twin_admitMove (reached : Reachable env) (twin : Twin except env env') (h : Handle) :
    (env.admitMove h = .error .invalid ∧ env'.admitMove h = .error .invalid ∧
      Twin (settled except h) env env') ∨
    ∃ c c' found, env.admitMove h = .ok (c, found) ∧ env'.admitMove h = .ok (c', found) ∧
      c.Twin c' ∧ (except ≠ some h → c' = c) := by
  obtain ⟨cursors, twins, rfl⟩ := twin
  have both := twins.each h
  have alone := twins.others h
  cases here : env.cursors.get? h with
  | none =>
    left
    have settles := twins.settle here
    rw [here] at both
    generalize there : cursors.get? h = c' at both
    cases both
    refine ⟨?_, ?_, cursors, settles, rfl⟩
    · simp [admitMove, Environment.cursor, here, bind, Except.bind]
    · simp [admitMove, Environment.cursor, there, bind, Except.bind]
  | some c =>
    right
    obtain ⟨entries, layout, readable⟩ := open_readable reached here
    rw [here] at both alone
    generalize there : cursors.get? h = c' at both alone
    cases both with
    | some marked =>
      refine ⟨c, _, (entries, layout), admitMove_eq_ok.mpr ⟨here, readable⟩, ?_, marked,
        fun other => Option.some.inj (alone other)⟩
      obtain ⟨deleted, rfl⟩ := marked
      exact admitMove_eq_ok.mpr ⟨there, readable⟩

/-- A move settles its cursor, and tells the same unless it heeds the mark that is excepted. -/
theorem twin_cursorGet (reached : Reachable env) (twin : Twin except env env') (h : Handle)
    (key data : Option Descriptor) (op : UInt32)
    (blind : except = some h → (CursorOp.ofCode? op).any CursorOp.heedsMark = false) :
    Inquiry.Alike Eq (Reply.Twin (settled except h)) (env.cursorGet h key data op)
      (env'.cursorGet h key data op) := by
  have settles := fun c => twin.setCursor h c
  unfold cursorGet
  obtain ⟨denied, denied', twin⟩ | ⟨c, c', ⟨entries, layout⟩, admitted, admitted', marked, alone⟩ :=
    twin_admitMove reached twin h
  · rw [denied, denied']
    exact .done ⟨rfl, rfl, twin⟩
  · rw [admitted, admitted']
    dsimp only
    have moves : ∀ move, CursorOp.ofCode? op = some move →
        c'.move layout entries move (Descriptor.bytesOf key) (Descriptor.bytesOf data) =
          c.move layout entries move (Descriptor.bytesOf key) (Descriptor.bytesOf data) := by
      intro move named
      by_cases excepted : except = some h
      · have unheeded := blind excepted
        rw [named] at unheeded
        exact marked.move unheeded layout entries _ _
      · rw [alone excepted]
    obtain ⟨deleted, rfl⟩ := marked
    cases named : CursorOp.ofCode? op with
    | none => exact .done ⟨rfl, rfl, settles _⟩
    | some move =>
      dsimp only
      rw [moves move named]
      refine twin_after _ fun result => ?_
      cases result with
      | error stop => exact .done ⟨rfl, rfl, settles _⟩
      | ok done =>
        refine twin_after _ fun out => ?_
        cases out with
        | error stop => exact .done ⟨rfl, rfl, settles _⟩
        | ok out => exact .done ⟨rfl, rfl, settles _⟩

/-! ## Every call -/

theorem twin_handing {α : Type} (f : α → Handed) {x x' : Inquiry (Reply Outcome Environment α)}
    (h : Inquiry.Alike Eq (Reply.Twin except) x x') :
    Inquiry.Alike Eq (Reply.Twin except) (Reply.handing f <$> x) (Reply.handing f <$> x') := by
  rw [map_eq_pure_bind, map_eq_pure_bind]
  exact h.bind fun reply reply' r => .done ⟨r.ended, congrArg f r.out, r.store⟩

theorem twin_handed {α : Type} (f : α → Handed) {reply reply' : Reply Status Environment α}
    (h : Reply.Twin except reply reply') :
    Inquiry.Alike Eq (Reply.Twin except) (reply.handed f) (reply'.handed f) :=
  .done ⟨congrArg Except.ok h.ended, congrArg f h.out, h.store⟩

end Environment

/-- Does the call move the cursor? -/
def Call.moves (h : Handle) : Call → Bool
  | .cursorGet cursor _ _ _ => decide (cursor = h)
  | _ => false

/-- Would a mark on the cursor show in what the call comes to? -/
def Call.heedsMark (h : Handle) : Call → Bool
  | .cursorGet cursor _ _ op =>
      decide (cursor = h) && (CursorOp.ofCode? op).any CursorOp.heedsMark
  | _ => false

/-- The mark of the cursor does not show: the first move through it, if there is one, takes no
notice. -/
def Unheeded (h : Handle) (calls : List Call) : Prop :=
  ∀ call, calls.find? (Call.moves h) = some call → call.heedsMark h = false

theorem Unheeded.head {h : Handle} {call : Call} {rest : List Call}
    (unheeded : Unheeded h (call :: rest)) : call.heedsMark h = false := by
  by_cases moves : call.moves h = true
  · exact unheeded call (by simp [moves])
  · cases call with
    | cursorGet cursor key data op =>
      have other : cursor ≠ h := by simpa [Call.moves] using moves
      simp [Call.heedsMark, other]
    | _ => rfl

theorem Unheeded.rest {h : Handle} {call : Call} {rest : List Call}
    (unheeded : Unheeded h (call :: rest)) (moves : call.moves h = false) : Unheeded h rest := by
  intro later found
  exact unheeded later (by simpa [moves] using found)

/-- What is still excepted after a call. -/
def Call.settles (except : Option Handle) : Call → Option Handle
  | .cursorGet cursor _ _ _ => settled except cursor
  | _ => except

/-- A cursor that was moved is excepted no longer. -/
theorem settles_eq_some {except : Option Handle} {call : Call} {h : Handle}
    (still : call.settles except = some h) : except = some h ∧ call.moves h = false := by
  cases call with
  | cursorGet cursor key data op =>
    by_cases excepted : except = some cursor
    · simp [Call.settles, settled, excepted] at still
    · simp only [Call.settles, settled, if_neg excepted] at still
      refine ⟨still, ?_⟩
      rw [still] at excepted
      simpa [Call.moves, eq_comm] using excepted
  | _ => exact ⟨still, rfl⟩

namespace Environment

variable {except : Option Handle} {env env' : Environment}

/-- The same call tells the same, and leaves no more of a difference than there was. -/
theorem respond_twin (reached : Reachable env) (twin : Twin except env env') {call : Call}
    (blind : ∀ h, except = some h → call.heedsMark h = false) :
    Inquiry.Alike Eq (Reply.Twin (call.settles except)) (env.respond call) (env'.respond call) := by
  cases call with
  | txnBegin parent flags thread => exact twin_handed _ (twin_txnBegin twin parent flags thread)
  | txnCommit txn => exact twin_handed (fun _ => .nothing) (twin_txnCommit twin txn)
  | txnAbort txn => exact .done ⟨rfl, rfl, twin_txnAbort twin txn⟩
  | dbiOpen txn name flags => exact twin_handed _ (twin_dbiOpen twin txn name flags)
  | setOrder role txn dbi fn =>
    exact twin_handed (fun _ => .nothing) (twin_setOrder twin role txn dbi fn)
  | get txn dbi key data => exact twin_handing _ (twin_get twin txn dbi key data)
  | put txn dbi key data flags => exact twin_handing _ (twin_put twin txn dbi key data flags)
  | del txn dbi key data => exact twin_handing _ (twin_del twin txn dbi key data)
  | cursorOpen txn dbi => exact twin_handed _ (twin_cursorOpen twin txn dbi)
  | cursorClose cursor => exact .done ⟨rfl, rfl, twin_cursorClose twin cursor⟩
  | cursorGet cursor key data op =>
    refine twin_handing _ (twin_cursorGet reached twin cursor key data op fun excepted => ?_)
    simpa [Call.heedsMark] using blind cursor excepted
  | cursorPut cursor key data flags =>
    exact twin_handing _ (twin_cursorPut twin cursor key data flags)
  | cursorPutMany cursor key page count stride flags =>
    exact twin_handing _ (twin_cursorPutMany twin cursor key page count stride flags)
  | cursorDel cursor flags => exact twin_handing _ (twin_cursorDel twin cursor flags)

/-- What each of the calls in turn comes to and hands out. -/
def results (env : Environment) : List Call → Inquiry (List (Outcome × Handed))
  | [] => .done []
  | call :: rest => do
    let reply ← env.respond call
    return (reply.ended, reply.out) :: (← reply.store.results rest)

theorem Reachable.responded (reached : Reachable env) {call : Call}
    {reply : Reply Outcome Environment Handed} (made : (env.respond call).Yields reply) :
    Reachable reply.store := by
  refine reached.next call ⟨reply.ended, ?_⟩
  rw [perform_eq_respond, Inquiry.yields_map]
  exact ⟨reply, made, rfl⟩

/-- **A mark that is not heeded does not show**, in whatever is called from then on. -/
theorem results_twin (reached : Reachable env) (twin : Twin except env env') {calls : List Call}
    (unheeded : ∀ h, except = some h → Unheeded h calls) :
    Inquiry.Alike Eq Eq (env.results calls) (env'.results calls) := by
  induction calls generalizing except env env' with
  | nil => exact .done rfl
  | cons call rest ih =>
    have told := respond_twin reached twin fun h excepted => (unheeded h excepted).head
    refine told.bind_yields fun reply reply' same made => ?_
    have later : Inquiry.Alike Eq Eq (reply.store.results rest) (reply'.store.results rest) := by
      apply ih (reached.responded made) same.store
      intro h still
      obtain ⟨excepted, moves⟩ := settles_eq_some still
      exact (unheeded h excepted).rest moves
    refine later.bind ?_
    rintro told _ rfl
    rw [same.ended, same.out]
    exact .done rfl

end Environment

end CollatedStore
