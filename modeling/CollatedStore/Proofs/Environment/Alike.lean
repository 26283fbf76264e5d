import CollatedStore.Proofs.Alike
import CollatedStore.Proofs.Environment.Calls
import Mathlib.Data.List.Forall2

/-!
Environments that differ in nothing but the functions their databases compare with. The same call
asks the same of both, is told the same, and leaves two such environments behind.
-/
namespace CollatedStore

/-- What a call hands out besides its status. -/
inductive Handed where
  | nothing
  | handle (h : Handle)
  | dbi (dbi : Dbi)
  | data (data : Option Descriptor)
  | pair (key data : Option Descriptor)
  | count (n : Nat)

/-- The same reply, with what it hands out as one kind of thing. -/
def Reply.handing {ε α : Type} (f : α → Handed) (reply : Reply Outcome ε α) :
    Reply Outcome ε Handed :=
  ⟨reply.ended, f reply.out, reply.store⟩

/-- The same for a call that never breaks off. -/
def Reply.handed {ε α : Type} (f : α → Handed) (reply : Reply Status ε α) :
    Inquiry (Reply Outcome ε Handed) :=
  .done ⟨.ok reply.ended, f reply.out, reply.store⟩

namespace Environment

/-- Makes one call, and keeps all that it hands out. -/
def respond (env : Environment) : Call → Inquiry (Reply Outcome Environment Handed)
  | .txnBegin parent flags thread => (env.txnBegin parent flags thread).handed .handle
  | .txnCommit txn => (env.txnCommit txn).handed fun _ => .nothing
  | .txnAbort txn => .done ⟨.ok .success, .nothing, env.txnAbort txn⟩
  | .dbiOpen txn name flags => (env.dbiOpen txn name flags).handed .dbi
  | .setOrder role txn dbi fn => (env.setOrder role txn dbi fn).handed fun _ => .nothing
  | .get txn dbi key data => Reply.handing .data <$> env.get txn dbi key data
  | .put txn dbi key data flags => Reply.handing .data <$> env.put txn dbi key data flags
  | .del txn dbi key data => Reply.handing (fun _ => .nothing) <$> env.del txn dbi key data
  | .cursorOpen txn dbi => (env.cursorOpen txn dbi).handed .handle
  | .cursorClose cursor => .done ⟨.ok .success, .nothing, env.cursorClose cursor⟩
  | .cursorGet cursor key data op =>
      Reply.handing (fun out => .pair out.1 out.2) <$> env.cursorGet cursor key data op
  | .cursorPut cursor key data flags =>
      Reply.handing .data <$> env.cursorPut cursor key data flags
  | .cursorPutMany cursor key page count stride flags =>
      Reply.handing .count <$> env.cursorPutMany cursor key page count stride flags
  | .cursorDel cursor flags =>
      Reply.handing (fun _ => .nothing) <$> env.cursorDel cursor flags

/-- What is handed out aside, this is the call. -/
theorem perform_eq_respond (env : Environment) (call : Call) :
    env.perform call = Reply.ending <$> env.respond call := by
  cases call with
  | txnBegin | txnCommit | txnAbort | dbiOpen | setOrder | cursorOpen | cursorClose => rfl
  | get | put | del | cursorGet | cursorPut | cursorPutMany | cursorDel =>
    rw [respond, perform, Functor.map_map]
    rfl

end Environment

variable {same : CompareFn → CompareFn → Prop}

/-! ## Alike catalogs -/

def DbRecord.Alike (same : CompareFn → CompareFn → Prop) (r r' : DbRecord) : Prop :=
  r'.name = r.name ∧ r.layout.Alike same r'.layout

def Catalog.Alike (same : CompareFn → CompareFn → Prop) (c c' : Catalog) : Prop :=
  List.Forall₂ (DbRecord.Alike same) c c'

namespace Catalog.Alike

variable {catalog catalog' : Catalog}

theorem get? (alike : Catalog.Alike same catalog catalog') (dbi : Dbi) :
    Option.Rel (DbRecord.Alike same) (catalog.get? dbi) (catalog'.get? dbi) := by
  cases dbi with
  | zero => exact .none
  | succ n =>
    change Option.Rel (DbRecord.Alike same) (catalog[n]?) (catalog'[n]?)
    induction alike generalizing n with
    | nil => exact .none
    | cons record _ ih =>
      cases n with
      | zero => exact .some record
      | succ n => exact ih n

theorem find? (alike : Catalog.Alike same catalog catalog') (name : Option String) :
    catalog'.find? name = catalog.find? name := by
  have place : List.findIdx? (fun r : DbRecord => r.name == name) catalog' =
      List.findIdx? (fun r : DbRecord => r.name == name) catalog := by
    induction alike with
    | nil => rfl
    | cons record _ ih => simp only [List.findIdx?_cons, record.1, ih]
  rw [Catalog.find?, place, Catalog.find?]

theorem modify (alike : Catalog.Alike same catalog catalog') (dbi : Dbi)
    {change change' : DbRecord → DbRecord}
    (changed : ∀ r r', r.Alike same r' → (change r).Alike same (change' r')) :
    Catalog.Alike same (catalog.modify dbi change) (catalog'.modify dbi change') := by
  unfold Catalog.modify
  generalize dbi - 1 = n
  induction alike generalizing n with
  | nil =>
    rw [List.modify_nil, List.modify_nil]
    exact .nil
  | cons record rest ih =>
    cases n with
    | zero => exact .cons (changed _ _ record) rest
    | succ n => exact .cons record (ih n)

end Catalog.Alike

/-! ## Alike environments -/

/-- The environments differ at most in the functions of their databases. -/
def Environment.Alike (same : CompareFn → CompareFn → Prop) (env env' : Environment) : Prop :=
  ∃ catalog, Catalog.Alike same env.catalog catalog ∧ env' = { env with catalog }

/-- The same is told and handed out, and the stores are alike. -/
structure Reply.Alike (same : CompareFn → CompareFn → Prop) {ρ α : Type}
    (reply reply' : Reply ρ Environment α) : Prop where
  ended : reply'.ended = reply.ended
  out : reply'.out = reply.out
  store : reply.store.Alike same reply'.store

/-- The calls differ at most in a function that is given to a database. -/
inductive Call.Alike (same : CompareFn → CompareFn → Prop) : Call → Call → Prop
  | setOrder (role : Role) (txn : Handle) (dbi : Dbi) {fn fn' : Option CompareFn}
      (fns : Option.Rel same fn fn') :
      Alike same (.setOrder role txn dbi fn) (.setOrder role txn dbi fn')
  | other {call : Call} (h : ∀ role txn dbi fn, call ≠ .setOrder role txn dbi fn) :
      Alike same call call

/-- Two checks refuse with the same status, or let pass what is related. -/
inductive Checked {α β : Type} (R : α → β → Prop) : Except Status α → Except Status β → Prop
  | refused (s : Status) : Checked R (.error s) (.error s)
  | passed {a : α} {b : β} (h : R a b) : Checked R (.ok a) (.ok b)

namespace Checked

variable {α β : Type}

theorem refl (x : Except Status α) : Checked Eq x x := by
  cases x with
  | error s => exact .refused s
  | ok a => exact .passed rfl

theorem bind {γ δ : Type} {R : α → β → Prop} {T : γ → δ → Prop} {x : Except Status α}
    {x' : Except Status β} {f : α → Except Status γ} {f' : β → Except Status δ}
    (first : Checked R x x') (later : ∀ a b, R a b → Checked T (f a) (f' b)) :
    Checked T (x >>= f) (x' >>= f') := by
  cases first with
  | refused s => exact .refused s
  | passed h => exact later _ _ h

/-- After a check of the same on both sides. -/
theorem after {γ δ : Type} {T : γ → δ → Prop} (x : Except Status α) {f : α → Except Status γ}
    {f' : α → Except Status δ} (later : ∀ a, Checked T (f a) (f' a)) :
    Checked T (x >>= f) (x >>= f') :=
  (refl x).bind fun a _ h => h ▸ later a

end Checked

namespace Environment

/-- Two databases that writers found differ at most in their functions. -/
def Opened.Alike (same : CompareFn → CompareFn → Prop) (db db' : Opened) : Prop :=
  ∃ layout, db.layout.Alike same layout ∧ db' = { db with layout }

variable {env env' : Environment} {txn cursor : Handle} {dbi : Dbi} {key data : Option Descriptor}

/-! ## Calls on transactions and databases -/

theorem alike_txnBegin (alike : env.Alike same env') (parent : Option Handle) (flags : UInt32)
    (thread : Nat) :
    Reply.Alike same (env.txnBegin parent flags thread) (env'.txnBegin parent flags thread) := by
  obtain ⟨c, related, rfl⟩ := alike
  unfold txnBegin
  split
  · exact ⟨rfl, rfl, c, related, rfl⟩
  · split
    · dsimp only
      split
      · exact ⟨rfl, rfl, c, related, rfl⟩
      · exact ⟨rfl, rfl, c, related, rfl⟩
    · dsimp only
      split
      · exact ⟨rfl, rfl, c, related, rfl⟩
      · exact ⟨rfl, rfl, c, related, rfl⟩

theorem alike_txnCommit (alike : env.Alike same env') (txn : Handle) :
    Reply.Alike same (env.txnCommit txn) (env'.txnCommit txn) := by
  obtain ⟨c, related, rfl⟩ := alike
  unfold txnCommit finish
  dsimp only
  cases env.txns.get? txn with
  | none => exact ⟨rfl, rfl, c, related, rfl⟩
  | some t => cases t <;> exact ⟨rfl, rfl, c, related, rfl⟩

theorem alike_txnAbort (alike : env.Alike same env') (txn : Handle) :
    (env.txnAbort txn).Alike same (env'.txnAbort txn) := by
  obtain ⟨c, related, rfl⟩ := alike
  unfold txnAbort finish
  dsimp only
  cases env.txns.get? txn with
  | none => exact ⟨c, related, rfl⟩
  | some t => exact ⟨c, related, rfl⟩

theorem alike_known? (alike : env.Alike same env') (snapshot : Snapshot) (name : Option String) :
    Option.Rel (fun x x' => x'.1 = x.1 ∧ x.2.Alike same x'.2) (env.known? snapshot name)
      (env'.known? snapshot name) := by
  obtain ⟨c, related, rfl⟩ := alike
  unfold known?
  simp only [related.find?]
  cases env.catalog.find? name with
  | none => exact .none
  | some dbi =>
    simp only [Option.bind_eq_bind, Option.bind_some]
    split
    · have record := related.get? dbi
      generalize env.catalog.get? dbi = r at record
      generalize c.get? dbi = r' at record
      cases record with
      | none => exact .none
      | some record => exact .some ⟨rfl, record⟩
    · exact .none

theorem alike_createDb (alike : env.Alike same env') (txn : Handle) (snapshot : Snapshot)
    (name : Option String) (flags : DbFlags) :
    Reply.Alike same (env.createDb txn snapshot name flags)
      (env'.createDb txn snapshot name flags) := by
  obtain ⟨c, related, rfl⟩ := alike
  have flagged : ∀ r r' : DbRecord, r.Alike same r' →
      ({ r with layout := { r.layout with flags } } : DbRecord).Alike same
        { r' with layout := { r'.layout with flags } } :=
    fun r r' h => ⟨h.1, h.2.keyOrder, h.2.valueOrder, rfl⟩
  unfold createDb
  simp only [related.find?, ← related.length_eq]
  split
  · exact ⟨rfl, rfl, _, related.modify _ flagged, rfl⟩
  · split
    · exact ⟨rfl, rfl, c, related, rfl⟩
    · have added : Catalog.Alike same (env.catalog ++ [⟨name, ⟨none, none, flags⟩⟩])
          (c ++ [⟨name, ⟨none, none, flags⟩⟩]) :=
        List.rel_append related (.cons ⟨rfl, .none, .none, rfl⟩ .nil)
      exact ⟨rfl, rfl, _, added.modify _ flagged, rfl⟩

theorem alike_dbiOpen (alike : env.Alike same env') (txn : Handle) (name : Option String)
    (flags : UInt32) :
    Reply.Alike same (env.dbiOpen txn name flags) (env'.dbiOpen txn name flags) := by
  have txns : env'.txns = env.txns := by
    obtain ⟨c, _, rfl⟩ := alike
    rfl
  unfold dbiOpen
  rw [txns]
  split
  · exact ⟨rfl, rfl, alike⟩
  · split
    · exact ⟨rfl, rfl, alike⟩
    · rename_i wanted _ t _
      have known := alike_known? alike t.snapshot name
      generalize env.known? t.snapshot name = found at known
      generalize env'.known? t.snapshot name = found' at known
      cases known with
      | @some x x' record =>
        obtain ⟨dbi, r⟩ := x
        obtain ⟨dbi', r'⟩ := x'
        obtain ⟨same_dbi, _, layouts⟩ := record
        cases same_dbi
        have flags : r'.layout.flags = r.layout.flags := layouts.flags
        dsimp only
        rw [flags]
        split
        · exact ⟨rfl, rfl, alike⟩
        · exact ⟨rfl, rfl, alike⟩
      | none =>
        dsimp only
        split
        · split
          · exact ⟨rfl, rfl, alike⟩
          · exact alike_createDb alike _ _ _ _
        · exact ⟨rfl, rfl, alike⟩

theorem alike_setOrder (alike : env.Alike same env') (role : Role) (txn : Handle) (dbi : Dbi)
    {fn fn' : Option CompareFn} (fns : Option.Rel same fn fn') :
    Reply.Alike same (env.setOrder role txn dbi fn) (env'.setOrder role txn dbi fn') := by
  obtain ⟨c, related, rfl⟩ := alike
  have listed : (c.get? dbi).isSome = (env.catalog.get? dbi).isSome := by
    have record := related.get? dbi
    generalize env.catalog.get? dbi = r at record
    generalize c.get? dbi = r' at record
    cases record <;> rfl
  unfold setOrder
  simp only [listed]
  split
  · refine ⟨rfl, rfl, _, related.modify _ fun r r' h => ?_, rfl⟩
    cases role with
    | keys => exact ⟨h.1, fns, h.2.valueOrder, h.2.flags⟩
    | values => exact ⟨h.1, h.2.keyOrder, fns, h.2.flags⟩
  · exact ⟨rfl, rfl, c, related, rfl⟩

/-! ## Admission -/

theorem alike_readable (alike : env.Alike same env') (txn : Handle) (dbi : Dbi) :
    Checked (fun x x' => ∃ layout, x.2.Alike same layout ∧ x' = (x.1, layout))
      (env.readable txn dbi) (env'.readable txn dbi) := by
  obtain ⟨c, related, rfl⟩ := alike
  have record := related.get? dbi
  unfold readable
  dsimp only
  generalize env.catalog.get? dbi = r at record
  generalize c.get? dbi = r' at record
  cases env.txns.get? txn with
  | none => exact .refused _
  | some t =>
    cases record with
    | none => exact .refused _
    | some record =>
      dsimp only
      cases t.snapshot.dbs.get? dbi with
      | none => exact .refused _
      | some entries => exact .passed ⟨_, record.2, rfl⟩

theorem alike_writable (alike : env.Alike same env') (txn : Handle) (dbi : Dbi) :
    Checked (Opened.Alike same) (env.writable txn dbi) (env'.writable txn dbi) := by
  obtain ⟨c, related, rfl⟩ := alike
  have record := related.get? dbi
  unfold writable
  dsimp only
  generalize env.catalog.get? dbi = r at record
  generalize c.get? dbi = r' at record
  cases env.txns.get? txn with
  | none => exact .refused _
  | some t =>
    cases record with
    | none => cases t <;> exact .refused _
    | some record =>
      cases t with
      | reader snapshot slot => exact .refused _
      | writer snapshot =>
        dsimp only
        cases snapshot.dbs.get? dbi with
        | none => exact .refused _
        | some entries => exact .passed ⟨_, record.2, rfl⟩

theorem alike_cursor (alike : env.Alike same env') (h : Handle) : env'.cursor h = env.cursor h := by
  obtain ⟨c, _, rfl⟩ := alike
  rfl

theorem alike_admitGet (alike : env.Alike same env') (txn : Handle) (dbi : Dbi)
    (key data : Option Descriptor) :
    Checked (fun x x' => ∃ layout, x.2.2.Alike same layout ∧ x' = (x.1, x.2.1, layout))
      (env.admitGet txn dbi key data) (env'.admitGet txn dbi key data) := by
  refine .after _ fun key => .after _ fun _ => .after _ fun _ => ?_
  refine (alike_readable alike txn dbi).bind ?_
  rintro found _ ⟨layout, layouts, rfl⟩
  exact .passed ⟨layout, layouts, rfl⟩

theorem alike_admitPut (alike : env.Alike same env') (txn : Handle) (dbi : Dbi)
    (key data : Option Descriptor) (flags : UInt32) :
    Checked (fun x x' => ∃ db, x.2.2.Alike same db ∧ x' = (x.1, x.2.1, db))
      (env.admitPut txn dbi key data flags) (env'.admitPut txn dbi key data flags) := by
  refine .after _ fun key => .after _ fun value => .after _ fun _ => .after _ fun _ => ?_
  exact (alike_writable alike txn dbi).bind fun db db' opened => .passed ⟨db', opened, rfl⟩

theorem alike_admitDel (alike : env.Alike same env') (txn : Handle) (dbi : Dbi)
    (key : Option Descriptor) :
    Checked (fun x x' => ∃ db, x.2.Alike same db ∧ x' = (x.1, db))
      (env.admitDel txn dbi key) (env'.admitDel txn dbi key) := by
  refine .after _ fun key => .after _ fun _ => ?_
  exact (alike_writable alike txn dbi).bind fun db db' opened => .passed ⟨db', opened, rfl⟩

theorem alike_admitMove (alike : env.Alike same env') (cursor : Handle) :
    Checked (fun x x' => ∃ layout, x.2.2.Alike same layout ∧ x' = (x.1, x.2.1, layout))
      (env.admitMove cursor) (env'.admitMove cursor) := by
  unfold admitMove
  rw [alike_cursor alike]
  refine .after _ fun c => (alike_readable alike c.txn c.dbi).bind ?_
  rintro found _ ⟨layout, layouts, rfl⟩
  exact .passed ⟨layout, layouts, rfl⟩

theorem alike_admitCursorPut (alike : env.Alike same env') (cursor : Handle)
    (key data : Option Descriptor) (flags : UInt32) :
    Checked (fun x x' => ∃ db, x.2.2.2.Alike same db ∧ x' = (x.1, x.2.1, x.2.2.1, db))
      (env.admitCursorPut cursor key data flags)
      (env'.admitCursorPut cursor key data flags) := by
  unfold admitCursorPut
  rw [alike_cursor alike]
  refine .after _ fun key => .after _ fun value => .after _ fun _ => .after _ fun _ => ?_
  refine .after _ fun c => ?_
  exact (alike_writable alike c.txn c.dbi).bind fun db db' opened => .passed ⟨db', opened, rfl⟩

theorem alike_admitCursorDel (alike : env.Alike same env') (cursor : Handle) :
    Checked (fun x x' => ∃ db, x.2.2.Alike same db ∧ x' = (x.1, x.2.1, db))
      (env.admitCursorDel cursor) (env'.admitCursorDel cursor) := by
  unfold admitCursorDel
  rw [alike_cursor alike]
  refine .after _ fun c => ?_
  refine (alike_writable alike c.txn c.dbi).bind fun db db' h => ?_
  obtain ⟨layout, layouts, rfl⟩ := h
  dsimp only
  cases c.current db.entries with
  | none => exact .refused _
  | some p => exact .passed ⟨_, ⟨layout, layouts, rfl⟩, rfl⟩

/-! ## Calls that compare -/

theorem Alike.setCursor (alike : env.Alike same env') (h : Handle) (c : Cursor) :
    (env.setCursor h c).Alike same (env'.setCursor h c) := by
  obtain ⟨catalog, related, rfl⟩ := alike
  exact ⟨catalog, related, rfl⟩

theorem Alike.keep (alike : env.Alike same env') {db db' : Opened} (opened : db.Alike same db')
    (h : Holding) : (env.keep db h).Alike same (env'.keep db' h) := by
  obtain ⟨catalog, related, rfl⟩ := alike
  obtain ⟨layout, _, rfl⟩ := opened
  exact ⟨catalog, related, rfl⟩

theorem Alike.config (alike : env.Alike same env') : env'.config = env.config := by
  obtain ⟨catalog, _, rfl⟩ := alike
  rfl

/-- Alike steps end in the same way, so that what follows need only be alike after each end. -/
theorem alike_after {α β γ : Type} {R : β → γ → Prop} {w w' : Work α}
    (works : Work.Alike same w w') {f : Except Stop α → Inquiry β} {f' : Except Stop α → Inquiry γ}
    (replies : ∀ result, Inquiry.Alike same R (f result) (f' result)) :
    Inquiry.Alike same R (w.run >>= f) (w'.run >>= f') :=
  Inquiry.Alike.bind works fun result _ h => h ▸ replies result

theorem alike_get (alike : env.Alike same env') (txn : Handle) (dbi : Dbi)
    (key data : Option Descriptor) :
    Inquiry.Alike same (Reply.Alike same) (env.get txn dbi key data)
      (env'.get txn dbi key data) := by
  have admitted := alike_admitGet alike txn dbi key data
  unfold get
  generalize env.admitGet txn dbi key data = x at admitted
  generalize env'.admitGet txn dbi key data = x' at admitted
  cases admitted with
  | refused s => exact .done ⟨rfl, rfl, alike⟩
  | @passed x x' h =>
    obtain ⟨key, entries, layout⟩ := x
    obtain ⟨layout', layouts, rfl⟩ := h
    have found := (Cursor.alike_seekKey entries layouts key).bind fun p =>
      Contents.alike_valueAt entries p
    refine alike_after found fun result => ?_
    cases result with
    | ok value => exact .done ⟨rfl, rfl, alike⟩
    | error stop => exact .done ⟨rfl, rfl, alike⟩

theorem alike_put (alike : env.Alike same env') (txn : Handle) (dbi : Dbi)
    (key data : Option Descriptor) (flags : UInt32) :
    Inquiry.Alike same (Reply.Alike same) (env.put txn dbi key data flags)
      (env'.put txn dbi key data flags) := by
  have admitted := alike_admitPut alike txn dbi key data flags
  unfold put
  rw [alike.config]
  generalize env.admitPut txn dbi key data flags = x at admitted
  generalize env'.admitPut txn dbi key data flags = x' at admitted
  cases admitted with
  | refused s => exact .done ⟨rfl, rfl, alike⟩
  | @passed x x' h =>
    obtain ⟨key, value, db⟩ := x
    obtain ⟨db', opened, rfl⟩ := h
    have kept := fun h => alike.keep opened h
    obtain ⟨layout, layouts, rfl⟩ := opened
    refine alike_after (Holding.alike_put layouts _ _ key value db.holding) fun result => ?_
    cases result with
    | ok done => exact .done ⟨rfl, rfl, kept done.2⟩
    | error stop =>
      cases stop with
      | status s => exact .done ⟨rfl, rfl, alike⟩
      | existing p v => exact .done ⟨rfl, rfl, alike⟩
      | broken b => exact .done ⟨rfl, rfl, alike⟩

theorem alike_del (alike : env.Alike same env') (txn : Handle) (dbi : Dbi)
    (key data : Option Descriptor) :
    Inquiry.Alike same (Reply.Alike same) (env.del txn dbi key data)
      (env'.del txn dbi key data) := by
  have admitted := alike_admitDel alike txn dbi key
  unfold del
  generalize env.admitDel txn dbi key = x at admitted
  generalize env'.admitDel txn dbi key = x' at admitted
  cases admitted with
  | refused s => exact .done ⟨rfl, rfl, alike⟩
  | @passed x x' h =>
    obtain ⟨key, db⟩ := x
    obtain ⟨db', opened, rfl⟩ := h
    have kept := fun h => alike.keep opened h
    obtain ⟨layout, layouts, rfl⟩ := opened
    refine alike_after (Holding.alike_remove layouts key _ db.holding) fun result => ?_
    cases result with
    | ok left => exact .done ⟨rfl, rfl, kept left⟩
    | error stop => exact .done ⟨rfl, rfl, alike⟩

theorem alike_cursorOpen (alike : env.Alike same env') (txn : Handle) (dbi : Dbi) :
    Reply.Alike same (env.cursorOpen txn dbi) (env'.cursorOpen txn dbi) := by
  have admitted := alike_readable alike txn dbi
  unfold cursorOpen
  generalize env.readable txn dbi = x at admitted
  generalize env'.readable txn dbi = x' at admitted
  cases admitted with
  | refused s => exact ⟨rfl, rfl, alike⟩
  | passed h =>
    obtain ⟨catalog, related, rfl⟩ := alike
    exact ⟨rfl, rfl, catalog, related, rfl⟩

theorem alike_cursorClose (alike : env.Alike same env') (cursor : Handle) :
    (env.cursorClose cursor).Alike same (env'.cursorClose cursor) := by
  obtain ⟨catalog, related, rfl⟩ := alike
  exact ⟨catalog, related, rfl⟩

theorem alike_handOut (entries : Contents) (fetch : Fetch) (key data : Option Descriptor) :
    Work.Alike same (handOut entries fetch key data) (handOut entries fetch key data) := by
  refine (Fetch.alike_key entries fetch).bind fun k => ?_
  cases data with
  | none => exact .done rfl
  | some d =>
    refine Work.Alike.bind (Work.Alike.map ?_ _) fun v => Work.alike_pure _
    exact (Fetch.alike_value entries fetch).map _

/-- Once admitted, a move is the same in databases that are alike. -/
theorem alike_cursorGet_admitted {cursor : Handle} {c : Cursor} {entries : Contents}
    {layout layout' : Layout} {R : Reply Outcome Environment (Option Descriptor × Option Descriptor) →
      Reply Outcome Environment (Option Descriptor × Option Descriptor) → Prop}
    (layouts : layout.Alike same layout') (admitted : env.admitMove cursor = .ok (c, entries, layout))
    (admitted' : env'.admitMove cursor = .ok (c, entries, layout'))
    (replies : ∀ ended out c',
      R ⟨ended, out, env.setCursor cursor c'⟩ ⟨ended, out, env'.setCursor cursor c'⟩)
    (key data : Option Descriptor) (op : UInt32) :
    Inquiry.Alike same R (env.cursorGet cursor key data op) (env'.cursorGet cursor key data op) := by
  simp only [cursorGet, admitted, admitted']
  refine alike_after ?moved fun result => ?_
  case moved =>
    cases CursorOp.ofCode? op with
    | none => exact Work.alike_refuse _
    | some op => exact Cursor.alike_move c entries layouts op _ _
  cases result with
  | error stop => exact .done (replies _ _ _)
  | ok done =>
    refine alike_after (alike_handOut entries done.1 key data) fun out => ?_
    cases out with
    | error stop => exact .done (replies _ _ _)
    | ok out => exact .done (replies _ _ _)

theorem alike_cursorGet (alike : env.Alike same env') (cursor : Handle)
    (key data : Option Descriptor) (op : UInt32) :
    Inquiry.Alike same (Reply.Alike same) (env.cursorGet cursor key data op)
      (env'.cursorGet cursor key data op) := by
  have checked := alike_admitMove alike cursor
  generalize admitted : env.admitMove cursor = x at checked
  generalize admitted' : env'.admitMove cursor = x' at checked
  cases checked with
  | refused s =>
    simp only [cursorGet, admitted, admitted']
    exact .done ⟨rfl, rfl, alike⟩
  | @passed x x' h =>
    obtain ⟨c, entries, layout⟩ := x
    obtain ⟨layout', layouts, rfl⟩ := h
    exact alike_cursorGet_admitted layouts admitted admitted'
      (fun _ _ c' => ⟨rfl, rfl, alike.setCursor cursor c'⟩) key data op

theorem alike_replaceCurrent (c : Cursor) {db db' : Opened} (opened : db.Alike same db')
    (limit : Nat) (key value : Bytes) :
    Work.Alike same (replaceCurrent c db limit key value)
      (replaceCurrent c db' limit key value) := by
  obtain ⟨layout, layouts, rfl⟩ := opened
  unfold replaceCurrent
  dsimp only
  split
  · exact Work.alike_refuse _
  · refine (Work.alike_itemAt _ _).bind fun e => ?_
    refine (Work.alike_compare layouts.keyOrder _ _).bind fun o => ?_
    cases o with
    | eq => exact Holding.alike_replaceAt layouts limit _ value db.holding
    | lt | gt => exact Work.alike_refuse _

theorem alike_writePair (c : Cursor) {db db' : Opened} (opened : db.Alike same db')
    (limit : Nat) (flags : UInt32) (key value : Bytes) :
    Work.Alike same (writePair c db limit flags key value)
      (writePair c db' limit flags key value) := by
  unfold writePair
  split
  · exact Work.alike_refuse _
  · split
    · exact alike_replaceCurrent c opened limit key value
    · obtain ⟨layout, layouts, rfl⟩ := opened
      exact Holding.alike_put layouts limit _ key value db.holding

theorem alike_cursorPut (alike : env.Alike same env') (cursor : Handle)
    (key data : Option Descriptor) (flags : UInt32) :
    Inquiry.Alike same (Reply.Alike same) (env.cursorPut cursor key data flags)
      (env'.cursorPut cursor key data flags) := by
  have admitted := alike_admitCursorPut alike cursor key data flags
  unfold cursorPut
  rw [alike.config]
  generalize env.admitCursorPut cursor key data flags = x at admitted
  generalize env'.admitCursorPut cursor key data flags = x' at admitted
  cases admitted with
  | refused s => exact .done ⟨rfl, rfl, alike⟩
  | @passed x x' h =>
    obtain ⟨key, value, c, db⟩ := x
    obtain ⟨db', opened, rfl⟩ := h
    have kept := fun h c => (alike.keep opened h).setCursor cursor c
    have set := fun c => alike.setCursor cursor c
    refine alike_after (alike_writePair c opened _ flags key value) fun result => ?_
    cases result with
    | ok done => exact .done ⟨rfl, rfl, kept _ _⟩
    | error stop =>
      cases stop with
      | status s => exact .done ⟨rfl, rfl, set _⟩
      | existing p v => exact .done ⟨rfl, rfl, set _⟩
      | broken b => exact .done ⟨rfl, rfl, set _⟩

theorem alike_putRecords {layout layout' : Layout} (layouts : layout.Alike same layout')
    (limit : Nat) (rule : PutRule) (key : Bytes) (records : List Bytes) (progress : Progress) :
    Inquiry.Alike same Eq (putRecords layout limit rule key records progress)
      (putRecords layout' limit rule key records progress) := by
  induction records generalizing progress with
  | nil => exact .done rfl
  | cons record rest ih =>
    refine alike_after (Holding.alike_put layouts limit rule key record _) fun result => ?_
    cases result with
    | ok done => exact ih _
    | error stop => exact .done rfl

theorem alike_cursorPutMany (alike : env.Alike same env') (cursor : Handle)
    (key : Option Descriptor) (page : Bytes) (count stride : Nat) (flags : UInt32) :
    Inquiry.Alike same (Reply.Alike same) (env.cursorPutMany cursor key page count stride flags)
      (env'.cursorPutMany cursor key page count stride flags) := by
  have admitted := alike_admitCursorPut alike cursor key (some (.filled page)) flags
  unfold cursorPutMany
  rw [alike.config]
  generalize env.admitCursorPut cursor key _ flags = x at admitted
  generalize env'.admitCursorPut cursor key _ flags = x' at admitted
  cases admitted with
  | refused s => exact .done ⟨rfl, rfl, alike⟩
  | @passed x x' h =>
    obtain ⟨key, value, c, db⟩ := x
    obtain ⟨db', opened, rfl⟩ := h
    have kept := fun h c => (alike.keep opened h).setCursor cursor c
    have set := fun c => alike.setCursor cursor c
    obtain ⟨layout, layouts, rfl⟩ := opened
    dsimp only
    rw [layouts.flags]
    split
    · exact .done ⟨rfl, rfl, set _⟩
    · split
      · exact .done ⟨rfl, rfl, set _⟩
      · refine Inquiry.Alike.bind (alike_putRecords layouts _ _ key _ _) ?_
        rintro done _ rfl
        exact .done ⟨rfl, rfl, kept _ _⟩

theorem alike_cursorDel (alike : env.Alike same env') (cursor : Handle) (flags : UInt32) :
    Inquiry.Alike same (Reply.Alike same) (env.cursorDel cursor flags)
      (env'.cursorDel cursor flags) := by
  have admitted := alike_admitCursorDel alike cursor
  unfold cursorDel
  generalize env.admitCursorDel cursor = x at admitted
  generalize env'.admitCursorDel cursor = x' at admitted
  cases admitted with
  | refused s => exact .done ⟨rfl, rfl, alike⟩
  | @passed x x' h =>
    obtain ⟨c, p, db⟩ := x
    obtain ⟨db', opened, rfl⟩ := h
    have kept := fun h c => (alike.keep opened h).setCursor cursor c
    obtain ⟨layout, layouts, rfl⟩ := opened
    dsimp only
    rw [layouts.flags]
    refine alike_after (Holding.alike_removeAt _ _ _) fun result => ?_
    cases result with
    | ok done => exact .done ⟨rfl, rfl, kept _ _⟩
    | error stop => exact .done ⟨rfl, rfl, alike⟩

/-! ## Every call -/

theorem alike_handing {α : Type} (f : α → Handed)
    {x x' : Inquiry (Reply Outcome Environment α)}
    (h : Inquiry.Alike same (Reply.Alike same) x x') :
    Inquiry.Alike same (Reply.Alike same) (Reply.handing f <$> x) (Reply.handing f <$> x') := by
  rw [map_eq_pure_bind, map_eq_pure_bind]
  refine h.bind fun reply reply' r => .done ⟨r.ended, congrArg f r.out, r.store⟩

theorem alike_handed {α : Type} (f : α → Handed) {reply reply' : Reply Status Environment α}
    (h : Reply.Alike same reply reply') :
    Inquiry.Alike same (Reply.Alike same) (reply.handed f) (reply'.handed f) :=
  .done ⟨congrArg Except.ok h.ended, congrArg f h.out, h.store⟩

/-- **The same call on environments alike** asks for the same comparisons and tells the same, and
leaves environments alike. -/
theorem respond_alike (alike : env.Alike same env') {call call' : Call}
    (calls : call.Alike same call') :
    Inquiry.Alike same (Reply.Alike same) (env.respond call) (env'.respond call') := by
  cases calls with
  | setOrder role txn dbi fns => exact alike_handed (fun _ => .nothing) (alike_setOrder alike role txn dbi fns)
  | other h =>
    cases call with
    | setOrder role txn dbi fn => exact absurd rfl (h role txn dbi fn)
    | txnBegin parent flags thread =>
      exact alike_handed _ (alike_txnBegin alike parent flags thread)
    | txnCommit txn => exact alike_handed (fun _ => .nothing) (alike_txnCommit alike txn)
    | txnAbort txn => exact .done ⟨rfl, rfl, alike_txnAbort alike txn⟩
    | dbiOpen txn name flags => exact alike_handed _ (alike_dbiOpen alike txn name flags)
    | get txn dbi key data => exact alike_handing _ (alike_get alike txn dbi key data)
    | put txn dbi key data flags => exact alike_handing _ (alike_put alike txn dbi key data flags)
    | del txn dbi key data => exact alike_handing _ (alike_del alike txn dbi key data)
    | cursorOpen txn dbi => exact alike_handed _ (alike_cursorOpen alike txn dbi)
    | cursorClose cursor => exact .done ⟨rfl, rfl, alike_cursorClose alike cursor⟩
    | cursorGet cursor key data op =>
      exact alike_handing _ (alike_cursorGet alike cursor key data op)
    | cursorPut cursor key data flags =>
      exact alike_handing _ (alike_cursorPut alike cursor key data flags)
    | cursorPutMany cursor key page count stride flags =>
      exact alike_handing _ (alike_cursorPutMany alike cursor key page count stride flags)
    | cursorDel cursor flags => exact alike_handing _ (alike_cursorDel alike cursor flags)

end Environment

end CollatedStore
