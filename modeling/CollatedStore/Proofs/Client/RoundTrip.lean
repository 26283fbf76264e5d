import CollatedStore.Proofs.Client.Uses
import CollatedStore.Proofs.Environment.RoundTrip
import CollatedStore.Proofs.Orders

/-!
A page put under a new key and read back, as a client does it. What comes back are the records of the
page, sorted, each only once.
-/
namespace CollatedStore

open Search (Ascending)
open Sorted (arrange)

/-- No comparison in the orders of the database meets a fault. -/
def Layout.Sound (r : Registry) (layout : Layout) : Prop :=
  ∀ fn, layout.keyOrder = some fn ∨ layout.valueOrder = some fn →
    ∀ a b, (r.judge fn a b).fault = none

namespace Layout

variable {r : Registry} {layout : Layout}

/-- Such a database is like itself under the functions that meet no fault. -/
theorem Sound.alike (sound : layout.Sound r) :
    layout.Alike (fun fn _ => ∀ a b, (r.judge fn a b).fault = none) layout := by
  have orders : ∀ order : Option CompareFn, (∀ fn, order = some fn →
      layout.keyOrder = some fn ∨ layout.valueOrder = some fn) →
      Option.Rel (fun fn _ => ∀ a b, (r.judge fn a b).fault = none) order order := by
    intro order own
    cases order with
    | none => exact .none
    | some fn => exact .some (sound fn (own fn rfl))
  exact ⟨orders _ fun _ => .inl, orders _ fun _ => .inr, rfl⟩

end Layout

namespace Environment

variable {r : Registry} {env : Environment} {cursor : Handle} {c : Cursor}

theorem cursorPutMany_faultless {db : Opened} {key : Descriptor} (rule : PutRule)
    (sound : db.layout.Sound r) (here : env.cursors.get? cursor = some c)
    (writable : env.writable c.txn c.dbi = .ok db) (fixed : db.layout.flags.fixed = true)
    (valid : validKey key.bytes = true) (page : Bytes) (stride : Nat) :
    (env.cursorPutMany cursor (some key) page (page.length / stride) stride
      rule.batchWord).faults r = [] := by
  rw [cursorPutMany_admitted here writable fixed valid]
  exact (Inquiry.faults_map r _ _).trans
    ((alike_putRecords sound.alike _ _ _ _ _).faultless fun _ _ sound => sound)

theorem cursorGet_faultless {entries : Contents} {layout : Layout} (sound : layout.Sound r)
    (here : env.cursors.get? cursor = some c)
    (readable : env.readable c.txn c.dbi = .ok (entries, layout)) (key data : Option Descriptor)
    (op : UInt32) : (env.cursorGet cursor key data op).faults r = [] := by
  have admitted := admitMove_eq_ok.mpr ⟨here, readable⟩
  have alike := alike_cursorGet_admitted sound.alike admitted admitted
    (fun _ _ _ => (rfl : Eq _ _)) key data op
  exact alike.faultless fun _ _ sound => sound

theorem Files.faultless {answer : Question → Ordering} {layout : Layout} {key : Bytes}
    {values : List Bytes} (files : env.Files answer layout cursor key values)
    (sound : layout.Sound r) (given data : Option Descriptor) (op : UInt32) :
    (env.cursorGet cursor given data op).faults r = [] := by
  cases files with
  | intro here readable located => exact cursorGet_faultless sound here readable given data op

end Environment

namespace Client

section
variable {ε α : Type} {op : String} {native : Inquiry (Reply Outcome ε α)} {host : Host} {out : α}
  {store : ε}

/-- A call that meets no fault and succeeds hands out what the store does. -/
theorem call_then_done {β : Type} {finish : Except Halt Unit × α × ε → Session β}
    (faultless : native.faults host.registry = [])
    (done : native.eval host.registry.order = ⟨.ok .success, out, store⟩) :
    (call op native >>= finish) host =
      finish (.ok (), out, store) { host with parked := none } := by
  have handled : native.Handled host.registry := by
    rw [Inquiry.Handled, faultless]
    intro met among
    cases among
  have first : native.firstFault? host.registry = none := by
    rw [Inquiry.firstFault?, faultless]
    rfl
  rw [Session.bind_apply, call_handled handled, done, tell_status, first, verdict_success]
  rfl

end

/-- Puts the records of a page under a key, looks the key up, and reads a page from there. -/
def putAndRead {ε : Type} [Store ε] (store : ε) (cursor : Handle) (key page : Bytes)
    (stride : Nat) : Session (Except Halt Nat × Except Halt (Descriptor × Descriptor) ×
      Except Halt (Descriptor × Descriptor) × ε) := do
  let (count, store) ← cursorPutMany store cursor key page stride 0
  let (found, store) ← cursorGet store cursor key [] CursorOp.set.code
  let (read, store) ← cursorGet store cursor [] [] CursorOp.getMultiple.code
  return (count, found, read, store)

section
variable {env env' : Environment} {cursor : Handle} {host : Host} {key : Bytes}

theorem cursorPutMany_done {page : Bytes} {stride count : Nat} {batch : Batch}
    (taken : Batch.ofPage? page stride = some batch)
    (faultless : (env.cursorPutMany cursor (some (.filled key)) page batch.count stride
      (0 ||| Flags.multiple)).faults host.registry = [])
    (done : (env.cursorPutMany cursor (some (.filled key)) page batch.count stride
      (0 ||| Flags.multiple)).eval host.registry.order = ⟨.ok .success, count, env'⟩) :
    cursorPutMany env cursor key page stride 0 host =
      some ((.ok count, env'), { host with parked := none }) := by
  rw [cursorPutMany, taken]
  exact call_then_done faultless done

/-- The descriptor that a key is passed in. Without a key, it is empty. -/
def passed (key : Bytes) : Descriptor := if key.isEmpty then .empty else .filled key

theorem cursorGet_done {op : UInt32} {k v : Bytes}
    (faultless : (env.cursorGet cursor (some (passed key)) (some .empty) op).faults
      host.registry = [])
    (done : (env.cursorGet cursor (some (passed key)) (some .empty) op).eval host.registry.order =
      Environment.moveFound (some (passed key)) (some .empty) env' (some (k, v))) :
    cursorGet env cursor key [] op host =
      some ((.ok (.filled k, .filled v), env'), { host with parked := none }) := by
  cases key with
  | nil => exact call_then_done faultless done
  | cons b bs => exact call_then_done faultless done

/-- The lookup of a stored key finds its first value. -/
theorem cursorGet_set {layout : Layout} {first : Bytes} {more : List Bytes}
    (sound : layout.Sound host.registry) (valid : validKey key = true)
    (files : env.Files host.registry.order layout cursor key (first :: more)) :
    ∃ env' c entries i, cursorGet env cursor key [] CursorOp.set.code host =
        some ((.ok (.filled key, .filled first), env'), { host with parked := none }) ∧
      env'.On cursor c layout entries ⟨i, 0⟩ ⟨key, first :: more⟩ first := by
  cases key with
  | nil => cases valid
  | cons b bs =>
    have files : env.Files host.registry.order layout cursor (Descriptor.filled (b :: bs)).bytes
        (first :: more) := files
    obtain ⟨env', c, entries, i, found, on⟩ := files.eval_set valid (some .empty)
    refine ⟨env', c, entries, i, ?_, on⟩
    exact cursorGet_done (files.faultless sound _ _ _) found

theorem cursorGet_finds {op : CursorOp} {k v : Bytes} (finds : env.Finds cursor op (some (k, v))) :
    ∃ env', cursorGet env cursor [] [] op.code host =
      some ((.ok (.filled k, .filled v), env'), { host with parked := none }) := by
  obtain ⟨env', read⟩ := finds (some .empty) (some .empty)
  have faultless : (env.cursorGet cursor (some .empty) (some .empty) op.code).faults
      host.registry = [] := by
    rw [read]
    rfl
  have done : (env.cursorGet cursor (some .empty) (some .empty) op.code).eval host.registry.order =
      Environment.moveFound (some .empty) (some .empty) env' (some (k, v)) := by
    rw [read]
    rfl
  exact ⟨env', cursorGet_done faultless done⟩

/-- **Pages are put and read back.** Where keys stand in order and there is room, the records of a
page that go under a new key are all counted, and the page read from that key holds them sorted,
without those that are equal to an earlier one. -/
theorem page_is_read_back {c : Cursor} {db : Environment.Opened} {page : Bytes} {stride : Nat}
    [Std.TransCmp (db.layout.keys host.registry.order)]
    [Std.TransCmp (db.layout.values host.registry.order)]
    (here : env.cursors.get? cursor = some c) (writable : env.writable c.txn c.dbi = .ok db)
    (fixed : db.layout.flags.fixed = true) (sound : db.layout.Sound host.registry)
    (ascending : Ascending (db.layout.keys host.registry.order) Entry.key db.entries)
    (valid : validKey key = true)
    (absent : ∀ e ∈ db.entries, db.layout.keys host.registry.order e.key key ≠ .eq)
    (filled : page ≠ []) (whole : stride ∣ page.length)
    (room : db.holding.used + key.length + (arrange (db.layout.values host.registry.order)
      (Records.split stride page)).flatten.length ≤ env.config.mapSize) :
    ∃ first more env', arrange (db.layout.values host.registry.order) (Records.split stride page) =
        first :: more ∧
      putAndRead env cursor key page stride host = some ((.ok (page.length / stride),
        .ok (.filled key, .filled first), .ok (.filled key, .filled (first :: more).flatten), env'),
        { host with parked := none }) := by
  obtain ⟨batch, taken, count⟩ := Batch.ofPage?_whole filled whole
  have named : validKey (Descriptor.filled key).bytes = true := valid
  obtain ⟨env₁, put, files⟩ := Environment.eval_cursorPutMany_files here writable fixed named
    ascending absent filled whole room
  have faultless :=
    Environment.cursorPutMany_faultless .free sound here writable fixed named page stride
  rw [PutRule.batchWord_free, ← count] at put faultless
  have put := cursorPutMany_done taken faultless put
  have inhabited : arrange (db.layout.values host.registry.order) (Records.split stride page) ≠ [] :=
    Sorted.arrange_ne_nil (Records.split_ne_nil filled whole)
  obtain ⟨first, more, values⟩ := List.exists_cons_of_ne_nil inhabited
  rw [values] at files ⊢
  have later : db.layout.Sound ({ host with parked := none } : Host).registry := sound
  obtain ⟨env₂, _, _, _, found, on⟩ := cursorGet_set later valid files
  obtain ⟨env₃, read⟩ := cursorGet_finds (on.finds_page fixed)
  refine ⟨first, more, env₃, rfl, ?_⟩
  rw [← count, putAndRead, Session.bind_apply, put, Option.bind_some]
  dsimp only
  rw [Session.bind_apply, found, Option.bind_some]
  dsimp only
  rw [Session.bind_apply, read]
  rfl

/-- Letters, in an order that does not tell capitals from small ones. Each is kept as it was met
first. -/
theorem page_of_letters_is_read_back :
    ∃ (registry : Registry) (env env' : Environment) (c : Cursor) (db : Environment.Opened),
      Registry.new.registerSingle (.ofOrder .nocase) = .ok registry ∧
      Environment.Reachable env ∧ env.cursors.get? 2 = some c ∧
      env.writable c.txn c.dbi = .ok db ∧ db.entries = [⟨[2], [[0x64]]⟩] ∧
      db.layout = ⟨none, some .single, ⟨true, true⟩⟩ ∧ db.layout.Sound registry ∧
      putAndRead env 2 [1] [0x62, 0x41, 0x61, 0x42] 1 ⟨registry, none, none⟩ =
        some ((.ok 4, .ok (.filled [1], .filled [0x41]), .ok (.filled [1], .filled [0x41, 0x62]),
          env'), ⟨registry, none, none⟩) := by
  obtain ⟨env, c, db, reached, here, writable, stored, same, used, size⟩ :
      ∃ (env : Environment) (c : Cursor) (db : Environment.Opened),
        Environment.Reachable env ∧ env.cursors.get? 2 = some c ∧
        env.writable c.txn c.dbi = .ok db ∧ db.entries = [⟨[2], [[0x64]]⟩] ∧
        db.layout = ⟨none, some .single, ⟨true, true⟩⟩ ∧ db.holding.used = 2 ∧
        env.config.mapSize = 100 := by
    have start : Environment.Reachable (.new 1 "" { mapSize := 100 }) :=
      ⟨1, "", { mapSize := 100 }, 0, .start⟩
    have begun := start.next (.txnBegin none 0) ⟨_, .done _⟩
    have opened := begun.next (.dbiOpen 1 (some "letters")
      (Flags.dupSort ||| Flags.dupFixed ||| Flags.create)) ⟨_, .done _⟩
    have ordered := opened.next (.setOrder .values 1 2 (some .single)) ⟨_, .done _⟩
    have put := ordered.next (.put 1 2 (some (.filled [2])) (some (.filled [0x64])) 0) ⟨_, .done _⟩
    have reached := put.next (.cursorOpen 1 2) ⟨_, .done _⟩
    exact ⟨_, _, _, reached, rfl, rfl, rfl, rfl, rfl, rfl⟩
  obtain ⟨registry, registered, judged⟩ : ∃ registry : Registry,
      Registry.new.registerSingle (.ofOrder .nocase) = .ok registry ∧
        ∀ a b, registry.judge .single a b = .sound (Order.nocase a b) := ⟨_, rfl, fun _ _ => rfl⟩
  have sound : db.layout.Sound registry := by
    rw [same]
    rintro fn (own | own) a b
    · cases own
    · cases own
      rw [judged]
      rfl
  have keys : db.layout.keys registry.order = Order.baseline := by
    rw [same]
    rfl
  have values : db.layout.values registry.order = Order.nocase := by
    rw [same]
    funext a b
    exact congrArg Judgement.order (judged a b)
  have keyOrder : Std.TransCmp (db.layout.keys registry.order) := keys ▸ inferInstance
  have valueOrder : Std.TransCmp (db.layout.values registry.order) := values ▸ inferInstance
  have ascending : Ascending (db.layout.keys registry.order) Entry.key db.entries := by
    rw [stored]
    exact List.pairwise_singleton _ _
  have arranged : arrange Order.nocase (Records.split 1 [0x62, 0x41, 0x61, 0x42]) =
      [[0x41], [0x62]] := by
    rw [← Sorted.gather_eq_arrange]
    decide
  obtain ⟨first, more, env', records, read⟩ :=
    @page_is_read_back env 2 ⟨registry, none, none⟩ [1] c db [0x62, 0x41, 0x61, 0x42] 1
      keyOrder valueOrder here writable (by rw [same]; rfl) sound ascending (by decide)
      (by rw [stored, keys]; decide) (by decide) (by decide)
      (by rw [values, arranged, used, size]; decide)
  rw [values, arranged] at records
  cases records
  exact ⟨registry, env, env', c, db, registered, reached, here, writable, stored, same, sound, read⟩

end

end Client

end CollatedStore
