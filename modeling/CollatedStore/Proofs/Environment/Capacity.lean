import CollatedStore.Proofs.Environment.Replacement

/-!
Writes in maps of different sizes. One is refused for want of room if what it would leave does not
fit, and what it leaves otherwise is the same in each map.
-/
namespace CollatedStore

theorem Contents.length_items_set {entries : Contents} {i : Nat} {e : Entry}
    (stood : entries[i]? = some e) (others : List Bytes) :
    (items (entries.set i { e with values := others })).length + e.values.length =
      entries.items.length + others.length := by
  obtain ⟨before, after, rfl, rfl⟩ := exists_cut stood
  simp only [List.set_append_right _ _ (Nat.le_refl _), Nat.sub_self, List.set_cons_zero,
    items_append, items_cons, Entry.items, List.length_append, List.length_map]
  omega

namespace Holding

/-- What a write of `size` bytes comes to in a map of each size. -/
inductive Metered (h : Holding) (size : Nat) (write : Nat → Except Stop (Place × Holding)) : Prop
  | refused {stop : Stop} (always : ∀ limit, write limit = .error stop) (due : stop.Due True)
  | kept {p : Place} (always : ∀ limit, write limit = .ok (p, h))
  | stored {p : Place} {entries : Contents} {used : Nat}
      (counted : used + h.entries.size = h.used + entries.size)
      (more : h.entries.items.length ≤ entries.items.length)
      (metered : ∀ limit, write limit =
        if limit < used then .error (.status .mapFull) else .ok (p, ⟨entries, used⟩))
  /-- Two items become one, but not before both have found room. -/
  | merged {p : Place} {entries : Contents} {used : Nat}
      (counted : used + h.entries.size = h.used + entries.size)
      (fewer : entries.items.length < h.entries.items.length)
      (metered : ∀ limit, write limit =
        if limit < used + size then .error (.status .mapFull) else .ok (p, ⟨entries, used⟩))

section
variable {answer : Question → Ordering} {layout : Layout} {limit rest size : Nat} {rule : PutRule}
  {key value : Bytes} {h : Holding} {i : Nat} {p : Place} {e : Entry} {old : Bytes}
  {write : Nat → Except Stop (Place × Holding)}

theorem Metered.of_status {s : Status} (always : ∀ limit, write limit = .error (.status s))
    (other : s ≠ .success ∧ s ≠ .badDbi ∧ s ≠ .mapFull) : h.Metered size write :=
  .refused always ⟨other.1, other.2.1, fun _ => other.2.2⟩

theorem Metered.of_existing {v : Bytes} (always : ∀ limit, write limit = .error (.existing p v)) :
    h.Metered size write :=
  .refused always trivial

theorem metered_putNew (inside : i ≤ h.entries.length) :
    h.Metered size fun limit => (putNew limit rule key value h i).eval answer := by
  obtain ⟨entries, used⟩ := h
  obtain ⟨before, after, rfl, rfl⟩ : ∃ before after, entries = before ++ after ∧ before.length = i :=
    ⟨_, _, (List.take_append_drop i _).symm, List.length_take_of_le inside⟩
  by_cases turned : rule.append = true ∧ after ≠ []
  · exact .of_status (fun _ => eval_putNew_refused answer turned.1 turned.2) (by decide)
  · refine .stored ?_ (by simp) fun _ => eval_putNew_charged answer (by simpa using turned)
    simp [Entry.size]
    omega

theorem metered_overwrite (ok : Accounted layout limit rest h)
    (plain : layout.flags.dupSort = false) (stood : h.entries[i]? = some e) :
    h.Metered size fun limit => (overwrite limit value h i).eval answer := by
  have proper := ok.entries e (List.mem_of_getElem? stood)
  obtain ⟨first, values⟩ := List.length_eq_one_iff.mp (proper.single plain)
  have within : first.length ≤ h.used := ok.value_within stood (j := 0) (by simp [values])
  obtain ⟨entries, used⟩ := h
  obtain ⟨before, after, rfl, rfl⟩ := exists_cut stood
  refine .stored ?_ (by simp [Entry.items, values]) fun _ =>
    eval_overwrite_charged answer within values
  simp [Entry.size, values] at within ⊢
  omega

theorem metered_putValue (ok : Accounted layout limit rest h) (stood : h.entries[i]? = some e) :
    h.Metered size fun limit => (putValue layout limit rule value h i).eval answer := by
  have inhabited := (ok.entries e (List.mem_of_getElem? stood)).inhabited
  obtain ⟨like, others, values⟩ := List.exists_cons_of_ne_nil inhabited
  obtain ⟨entries, used⟩ := h
  obtain ⟨before, after, rfl, rfl⟩ := exists_cut stood
  by_cases wrong : layout.flags.fixed = true ∧ like.length ≠ value.length
  · exact .of_status (fun _ => eval_putValue_wrong answer values wrong) (by decide)
  obtain ⟨spot, located⟩ := Contents.findIn_ends answer layout e.values value
  have among := (@Contents.ensures_findIn True layout e.values value).of_eval located
  cases spot with
  | found j =>
    have there : e.values[j]? = some e.values[j] := List.getElem?_eq_getElem among
    cases refuses : rule.noDupData with
    | true =>
      exact .of_existing fun _ =>
        (eval_putValue_found answer values wrong located there).trans (if_pos refuses)
    | false =>
      exact .kept fun _ =>
        (eval_putValue_found answer values wrong located there).trans (by rw [refuses]; rfl)
  | absent j =>
    obtain ⟨smaller, larger, cut, rfl⟩ :
        ∃ smaller larger, e.values = smaller ++ larger ∧ smaller.length = j :=
      ⟨_, _, (List.take_append_drop j _).symm, List.length_take_of_le among⟩
    by_cases turned : rule.appendDup = true ∧ larger ≠ []
    · have notLast : smaller.length ≠ e.values.length := by simpa [cut] using turned.2
      exact .of_existing fun _ => eval_putValue_refused answer values wrong located turned.1 notLast
        (List.getLast?_eq_some_getLast inhabited)
    · refine .stored ?_ (by simp [Entry.items, cut]) fun _ =>
        eval_putValue_charged answer values wrong cut located (by simpa using turned)
      simp [Entry.size, cut]
      omega

theorem metered_put (ok : Accounted layout limit rest h) (rule : PutRule) (key value : Bytes) :
    h.Metered size fun limit => (h.put layout limit rule key value).eval answer := by
  obtain ⟨spot, located⟩ := Contents.find_ends answer layout h.entries key
  have inside := (@Contents.ensures_find True layout h.entries key).of_eval located
  cases spot with
  | absent i =>
    simp only [eval_put_absent located]
    exact metered_putNew inside
  | found i =>
    have stood : h.entries[i]? = some h.entries[i] := List.getElem?_eq_getElem inside
    have inhabited := (ok.entries _ (List.mem_of_getElem? stood)).inhabited
    simp only [eval_put_found located]
    split
    · have first := List.getElem?_eq_getElem (List.length_pos_iff.mpr inhabited)
      exact .of_existing fun _ => Contents.eval_occupied answer stood first
    · split
      · exact .of_status (fun _ => rfl) (by decide)
      · cases sorted : layout.flags.dupSort with
        | true => exact metered_putValue ok stood
        | false => exact metered_overwrite ok sorted stood

/-- The room asked for does for both values. -/
theorem metered_replaceAt (ok : Accounted layout limit rest h) (stood : h.entries[p.entry]? = some e)
    (was : e.values[p.value]? = some old) (value : Bytes) :
    h.Metered value.length fun limit => (h.replaceAt layout limit p value).eval answer := by
  have single := (ok.entries e (List.mem_of_getElem? stood)).single
  have within := ok.value_within stood was
  obtain ⟨spot, located⟩ := Contents.findIn_ends answer layout (e.values.eraseIdx p.value) value
  simp only [eval_replaceAt stood was single within located]
  by_cases wrong : layout.flags.fixed = true ∧ old.length ≠ value.length
  · exact .of_status (fun _ => if_pos wrong) (by decide)
  obtain ⟨there, -⟩ := List.getElem?_eq_some_iff.mp was
  have left := List.length_eraseIdx_of_lt there
  have given := length_flatten_eraseIdx was
  have bytes := fun others => Contents.size_set stood { e with values := others }
  have items := Contents.length_items_set stood
  simp only [Entry.size] at bytes
  cases spot with
  | found k =>
    specialize bytes (e.values.eraseIdx p.value)
    specialize items (e.values.eraseIdx p.value)
    exact .merged (by omega) (by omega) fun _ => if_neg wrong
  | absent k =>
    have among := (@Contents.ensures_findIn True layout _ value).of_eval located
    have more := List.length_insertIdx_of_le_length among value
    have taken := length_flatten_insertIdx among value
    specialize bytes ((e.values.eraseIdx p.value).insertIdx k value)
    specialize items ((e.values.eraseIdx p.value).insertIdx k value)
    exact .stored (by omega) (by omega) fun _ => if_neg wrong

end

end Holding

namespace Environment

section
variable {answer : Question → Ordering} {limit rest : Nat} {c : Cursor} {db : Opened}

theorem metered_replaceCurrent (ok : Holding.Accounted db.layout limit rest db.holding)
    (key value : Bytes) :
    db.holding.Metered value.length fun limit =>
      (replaceCurrent c db limit key value).eval answer := by
  cases stands : c.current db.entries with
  | none =>
    have refuses : ∀ limit, replaceCurrent c db limit key value = Work.refuse .invalid := by
      simp [replaceCurrent, stands]
    exact .of_status (fun limit => congrArg (Work.eval answer) (refuses limit)) (by decide)
  | some p =>
    obtain ⟨place, holds⟩ := Option.filter_eq_some_iff.mp stands
    obtain ⟨e, stood, there⟩ := Contents.holds_iff.mp holds
    have was := List.getElem?_eq_getElem there
    simp only [eval_replaceCurrent place stood was]
    split
    · exact Holding.metered_replaceAt ok stood was value
    · exact .of_status (fun _ => rfl) (by decide)

theorem metered_writePair (ok : Holding.Accounted db.layout limit rest db.holding)
    (flags : UInt32) (key value : Bytes) :
    db.holding.Metered value.length fun limit =>
      (writePair c db limit flags key value).eval answer := by
  unfold writePair
  split
  · exact .of_status (fun _ => rfl) (by decide)
  · split
    · exact metered_replaceCurrent ok key value
    · exact Holding.metered_put ok (.ofFlags flags) key value

end

/-- The same environment with a map of `n` bytes. -/
def withMap (env : Environment) (n : Nat) : Environment :=
  { env with config := { env.config with mapSize := n } }

theorem withMap_self (env : Environment) : env.withMap env.config.mapSize = env := rfl

/-- All that a transaction finds, by this measure. -/
def tally (env : Environment) (txn : Handle) (measure : Contents → Nat) : Nat :=
  match env.txns.get? txn with
  | some t => t.snapshot.dbs.sum measure
  | none => 0

/-- A put of one pair through a transaction. -/
inductive Puts (env : Environment) (txn : Handle) (value : Descriptor) : Call → Prop
  | byKey (dbi : Dbi) (key : Option Descriptor) (flags : UInt32) :
      Puts env txn value (.put txn dbi key (some value) flags)
  | byCursor {cursor : Handle} {c : Cursor} (here : env.cursors.get? cursor = some c)
      (within : c.txn = txn) (key : Option Descriptor) (flags : UInt32) :
      Puts env txn value (.cursorPut cursor key (some value) flags)

/-- In a map of some size the call gets through and leaves this environment. -/
def WouldLeave (answer : Question → Ordering) (env : Environment) (call : Call)
    (env' : Environment) : Prop :=
  ∃ n, ((env.withMap n).perform call).eval answer = (.ok .success, env')

/-- The room that a call asks for beyond what it leaves: where two items become one, that of the
value put. -/
def slack (env : Environment) (txn : Handle) (value : Descriptor) (env' : Environment) : Nat :=
  if env'.tally txn (·.items.length) < env.tally txn (·.items.length) then value.bytes.length else 0

/-- The call is refused for want of room where it has to be, and nowhere else. -/
structure FullExactly (answer : Question → Ordering) (env : Environment) (txn : Handle)
    (value : Descriptor) (call : Call) : Prop where
  /-- Room is all that is wanting. -/
  wanting : ((env.perform call).eval answer).1 = .ok .mapFull →
    ∃ env', env.WouldLeave answer call env'
  exact : ∀ env', env.WouldLeave answer call env' →
    (((env.perform call).eval answer).1 = .ok .mapFull ↔
      env.config.mapSize < env'.tally txn Contents.size + env.slack txn value env')
  fits : ∀ env', env.WouldLeave answer call env' →
    env'.tally txn Contents.size + env.slack txn value env' ≤ env.config.mapSize →
      (env.perform call).eval answer = (.ok .success, env'.withMap env.config.mapSize)
  /-- What does not grow is not refused so. -/
  shrinks : ∀ env', env.WouldLeave answer call env' →
    env'.tally txn Contents.size + env.slack txn value env' ≤ env.tally txn Contents.size →
      ((env.perform call).eval answer).1 = .ok .success

section
variable {answer : Question → Ordering} {env : Environment} {txn : Handle} {dbi : Dbi}
  {value : Descriptor} {call : Call} {db : Opened}

theorem tally_keep (writable : env.writable txn dbi = .ok db) {env' : Environment}
    {holding : Holding} (kept : env'.txns = (env.keep db holding).txns)
    (measure : Contents → Nat) :
    env'.tally txn measure + measure db.entries = env.tally txn measure + measure holding.entries := by
  obtain ⟨snapshot, record, entries, was, _, stored, rfl⟩ := writable_eq_ok.mp writable
  have now : env'.txns.get? txn = some (.writer { snapshot with
      dbs := snapshot.dbs.insert dbi holding.entries, used := holding.used }) := by
    rw [kept]
    exact Table.get?_insert_self _ _ _
  simp only [tally, now, was]
  exact Table.sum_insert_of_get? measure stored holding.entries

theorem tally_size (balanced : Balanced env) (writable : env.writable txn dbi = .ok db) :
    env.tally txn Contents.size = db.holding.used := by
  obtain ⟨snapshot, record, entries, was, _, stored, rfl⟩ := writable_eq_ok.mp writable
  simp only [tally, was]
  exact (balanced.live was).used.symm

theorem tally_le (balanced : Balanced env) (writable : env.writable txn dbi = .ok db) :
    env.tally txn Contents.size ≤ env.config.mapSize := by
  rw [tally_size balanced writable]
  obtain ⟨snapshot, _, _, was, _, _, rfl⟩ := writable_eq_ok.mp writable
  exact (balanced.live was).room

/-- In every map the call leaves the same, if it gets through, and in this one it does where there
is room for `total` bytes. -/
theorem fullExactly_of_total (left : Environment) {env₁ : Environment} {total : Nat}
    (same : ∀ n env', ((env.withMap n).perform call).eval answer = (.ok .success, env') →
      env' = env₁.withMap n)
    (large : ∃ n, ((env.withMap n).perform call).eval answer = (.ok .success, env₁.withMap n))
    (now : (env.perform call).eval answer = if env.config.mapSize < total then (.ok .mapFull, left)
      else (.ok .success, env₁.withMap env.config.mapSize))
    (counted : env₁.tally txn Contents.size + env.slack txn value env₁ = total)
    (room : env.tally txn Contents.size ≤ env.config.mapSize) :
    FullExactly answer env txn value call := by
  have told : ∀ env', env.WouldLeave answer call env' →
      env'.tally txn Contents.size + env.slack txn value env' = total ∧
        env'.withMap env.config.mapSize = env₁.withMap env.config.mapSize := by
    rintro env' ⟨n, through⟩
    cases same n env' through
    exact ⟨counted, rfl⟩
  constructor
  case wanting =>
    obtain ⟨n, through⟩ := large
    exact fun _ => ⟨_, n, through⟩
  case exact =>
    intro env' leaves
    rw [(told env' leaves).1, now]
    split
    · rename_i full
      exact ⟨fun _ => full, fun _ => rfl⟩
    · rename_i fits
      exact ⟨fun full => absurd (Except.ok.inj full) (by decide), fun full => absurd full fits⟩
  case fits =>
    intro env' leaves fits
    rw [(told env' leaves).1] at fits
    rw [(told env' leaves).2, now, if_neg (Nat.not_lt.mpr fits)]
  case shrinks =>
    intro env' leaves less
    rw [(told env' leaves).1] at less
    rw [now, if_neg (Nat.not_lt.mpr (Nat.le_trans less room))]

/-- In each map the call makes this write, and tells what it came to. -/
def Makes (answer : Question → Ordering) (env : Environment) (call : Call) (value : Descriptor)
    (write : Nat → Except Stop (Place × Holding)) (wrote : Place → Holding → Environment) : Prop :=
  ∀ n, ∃ met left, ((env.withMap n).perform call).eval answer =
    (putReply (some value) (fun p holding => (wrote p holding).withMap n) met left
      (write n)).ending

section
variable {write : Nat → Except Stop (Place × Holding)} {wrote : Place → Holding → Environment}
  {n : Nat}

theorem Makes.through (makes : Makes answer env call value write wrote) {p : Place}
    {holding : Holding} (made : write n = .ok (p, holding)) :
    ((env.withMap n).perform call).eval answer = (.ok .success, (wrote p holding).withMap n) := by
  obtain ⟨met, left, told⟩ := makes n
  rw [told, made]
  rfl

theorem Makes.stops (makes : Makes answer env call value write wrote) {stop : Stop}
    (made : write n = .error stop) :
    ∃ left, ((env.withMap n).perform call).eval answer = (stop.outcome, left) := by
  obtain ⟨met, left, told⟩ := makes n
  rw [told, made]
  cases stop <;> exact ⟨_, rfl⟩

/-- A refusal for another reason does not depend on the map. -/
theorem Makes.fullExactly_of_refused (makes : Makes answer env call value write wrote) {stop : Stop}
    (always : ∀ n, write n = .error stop) (failed : stop.outcome ≠ .ok .success)
    (other : stop.outcome ≠ .ok .mapFull) : FullExactly answer env txn value call := by
  have never : ∀ env', ¬env.WouldLeave answer call env' := by
    rintro env' ⟨n, leaves⟩
    obtain ⟨left, stopped⟩ := makes.stops (always n)
    rw [leaves] at stopped
    exact failed (congrArg Prod.fst stopped).symm
  constructor
  case wanting =>
    intro full
    obtain ⟨left, stopped⟩ := makes.stops (always env.config.mapSize)
    rw [withMap_self] at stopped
    rw [stopped] at full
    exact absurd full other
  case exact => exact fun env' leaves => absurd leaves (never env')
  case fits => exact fun env' leaves => absurd leaves (never env')
  case shrinks => exact fun env' leaves => absurd leaves (never env')

/-- Room is asked for `total` bytes. -/
theorem Makes.fullExactly_of_charged (makes : Makes answer env call value write wrote)
    {p : Place} {holding : Holding} {total : Nat}
    (charged : ∀ n, write n =
      if n < total then .error (.status .mapFull) else .ok (p, holding))
    (counted : (wrote p holding).tally txn Contents.size + env.slack txn value (wrote p holding) =
      total)
    (room : env.tally txn Contents.size ≤ env.config.mapSize) :
    FullExactly answer env txn value call := by
  have enough := (charged total).trans (if_neg (Nat.lt_irrefl total))
  obtain ⟨left, now⟩ : ∃ left, (env.perform call).eval answer =
      if env.config.mapSize < total then (.ok .mapFull, left)
      else (.ok .success, (wrote p holding).withMap env.config.mapSize) := by
    have here := charged env.config.mapSize
    split at here
    · rename_i full
      obtain ⟨left, stopped⟩ := makes.stops here
      exact ⟨left, stopped.trans (if_pos full).symm⟩
    · rename_i fits
      exact ⟨env, (makes.through here).trans (if_neg fits).symm⟩
  refine fullExactly_of_total left (fun n env' leaves => ?_) ⟨total, makes.through enough⟩ now
    counted room
  have here := charged n
  split at here
  · obtain ⟨left, stopped⟩ := makes.stops here
    rw [leaves] at stopped
    exact absurd (Except.ok.inj (congrArg Prod.fst stopped)) (by decide)
  · rw [makes.through here] at leaves
    exact (congrArg Prod.snd leaves).symm

end

theorem fullExactly_of_metered (balanced : Balanced env) (writable : env.writable txn dbi = .ok db)
    {write : Nat → Except Stop (Place × Holding)}
    (metered : db.holding.Metered value.bytes.length write)
    {wrote : Place → Holding → Environment} (makes : Makes answer env call value write wrote)
    (kept : ∀ p holding, (wrote p holding).txns = (env.keep db holding).txns) :
    FullExactly answer env txn value call := by
  have room := tally_le balanced writable
  have used := tally_size balanced writable
  have tallied := fun p holding => tally_keep writable (kept p holding)
  cases metered with
  | refused always due =>
    obtain ⟨s, outcome, failed⟩ := due.outcome
    exact makes.fullExactly_of_refused always (by simpa [outcome] using failed)
      due.outcome_ne_mapFull
  | @kept p always =>
    have bytes := tallied p db.holding Contents.size
    have items := tallied p db.holding (·.items.length)
    have slack : env.slack txn value (wrote p db.holding) = 0 :=
      if_neg (Nat.not_lt.mpr (Nat.le_of_eq (Nat.add_right_cancel items).symm))
    have stays : (wrote p db.holding).tally txn Contents.size = env.tally txn Contents.size :=
      Nat.add_right_cancel bytes
    refine fullExactly_of_total env (fun n env' leaves => ?_)
      ⟨env.config.mapSize, makes.through (always _)⟩ ?_ (by rw [slack, stays, Nat.add_zero]) room
    · rw [makes.through (always n)] at leaves
      exact (congrArg Prod.snd leaves).symm
    · exact (makes.through (always env.config.mapSize)).trans (if_neg (Nat.not_lt.mpr room)).symm
  | @stored p entries after counted more metered =>
    have bytes := tallied p ⟨entries, after⟩ Contents.size
    have items := tallied p ⟨entries, after⟩ (·.items.length)
    dsimp only [Opened.holding] at used counted more bytes items
    have slack : env.slack txn value (wrote p ⟨entries, after⟩) = 0 := if_neg (by omega)
    exact makes.fullExactly_of_charged metered (by omega) room
  | @merged p entries after counted fewer metered =>
    have bytes := tallied p ⟨entries, after⟩ Contents.size
    have items := tallied p ⟨entries, after⟩ (·.items.length)
    dsimp only [Opened.holding] at used counted fewer bytes items
    have slack : env.slack txn value (wrote p ⟨entries, after⟩) = value.bytes.length :=
      if_pos (by omega)
    exact makes.fullExactly_of_charged metered (by omega) room

/-- Arguments are refused alike whatever the map, and for other reasons. -/
theorem fullExactly_of_denied {α : Type} {x : Except Status α} {s : Status} (denied : x = .error s)
    (fails : Fails (fun s => s ≠ .success ∧ s ≠ .mapFull) x)
    (told : ∀ n, ((env.withMap n).perform call).eval answer = (.ok s, env.withMap n)) :
    FullExactly answer env txn value call := by
  obtain ⟨failed, other⟩ := fails s denied
  have makes : Makes answer env call value (fun _ => .error (.status s)) fun _ _ => env :=
    fun n => ⟨fun _ => env, env.withMap n, told n⟩
  exact makes.fullExactly_of_refused (fun _ => rfl) (fun same => failed (Except.ok.inj same))
    fun same => other (Except.ok.inj same)

theorem fails_writable {P : Status → Prop} (invalid : P .invalid) (denied : P .accessDenied)
    (unknown : P .badDbi) : Fails P (env.writable txn dbi) := by
  unfold writable
  split
  · split
    · exact fails_ok _
    · exact fails_error unknown
  · exact fails_error denied
  · exact fails_error invalid

theorem put_fullExactly (balanced : Balanced env) (key : Option Descriptor) (flags : UInt32) :
    FullExactly answer env txn value (.put txn dbi key (some value) flags) := by
  cases admitted : env.admitPut txn dbi key (some value) flags with
  | error s =>
    refine fullExactly_of_denied admitted
      (admitPut_fails (by decide) (fun _ _ _ => by decide)
        (fails_writable (by decide) (by decide) (by decide))) fun n => ?_
    have here : (env.withMap n).admitPut txn dbi key (some value) flags = .error s := admitted
    rw [perform, Inquiry.eval_map, put, here]
    rfl
  | ok found =>
    obtain ⟨k, v, db⟩ := found
    obtain ⟨given, shown, within, valid, writable⟩ := admitPut_eq_ok.mp admitted
    cases key with
    | none => cases given
    | some key =>
      cases given
      have ok := writable_accounted balanced (writable_self writable)
      have makes : Makes answer env (.put txn dbi (some key) (some value) flags) value
          (fun limit => (db.holding.put db.layout limit (.ofFlags flags) key.bytes
            value.bytes).eval answer)
          (fun _ holding => env.keep db holding) := by
        refine fun n => ⟨fun _ => env.withMap n, env.withMap n, ?_⟩
        have writable' : (env.withMap n).writable txn dbi = .ok db := writable
        rw [perform, Inquiry.eval_map, eval_put_of_within writable' valid within]
        rfl
      exact fullExactly_of_metered balanced writable
        (Holding.metered_put ok (.ofFlags flags) key.bytes value.bytes) makes fun _ _ => rfl

theorem cursorPut_fullExactly (balanced : Balanced env) {cursor : Handle} {c : Cursor}
    (here : env.cursors.get? cursor = some c) (key : Option Descriptor) (flags : UInt32) :
    FullExactly answer env c.txn value (.cursorPut cursor key (some value) flags) := by
  cases admitted : env.admitCursorPut cursor key (some value) flags with
  | error s =>
    refine fullExactly_of_denied admitted
      (admitCursorPut_fails (by decide) (fun _ _ _ => by decide)
        fun _ _ => fails_writable (by decide) (by decide) (by decide)) fun n => ?_
    have denied : (env.withMap n).admitCursorPut cursor key (some value) flags = .error s :=
      admitted
    rw [perform, Inquiry.eval_map, cursorPut, denied]
    rfl
  | ok found =>
    obtain ⟨k, v, c', db⟩ := found
    obtain ⟨given, shown, within, valid, same, writable⟩ := admitCursorPut_eq_ok.mp admitted
    rw [here] at same
    cases same
    cases key with
    | none => cases given
    | some key =>
      cases given
      have ok := writable_accounted balanced (writable_self writable)
      have makes : Makes answer env (.cursorPut cursor (some key) (some value) flags) value
          (fun limit => (writePair c db limit flags key.bytes value.bytes).eval answer)
          (fun p holding => (env.keep db holding).setCursor cursor
            { c with place := some p, deleted := false }) := by
        refine fun n => ⟨fun p => (env.withMap n).setCursor cursor
          { c with place := some p, deleted := false },
          (env.withMap n).setCursor cursor { c with deleted := false }, ?_⟩
        have here' : (env.withMap n).cursors.get? cursor = some c := here
        have writable' : (env.withMap n).writable c.txn c.dbi = .ok db := writable
        rw [perform, Inquiry.eval_map, eval_cursorPut_of_within here' writable' valid within]
        rfl
      exact fullExactly_of_metered balanced writable
        (metered_writePair ok flags key.bytes value.bytes) makes fun _ _ => rfl

/-- **A put is refused for want of room exactly if what it would leave does not fit**, but for one
that makes two items one: it has to find room for the value put besides. -/
theorem map_is_full_exactly (reached : Reachable env) (puts : Puts env txn value call)
    (answer : Question → Ordering) : FullExactly answer env txn value call := by
  have balanced := reachable_balanced reached
  cases puts with
  | byKey dbi key flags => exact put_fullExactly balanced key flags
  | byCursor here within key flags =>
    subst within
    exact cursorPut_fullExactly balanced here key flags

/-- A second pair does not fit in a map of four bytes, but would in one of five. -/
theorem map_is_full_exactly_at_four_bytes :
    ∃ env env' answer, Reachable env ∧ env.config.mapSize = 4 ∧
      FullExactly answer env 1 (.filled [6, 6])
        (.put 1 1 (some (.filled [2])) (some (.filled [6, 6])) 0) ∧
      env.WouldLeave answer (.put 1 1 (some (.filled [2])) (some (.filled [6, 6])) 0) env' ∧
      env'.tally 1 Contents.size + env.slack 1 (.filled [6, 6]) env' = 5 ∧
      ((env.perform (.put 1 1 (some (.filled [2])) (some (.filled [6, 6])) 0)).eval answer).1 =
        .ok .mapFull := by
  let answer : Question → Ordering := fun _ => .eq
  obtain ⟨env, env', reached, size, leaves, total⟩ : ∃ env env', Reachable env ∧
      env.config.mapSize = 4 ∧
      env.WouldLeave answer (.put 1 1 (some (.filled [2])) (some (.filled [6, 6])) 0) env' ∧
      env'.tally 1 Contents.size + env.slack 1 (.filled [6, 6]) env' = 5 := by
    have start : Reachable (Environment.new 1 "" { mapSize := 4 }) :=
      ⟨1, "", { mapSize := 4 }, 0, .start⟩
    have begun := start.next (.txnBegin none 0) ⟨_, .done _⟩
    have first := begun.next (.put 1 1 (some (.filled [1])) (some (.filled [5])) 0) ⟨_, .done _⟩
    exact ⟨_, _, first, rfl, ⟨5, rfl⟩, rfl⟩
  have exactly : FullExactly answer env 1 (.filled [6, 6]) _ :=
    map_is_full_exactly reached (.byKey 1 (some (.filled [2])) 0) answer
  refine ⟨env, env', answer, reached, size, exactly, leaves, total, ?_⟩
  exact (exactly.exact env' leaves).mpr (by rw [total, size]; decide)

/-- Of two values in a full map the smaller cannot become the larger, though three of the four bytes
would do for what is left. -/
theorem merge_is_refused_in_a_full_map :
    ∃ env env' answer, Reachable env ∧ env.config.mapSize = 4 ∧
      Puts env 1 (.filled [7, 7])
        (.cursorPut 2 (some (.filled [1])) (some (.filled [7, 7])) Flags.current) ∧
      env.WouldLeave answer
        (.cursorPut 2 (some (.filled [1])) (some (.filled [7, 7])) Flags.current) env' ∧
      env'.readable 1 2 = .ok ([⟨[1], [[7, 7]]⟩], ⟨none, none, ⟨true, false⟩⟩) ∧
      env'.tally 1 Contents.size = 3 ∧ env.tally 1 Contents.size = 4 ∧
      ((env.perform (.cursorPut 2 (some (.filled [1])) (some (.filled [7, 7]))
        Flags.current)).eval answer).1 = .ok .mapFull := by
  have start : Reachable (Environment.new 1 "" { mapSize := 4 }) :=
    ⟨1, "", { mapSize := 4 }, 0, .start⟩
  have begun := start.next (.txnBegin none 0) ⟨_, .done _⟩
  have opened := begun.next (.dbiOpen 1 (some "values") (Flags.dupSort ||| Flags.create))
    ⟨_, .done _⟩
  have first := opened.next (.put 1 2 (some (.filled [1])) (some (.filled [5])) 0) ⟨_, .done _⟩
  have second := first.next (.put 1 2 (some (.filled [1])) (some (.filled [7, 7])) 0) ⟨_, .done _⟩
  have cursor := second.next (.cursorOpen 1 2) ⟨_, .done _⟩
  have moved := cursor.next (.cursorGet 2 none none CursorOp.first.code) ⟨_, .done _⟩
  exact ⟨_, _, fun _ => .eq, moved, rfl,
    .byCursor (c := ⟨1, 2, some ⟨0, 0⟩, false⟩) rfl rfl (some (.filled [1])) Flags.current,
    ⟨5, rfl⟩, rfl, rfl, rfl, rfl⟩

end

end Environment

end CollatedStore
