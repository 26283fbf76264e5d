import CollatedStore.Proofs.Edits

/-!
Steps whose checks all hold. What a step comes to is tracked along with the promise that it never
breaks off, whatever the comparisons answer; so each check is met by what the steps before it left.
-/
namespace CollatedStore

/-- A stop that is a refusal, and no failed check. The database is not at fault, and where there is
room, the map is not full. -/
def Stop.Due (roomy : Prop) : Stop → Prop
  | .status s => s ≠ .success ∧ s ≠ .badDbi ∧ (roomy → s ≠ .mapFull)
  | .existing _ _ => True
  | .broken _ => False

theorem Stop.Due.outcome {roomy : Prop} {stop : Stop} (due : stop.Due roomy) :
    ∃ s, stop.outcome = .ok s ∧ s ≠ .success := by
  cases stop with
  | status s => exact ⟨s, rfl, due.1⟩
  | existing p v => exact ⟨.keyExist, rfl, by decide⟩
  | broken b => cases due

theorem Stop.Due.outcome_ne_badDbi {roomy : Prop} {stop : Stop} (due : stop.Due roomy) :
    stop.outcome ≠ .ok .badDbi := by
  intro told
  cases stop with
  | status s => exact due.2.1 (Except.ok.inj told)
  | existing p v => exact absurd (Except.ok.inj told) (by decide)
  | broken b => cases told

theorem Stop.Due.outcome_ne_mapFull {stop : Stop} (due : stop.Due True) :
    stop.outcome ≠ .ok .mapFull := by
  intro told
  cases stop with
  | status s => exact due.2.2 trivial (Except.ok.inj told)
  | existing p v => exact absurd (Except.ok.inj told) (by decide)
  | broken b => cases told

namespace Work

variable {α β : Type}

/-- Whatever the answers, the step comes to something that satisfies `post`, or to a due stop. -/
structure Ensures (roomy : Prop) (w : Work α) (post : α → Prop) : Prop where
  result : ∀ {a}, w.run.Yields (.ok a) → post a
  stop : ∀ {stop}, w.run.Yields (.error stop) → stop.Due roomy

section
variable {roomy : Prop} {post mid : α → Prop}

theorem Ensures.unbroken {x : Work α} {stop : Stop} (h : Ensures roomy x post)
    (stopped : x.run.Yields (.error stop)) : ∃ s, stop.outcome = .ok s ∧ s ≠ .success :=
  (h.stop stopped).outcome

/-- Fixed answers are some answers. -/
theorem Ensures.of_eval {x : Work α} (h : Ensures roomy x post) {answer : Question → Ordering}
    {a : α} (made : x.eval answer = .ok a) : post a :=
  h.result (made ▸ Inquiry.yields_eval answer x.run)

theorem ensures_pure {a : α} (h : post a) : Ensures roomy (pure a) post := by
  constructor
  · intro b made
    rw [yields_pure.mp made]
    exact h
  · exact nofun

theorem ensures_refuse {s : Status} (h : s ≠ .success ∧ s ≠ .badDbi ∧ s ≠ .mapFull) :
    Ensures roomy (refuse s) post := by
  constructor
  · exact nofun
  · intro stop made
    cases made
    exact ⟨h.1, h.2.1, fun _ => h.2.2⟩

theorem Ensures.bind {x : Work α} {f : α → Work β} {post : β → Prop} (first : Ensures roomy x mid)
    (later : ∀ a, mid a → Ensures roomy (f a) post) : Ensures roomy (x >>= f) post := by
  constructor
  · intro b made
    obtain ⟨a, met, made⟩ := yields_bind.mp made
    exact (later a (first.result met)).result made
  · intro stop made
    rw [ExceptT.run_bind, Inquiry.yields_bind] at made
    obtain ⟨found, met, made⟩ := made
    cases found with
    | ok a => exact (later a (first.result met)).stop made
    | error cut =>
      cases made
      exact first.stop met

theorem Ensures.mono {x : Work α} (h : Ensures roomy x mid) (imp : ∀ a, mid a → post a) :
    Ensures roomy x post :=
  ⟨fun made => imp _ (h.result made), h.stop⟩

theorem Ensures.map {x : Work α} {f : α → β} {post : β → Prop}
    (h : Ensures roomy x fun a => post (f a)) : Ensures roomy (f <$> x) post := by
  rw [map_eq_pure_bind]
  exact h.bind fun a ha => ensures_pure ha

/-- A guarded step gets through where its guard holds. -/
theorem ensures_guarded {inside : Prop} [Decidable inside] {a : α} {fault : Breach}
    (h : inside) : Ensures roomy (if inside then pure a else breach fault) (· = a) := by
  rw [if_pos h]
  exact ensures_pure rfl

theorem ensures_itemAt_of {xs : List α} {i : Nat} {x : α} (stood : xs[i]? = some x) :
    Ensures roomy (itemAt xs i) (· = x) := by
  unfold itemAt
  rw [stood]
  exact ensures_pure rfl

theorem ensures_itemAt {xs : List α} {i : Nat} (inside : i < xs.length) :
    Ensures roomy (itemAt xs i) fun x => xs[i]? = some x := by
  have stood := List.getElem?_eq_getElem inside
  exact (ensures_itemAt_of stood).mono fun x same => same ▸ stood

theorem ensures_setAt {xs : List α} {i : Nat} {x : α} (inside : i < xs.length) :
    Ensures roomy (setAt xs i x) (· = xs.set i x) := ensures_guarded inside

theorem ensures_insertAt {xs : List α} {i : Nat} {x : α} (inside : i ≤ xs.length) :
    Ensures roomy (insertAt xs i x) (· = xs.insertIdx i x) := ensures_guarded inside

theorem ensures_eraseAt {xs : List α} {i : Nat} (inside : i < xs.length) :
    Ensures roomy (eraseAt xs i) (· = xs.eraseIdx i) := ensures_guarded inside

end

theorem ensures_minus {roomy : Prop} {a b : Nat} (h : b ≤ a) :
    Ensures roomy (minus a b) (· = a - b) := ensures_guarded h

/-- A comparison may answer anything. -/
theorem ensures_compare {roomy : Prop} (fn : Option CompareFn) (a b : Bytes) :
    Ensures roomy (compare fn a b) fun _ => True := by
  cases fn with
  | none => exact ensures_pure trivial
  | some fn =>
    refine ⟨fun _ => trivial, fun {stop} made => ?_⟩
    cases made with
    | ask o made => cases made

end Work

open Work

/-! ## Searches -/

/-- The spot is one of a list of this length. -/
def Spot.Inside (length : Nat) : Spot → Prop
  | .found i => i < length
  | .absent i => i ≤ length

namespace Search

/-- The candidates stay within the list, so that every probe is of an item. -/
theorem ensures_narrow {roomy : Prop} {length : Nat} {probe : Nat → Work Ordering}
    (probed : ∀ i, i < length → Ensures roomy (probe i) fun _ => True) (fuel base size : Nat)
    (left : 0 < size) (within : base + size ≤ length) :
    Ensures roomy (narrow probe fuel base size) (· < length) := by
  induction fuel generalizing base size with
  | zero => exact ensures_pure (by omega)
  | succ fuel ih =>
    unfold narrow
    split
    · exact ensures_pure (by omega)
    · refine (probed (base + size / 2) (by omega)).bind fun o _ => ?_
      split
      · exact ih base (size - size / 2) (by omega) (by omega)
      · exact ih (base + size / 2) (size - size / 2) (by omega) (by omega)

theorem ensures_locate {α : Type} {roomy : Prop} (xs : List α) {against : α → Work Ordering}
    (compared : ∀ x, Ensures roomy (against x) fun _ => True) :
    Ensures roomy (locate xs against) (·.Inside xs.length) := by
  unfold locate
  cases xs with
  | nil => exact ensures_pure (Nat.le_refl 0)
  | cons x rest =>
    have probed : ∀ i, i < (x :: rest).length →
        Ensures roomy (do against (← itemAt (x :: rest) i)) fun _ => True :=
      fun i inside => (ensures_itemAt inside).bind fun y _ => compared y
    have narrowed := ensures_narrow probed (x :: rest).length 0 (x :: rest).length
      (Nat.succ_pos _) (by omega)
    refine narrowed.bind fun base inside => (probed base inside).bind fun o _ => ?_
    cases o with
    | eq => exact ensures_pure inside
    | lt => exact ensures_pure inside
    | gt => exact ensures_pure (Nat.le_of_lt inside)

end Search

namespace Contents

variable {roomy : Prop} {entries : Contents} {p : Place}

theorem ensures_find (layout : Layout) (entries : Contents) (key : Bytes) :
    Ensures roomy (find layout entries key) (·.Inside entries.length) :=
  Search.ensures_locate entries fun e => ensures_compare layout.keyOrder e.key key

theorem ensures_findIn (layout : Layout) (values : List Bytes) (value : Bytes) :
    Ensures roomy (findIn layout values value) (·.Inside values.length) :=
  Search.ensures_locate values fun v => ensures_compare layout.valueOrder v value

/-- Where no entry is without a value, each has a first one. -/
theorem holds_first (inhabited : ∀ e ∈ entries, e.values ≠ []) {i : Nat}
    (inside : i < entries.length) : entries.holds ⟨i, 0⟩ = true :=
  holds_iff.mpr ⟨entries[i], List.getElem?_eq_getElem inside,
    List.length_pos_iff.mpr (inhabited _ (List.getElem_mem inside))⟩

theorem ensures_valueAt (holds : entries.holds p = true) :
    Ensures roomy (entries.valueAt p) fun v =>
      ∃ e, entries[p.entry]? = some e ∧ e.values[p.value]? = some v := by
  obtain ⟨e, stood, inside⟩ := holds_iff.mp holds
  refine (ensures_itemAt_of stood).bind fun e' same => ?_
  subst same
  exact (ensures_itemAt inside).mono fun v was => ⟨e', stood, was⟩

theorem ensures_occupied {α : Type} {post : α → Prop} (holds : entries.holds p = true) :
    Ensures roomy (entries.occupied p : Work α) post := by
  refine (ensures_valueAt holds).bind fun v _ => ?_
  constructor
  · exact nofun
  · intro stop made
    cases made
    trivial

end Contents

/-! ## Writes -/

namespace Holding

variable {roomy : Prop} {layout : Layout} {limit rest used : Nat} {rule : PutRule}
  {key value : Bytes} {h : Holding} {i : Nat} {e : Entry} {p : Place}

/-- The bytes of an entry are among those in use. -/
theorem Accounted.entry_within (ok : Accounted layout limit rest h)
    (stood : h.entries[i]? = some e) : e.size ≤ h.used := by
  have size := Contents.entry_le_size stood
  have used := ok.used
  omega

theorem Accounted.value_within (ok : Accounted layout limit rest h)
    (stood : h.entries[i]? = some e) {j : Nat} (was : e.values[j]? = some value) :
    value.length ≤ h.used :=
  Nat.le_trans (Entry.value_le_size was) (ok.entry_within stood)

theorem Accounted.inhabited (ok : Accounted layout limit rest h) :
    ∀ e ∈ h.entries, e.values ≠ [] :=
  fun e he => (ok.entries e he).inhabited

theorem ensures_charge {add sub : Nat} (within : sub ≤ used)
    (room : roomy → used - sub + add ≤ limit) :
    Ensures roomy (charge limit used add sub) (· = used - sub + add) := by
  refine (ensures_minus within).bind fun left taken => ?_
  subst taken
  dsimp only
  split
  · rename_i full
    refine ⟨nofun, fun {stop} made => ?_⟩
    cases made
    exact ⟨by decide, by decide, fun enough => absurd (room enough) (Nat.not_le.mpr full)⟩
  · exact ensures_pure rfl

theorem ensures_putNew (inside : i ≤ h.entries.length)
    (room : roomy → h.used + (key.length + value.length) ≤ limit) :
    Ensures roomy (putNew limit rule key value h i) fun _ => True := by
  unfold putNew
  split
  · exact ensures_refuse (by decide)
  · refine (ensures_charge (Nat.zero_le _) room).bind fun used _ => ?_
    exact (ensures_insertAt inside).bind fun entries _ => ensures_pure trivial

theorem ensures_overwrite (ok : Accounted layout limit rest h) (inside : i < h.entries.length)
    (room : roomy → h.used + value.length ≤ limit) :
    Ensures roomy (overwrite limit value h i) fun _ => True := by
  refine (ensures_itemAt inside).bind fun e stood => ?_
  have first := List.length_pos_iff.mpr (ok.inhabited e (List.mem_of_getElem? stood))
  refine (ensures_itemAt first).bind fun old was => ?_
  have within := ok.value_within stood was
  refine (ensures_charge within fun enough => ?_).bind fun used _ => ?_
  · have enough := room enough
    omega
  · refine (ensures_setAt first).bind fun values _ => ?_
    exact (ensures_setAt inside).bind fun entries _ => ensures_pure trivial

theorem ensures_checkLength {values : List Bytes} {like : Nat} (inside : like < values.length) :
    Ensures roomy (checkLength layout values like value) fun _ => True := by
  unfold checkLength
  split
  · refine (ensures_itemAt inside).bind fun v _ => ?_
    split
    · exact ensures_pure trivial
    · exact ensures_refuse (by decide)
  · exact ensures_pure trivial

theorem ensures_putValue (ok : Accounted layout limit rest h) (inside : i < h.entries.length)
    (room : roomy → h.used + value.length ≤ limit) :
    Ensures roomy (putValue layout limit rule value h i) fun _ => True := by
  refine (ensures_itemAt inside).bind fun e stood => ?_
  have first := List.length_pos_iff.mpr (ok.inhabited e (List.mem_of_getElem? stood))
  refine (ensures_checkLength first).bind fun _ _ => ?_
  refine (Contents.ensures_findIn layout e.values value).bind fun spot among => ?_
  cases spot with
  | found j =>
    dsimp only
    split
    · exact Contents.ensures_occupied (Contents.holds_iff.mpr ⟨e, stood, among⟩)
    · exact ensures_pure trivial
  | absent j =>
    dsimp only
    split
    · refine (ensures_minus first).bind fun last same => ?_
      subst same
      have stands : h.entries.holds ⟨i, e.values.length - 1⟩ = true :=
        Contents.holds_iff.mpr ⟨e, stood, Nat.sub_one_lt_of_lt first⟩
      exact Contents.ensures_occupied stands
    · refine (ensures_charge (Nat.zero_le _) room).bind fun used _ => ?_
      refine (ensures_insertAt among).bind fun values _ => ?_
      exact (ensures_setAt inside).bind fun entries _ => ensures_pure trivial

/-- A put is not refused for want of room where there is room for the whole pair. -/
theorem ensures_put (ok : Accounted layout limit rest h)
    (room : roomy → h.used + (key.length + value.length) ≤ limit) :
    Ensures roomy (h.put layout limit rule key value) fun _ => True := by
  refine (Contents.ensures_find layout h.entries key).bind fun spot inside => ?_
  have less : roomy → h.used + value.length ≤ limit := fun enough => by
    have := room enough
    omega
  cases spot with
  | absent i => exact ensures_putNew inside room
  | found i =>
    dsimp only
    split
    · exact Contents.ensures_occupied (Contents.holds_first ok.inhabited inside)
    · split
      · exact ensures_refuse (by decide)
      · split
        · exact ensures_putValue ok inside less
        · exact ensures_overwrite ok inside less

theorem ensures_replaceAt (ok : Accounted layout limit rest h) (holds : h.entries.holds p = true)
    (room : roomy → h.used + value.length ≤ limit) :
    Ensures roomy (h.replaceAt layout limit p value) fun _ => True := by
  obtain ⟨e, stood, there⟩ := Contents.holds_iff.mp holds
  have inside := Contents.entry_lt_of_holds holds
  refine (ensures_itemAt_of stood).bind fun e' same => ?_
  subst same
  refine (ensures_itemAt there).bind fun old was => ?_
  have within := ok.value_within stood was
  have charged : Ensures roomy (charge limit h.used value.length old.length)
      (· = h.used - old.length + value.length) := by
    refine ensures_charge within fun enough => ?_
    have enough := room enough
    omega
  split
  · refine (ensures_checkLength there).bind fun _ _ => charged.bind fun used same => ?_
    refine (ensures_eraseAt there).bind fun others _ => ?_
    refine (Contents.ensures_findIn layout others value).bind fun spot among => ?_
    cases spot with
    | found k =>
      -- The bytes charged for the value are given back.
      refine (ensures_setAt inside).bind fun entries _ => ?_
      exact (ensures_minus (by omega)).bind fun used _ => ensures_pure trivial
    | absent k =>
      refine (ensures_insertAt among).bind fun values _ => ?_
      exact (ensures_setAt inside).bind fun entries _ => ensures_pure trivial
  · refine charged.bind fun used _ => ?_
    refine (ensures_setAt (Nat.zero_lt_of_lt there)).bind fun values _ => ?_
    exact (ensures_setAt inside).bind fun entries _ => ensures_pure trivial

theorem ensures_removeAt {all : Bool} (ok : Accounted layout limit rest h)
    (holds : h.entries.holds p = true) : Ensures roomy (h.removeAt p all) fun _ => True := by
  obtain ⟨e, stood, there⟩ := Contents.holds_iff.mp holds
  have inside := Contents.entry_lt_of_holds holds
  refine (ensures_itemAt_of stood).bind fun e' same => ?_
  subst same
  split
  · refine (ensures_eraseAt inside).bind fun entries _ => ?_
    exact (ensures_minus (ok.entry_within stood)).bind fun used _ => ensures_pure trivial
  · refine (ensures_itemAt there).bind fun removed was => ?_
    refine (ensures_eraseAt there).bind fun values _ => ?_
    refine (ensures_setAt inside).bind fun entries _ => ?_
    exact (ensures_minus (ok.value_within stood was)).bind fun used _ => ensures_pure trivial

theorem ensures_remove {removed : Option Bytes} (ok : Accounted layout limit rest h) :
    Ensures roomy (h.remove layout key removed) fun _ => True := by
  refine (Contents.ensures_find layout h.entries key).bind fun spot inside => ?_
  cases spot with
  | absent i => exact ensures_refuse (by decide)
  | found i =>
    have stands := Contents.holds_first ok.inhabited inside
    dsimp only
    split
    · refine (ensures_itemAt inside).bind fun e stood => ?_
      refine (Contents.ensures_findIn layout e.values _).bind fun spot among => ?_
      cases spot with
      | absent j => exact ensures_refuse (by decide)
      | found j =>
        have stands : h.entries.holds ⟨i, j⟩ = true := Contents.holds_iff.mpr ⟨e, stood, among⟩
        exact (ensures_removeAt ok stands).bind fun _ _ => ensures_pure trivial
    · exact (ensures_removeAt ok stands).bind fun _ _ => ensures_pure trivial

end Holding

end CollatedStore
