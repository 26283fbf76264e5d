import CollatedStore.Proofs.Environment.Twins

/-!
Calls that fail through a cursor. The mark that a deletion left is gone after one that got as far as
the cursor; nothing else is, so that only a step forward to an item can tell.
-/
namespace CollatedStore

/-- A call through the cursor that, should it fail with the status, leaves the cursor where it is. A
put that is refused because of an item moves the cursor there. -/
inductive Call.Stays (h : Handle) (s : Status) : Call → Prop
  | cursorGet (key data : Option Descriptor) (op : UInt32) : Stays h s (.cursorGet h key data op)
  | cursorPut (key data : Option Descriptor) (flags : UInt32) (free : s ≠ .keyExist) :
      Stays h s (.cursorPut h key data flags)

namespace Environment

variable {env env' : Environment}

/-- The cursor has lost its mark, if it had one. -/
inductive Unmarks (env : Environment) (h : Handle) : Environment → Prop
  | untouched : Unmarks env h env
  | unmarked {c : Cursor} (here : env.cursors.get? h = some c) :
      Unmarks env h (env.setCursor h { c with deleted := false })

section
variable {h : Handle} {key data : Option Descriptor} {op flags : UInt32} {s : Status}

theorem failed_cursorGet
    {reply : Reply Outcome Environment (Option Descriptor × Option Descriptor)}
    (made : (env.cursorGet h key data op).Yields reply) (ended : reply.ended = .ok s)
    (failed : s ≠ .success) : Unmarks env h reply.store := by
  cases cursorGet_ended (Inquiry.yields_iff.mp made) with
  | refused => exact .untouched
  | unknown here => exact .unmarked here
  | stuck admitted => exact .unmarked (admitMove_eq_ok.mp admitted).1
  | unread _ _ _ read =>
    -- Only a check that fails could keep an item from being read.
    obtain ⟨b, broken⟩ := unrefused_handOut _ _ _ _ _ read.yields
    rw [broken] at ended
    cases ended
  | yielded => exact absurd (Except.ok.inj ended).symm failed

theorem failed_cursorPut {reply : Reply Outcome Environment (Option Descriptor)}
    (made : (env.cursorPut h key data flags).Yields reply) (ended : reply.ended = .ok s)
    (failed : s ≠ .success) (free : s ≠ .keyExist) : Unmarks env h reply.store := by
  unfold cursorPut at made
  split at made
  · cases made
    exact .untouched
  · rename_i admitted
    have here := (admitCursorPut_eq_ok.mp admitted).2.2.2.2.1
    obtain ⟨result, _, ends⟩ := Inquiry.yields_bind.mp made
    split at ends
    · cases ends
      exact absurd (Except.ok.inj ended).symm failed
    · cases ends
      exact absurd (Except.ok.inj ended).symm free
    · cases ends
      exact .unmarked here

end

theorem Unmarks.of_failed {h : Handle} {call : Call} {s : Status} (stays : call.Stays h s)
    (made : (env.perform call).Yields (.ok s, env')) (failed : s ≠ .success) :
    Unmarks env h env' := by
  cases stays with
  | cursorGet key data op =>
    obtain ⟨reply, got, ends⟩ := Inquiry.yields_map.mp made
    obtain ⟨ended, rfl⟩ := Prod.mk.inj ends
    exact failed_cursorGet got ended.symm failed
  | cursorPut key data flags free =>
    obtain ⟨reply, put, ends⟩ := Inquiry.yields_map.mp made
    obtain ⟨ended, rfl⟩ := Prod.mk.inj ends
    exact failed_cursorPut put ended.symm failed free

theorem Unmarks.twin {h : Handle} (unmarks : Unmarks env h env') : Twin (some h) env env' := by
  cases unmarks with
  | untouched => exact .refl _ env
  | @unmarked c here =>
    refine ⟨_, ⟨fun k => ?_, fun k other => ?_⟩, rfl⟩
    · by_cases own : k = h
      · subst own
        rw [here, Table.get?_insert_self]
        exact .some ⟨false, rfl⟩
      · rw [Table.get?_insert_of_ne _ _ own]
        exact twin_refl _
    · exact Table.get?_insert_of_ne _ _ fun own => other (congrArg some own.symm)

/-- Without a mark there is nothing to lose. -/
theorem Unmarks.own {h : Handle} (unmarks : Unmarks env h env') :
    env'.cursors.get? h = env.cursors.get? h ∨ ∃ c, env.cursors.get? h = some c ∧
      c.deleted = true ∧ env'.cursors.get? h = some { c with deleted := false } := by
  cases unmarks with
  | untouched => exact .inl rfl
  | @unmarked c here =>
    have set : (env.setCursor h { c with deleted := false }).cursors.get? h =
        some { c with deleted := false } := Table.get?_insert_self _ _ _
    cases marked : c.deleted with
    | true => exact .inr ⟨c, here, marked, set⟩
    | false =>
      left
      rw [set, here, ← marked]

/-- What a call that fails costs the cursor it goes through. -/
structure CostsMark (h : Handle) (env env' : Environment) : Prop where
  /-- Nothing differs but the cursors, and no other cursor does. -/
  data : env' = { env with cursors := env'.cursors }
  others : ∀ k, k ≠ h → env'.cursors.get? k = env.cursors.get? k
  /-- The cursor is as it was, or has lost its mark and stands where it stood. -/
  own : env'.cursors.get? h = env.cursors.get? h ∨ ∃ c, env.cursors.get? h = some c ∧
    c.deleted = true ∧ env'.cursors.get? h = some { c with deleted := false }
  /-- All that is called later tells the same, unless a mark was lost and is missed. -/
  hidden : ∀ calls, env'.cursors.get? h = env.cursors.get? h ∨ Unheeded h calls →
    env'.results calls = env.results calls

/-- **A move or a put that fails costs its cursor the mark and no more**, in every state and
whatever the comparison functions answer. -/
theorem failed_calls_cost_the_mark_at_most {h : Handle} {call : Call} {s : Status}
    (reached : Reachable env) (stays : call.Stays h s)
    (made : (env.perform call).Yields (.ok s, env')) (failed : s ≠ .success) :
    CostsMark h env env' := by
  have unmarks := Unmarks.of_failed stays made failed
  have twin := unmarks.twin
  constructor
  case data =>
    obtain ⟨cursors, _, rfl⟩ := twin
    rfl
  case others =>
    intro k other
    obtain ⟨cursors, twins, rfl⟩ := twin
    exact twins.others k fun own => other (Option.some.inj own).symm
  case own => exact unmarks.own
  case hidden =>
    rintro calls (same | unheeded)
    · exact (results_twin reached (twin.alone same) nofun).eq
    · refine (results_twin reached twin fun k excepted => ?_).eq
      cases excepted
      exact unheeded

/-- Of three keys the first was deleted, and then a key was looked up that is not there. -/
theorem lookup_after_deletion :
    ∃ env env', Reachable env ∧ (env.cursors.get? 2).map Cursor.deleted = some true ∧
      (env.perform (.cursorGet 2 (some (.filled [9])) none CursorOp.set.code)).Yields
        (.ok .notFound, env') ∧
      env.results [.cursorGet 2 (some .empty) none CursorOp.next.code] =
        .done [(.ok .success, .pair (some (.filled [2])) none)] ∧
      env'.results [.cursorGet 2 (some .empty) none CursorOp.next.code] =
        .done [(.ok .success, .pair (some (.filled [3])) none)] := by
  have start : Reachable (Environment.new 1 "" {}) := ⟨1, "", {}, 0, .start⟩
  have begun := start.next (.txnBegin none 0) ⟨_, .done _⟩
  have first := begun.next (.put 1 rootDbi (some (.filled [1])) (some .empty) 0) ⟨_, .done _⟩
  have second := first.next (.put 1 rootDbi (some (.filled [2])) (some .empty) 0) ⟨_, .done _⟩
  have third := second.next (.put 1 rootDbi (some (.filled [3])) (some .empty) 0) ⟨_, .done _⟩
  have cursor := third.next (.cursorOpen 1 rootDbi) ⟨_, .done _⟩
  have moved := cursor.next (.cursorGet 2 none none CursorOp.first.code) ⟨_, .done _⟩
  have deleted := moved.next (.cursorDel 2 0) ⟨_, .done _⟩
  exact ⟨_, _, deleted, rfl, .done _, rfl, rfl⟩

/-- The lookup that failed does not show if the current item is asked for before the next one. -/
theorem failed_calls_cost_the_mark_at_most_before_a_look :
    ∃ env env', Reachable env ∧ (env.cursors.get? 2).map Cursor.deleted = some true ∧
      (env.perform (.cursorGet 2 (some (.filled [9])) none CursorOp.set.code)).Yields
        (.ok .notFound, env') ∧
      env'.results [.cursorGet 2 (some .empty) none CursorOp.getCurrent.code,
          .cursorGet 2 (some .empty) none CursorOp.next.code] =
        env.results [.cursorGet 2 (some .empty) none CursorOp.getCurrent.code,
          .cursorGet 2 (some .empty) none CursorOp.next.code] := by
  obtain ⟨env, env', reached, marked, made, _, _⟩ := lookup_after_deletion
  have costs := failed_calls_cost_the_mark_at_most reached (.cursorGet _ _ _) made (by decide)
  refine ⟨env, env', reached, marked, made, costs.hidden _ (.inr ?_)⟩
  intro call found
  cases found
  rfl

/-- A lookup that fails after a deletion makes the next step pass over an item. -/
theorem failed_lookup_passes_over_an_item :
    ∃ env env', Reachable env ∧
      (env.perform (.cursorGet 2 (some (.filled [9])) none CursorOp.set.code)).Yields
        (.ok .notFound, env') ∧
      env'.results [.cursorGet 2 (some .empty) none CursorOp.next.code] ≠
        env.results [.cursorGet 2 (some .empty) none CursorOp.next.code] := by
  obtain ⟨env, env', reached, _, made, yields, passes⟩ := lookup_after_deletion
  refine ⟨env, env', reached, made, ?_⟩
  rw [yields, passes]
  simp

end Environment

end CollatedStore
