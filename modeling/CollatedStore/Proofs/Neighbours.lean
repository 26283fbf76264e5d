import CollatedStore.Proofs.Edits

/-!
Writes beside different neighbours. The bytes in use are counted over all databases of a snapshot,
so that what the others hold decides whether there is room for a write; nothing else of what the
write comes to depends on them.
-/
namespace CollatedStore

namespace Work

variable {α β : Type}

/-- Both come to the same stop or to related results, unless one is refused for want of room. -/
inductive UnlessFull (R : α → β → Prop) : Except Stop α → Except Stop β → Prop
  | stopped (stop : Stop) : UnlessFull R (.error stop) (.error stop)
  | done {a : α} {b : β} (h : R a b) : UnlessFull R (.ok a) (.ok b)
  | full (result : Except Stop β) : UnlessFull R (.error (.status .mapFull)) result
  | fullBeside (result : Except Stop α) : UnlessFull R result (.error (.status .mapFull))

section
variable {γ δ : Type} {R : α → β → Prop} {T : γ → δ → Prop}

theorem UnlessFull.bind {x : Except Stop α} {x' : Except Stop β} {f : α → Except Stop γ}
    {f' : β → Except Stop δ} (first : UnlessFull R x x')
    (later : ∀ a b, R a b → UnlessFull T (f a) (f' b)) : UnlessFull T (x >>= f) (x' >>= f') := by
  cases first with
  | stopped stop => exact .stopped stop
  | done h => exact later _ _ h
  | full => exact .full _
  | fullBeside => exact .fullBeside _

/-- After a step that is the same on both sides. -/
theorem UnlessFull.after (x : Except Stop α) {f : α → Except Stop γ} {f' : α → Except Stop δ}
    (later : ∀ a, x = .ok a → UnlessFull T (f a) (f' a)) : UnlessFull T (x >>= f) (x >>= f') := by
  cases x with
  | error stop => exact .stopped stop
  | ok a => exact later a rfl

end

theorem unlessFull_refl {R : α → α → Prop} (refl : ∀ a, R a a) (x : Except Stop α) :
    UnlessFull R x x := by
  cases x with
  | error stop => exact .stopped stop
  | ok a => exact .done (refl a)

end Work

open Work

namespace Holding

/-- The same place among the same entries. -/
def SamePlaced (placed placed' : Place × Holding) : Prop :=
  placed'.1 = placed.1 ∧ placed'.2.entries = placed.2.entries

theorem SamePlaced.refl (placed : Place × Holding) : SamePlaced placed placed := ⟨rfl, rfl⟩

section
variable {answer : Question → Ordering} {layout : Layout} {limit limit' used used' : Nat}
  {entries : Contents} {rule : PutRule} {key value : Bytes} {i : Nat} {p : Place}

theorem charge_unlessFull {add sub : Nat} (within : sub ≤ used) (within' : sub ≤ used') :
    UnlessFull (fun n n' => add ≤ n ∧ add ≤ n') ((charge limit used add sub).eval answer)
      ((charge limit' used' add sub).eval answer) := by
  rw [eval_charge answer within, eval_charge answer within']
  split
  · exact .full _
  · split
    · exact .fullBeside _
    · exact .done ⟨Nat.le_add_left _ _, Nat.le_add_left _ _⟩

/-- Charging for a value in place of one that is stored. -/
theorem recharge_unlessFull {add i j : Nat} {e : Entry} {old : Bytes}
    (stood : (itemAt entries i).eval answer = .ok e)
    (was : (itemAt e.values j).eval answer = .ok old) (counted : entries.size ≤ used)
    (counted' : entries.size ≤ used') :
    UnlessFull (fun n n' => add ≤ n ∧ add ≤ n') ((charge limit used add old.length).eval answer)
      ((charge limit' used' add old.length).eval answer) := by
  have given := Contents.value_le_size ((eval_itemAt_eq_ok answer).mp stood)
    ((eval_itemAt_eq_ok answer).mp was)
  exact charge_unlessFull (by omega) (by omega)

theorem putNew_unlessFull :
    UnlessFull SamePlaced ((putNew limit rule key value ⟨entries, used⟩ i).eval answer)
      ((putNew limit' rule key value ⟨entries, used'⟩ i).eval answer) := by
  unfold putNew
  dsimp only
  split
  · exact .stopped _
  · simp only [eval_bind]
    refine (charge_unlessFull (Nat.zero_le _) (Nat.zero_le _)).bind fun n n' _ => ?_
    exact .after _ fun stored _ => .done ⟨rfl, rfl⟩

theorem overwrite_unlessFull (counted : entries.size ≤ used) (counted' : entries.size ≤ used') :
    UnlessFull SamePlaced ((overwrite limit value ⟨entries, used⟩ i).eval answer)
      ((overwrite limit' value ⟨entries, used'⟩ i).eval answer) := by
  unfold overwrite
  simp only [eval_bind]
  refine .after _ fun e stood => .after _ fun old was => ?_
  refine (recharge_unlessFull stood was counted counted').bind fun n n' _ => ?_
  exact .after _ fun values _ => .after _ fun stored _ => .done ⟨rfl, rfl⟩

theorem putValue_unlessFull :
    UnlessFull SamePlaced ((putValue layout limit rule value ⟨entries, used⟩ i).eval answer)
      ((putValue layout limit' rule value ⟨entries, used'⟩ i).eval answer) := by
  unfold putValue
  simp only [eval_bind]
  refine .after _ fun e _ => .after _ fun _ _ => .after _ fun spot _ => ?_
  cases spot with
  | found j =>
    dsimp only
    split
    · exact unlessFull_refl .refl _
    · exact .done ⟨rfl, rfl⟩
  | absent j =>
    dsimp only
    split
    · exact unlessFull_refl .refl _
    · simp only [eval_bind]
      refine (charge_unlessFull (Nat.zero_le _) (Nat.zero_le _)).bind fun n n' _ => ?_
      exact .after _ fun values _ => .after _ fun stored _ => .done ⟨rfl, rfl⟩

theorem put_unlessFull (counted : entries.size ≤ used) (counted' : entries.size ≤ used') :
    UnlessFull SamePlaced
      (((⟨entries, used⟩ : Holding).put layout limit rule key value).eval answer)
      (((⟨entries, used'⟩ : Holding).put layout limit' rule key value).eval answer) := by
  unfold put
  simp only [eval_bind]
  refine .after _ fun spot _ => ?_
  cases spot with
  | absent i => exact putNew_unlessFull
  | found i =>
    dsimp only
    split
    · exact unlessFull_refl .refl _
    · split
      · exact .stopped _
      · split
        · exact putValue_unlessFull
        · exact overwrite_unlessFull counted counted'

theorem replaceAt_unlessFull (counted : entries.size ≤ used) (counted' : entries.size ≤ used') :
    UnlessFull SamePlaced
      (((⟨entries, used⟩ : Holding).replaceAt layout limit p value).eval answer)
      (((⟨entries, used'⟩ : Holding).replaceAt layout limit' p value).eval answer) := by
  unfold replaceAt
  simp only [eval_bind]
  refine .after _ fun e stood => .after _ fun old was => ?_
  split
  · simp only [eval_bind]
    refine .after _ fun _ _ => ?_
    refine (recharge_unlessFull stood was counted counted').bind fun n n' left => ?_
    refine .after _ fun rest _ => .after _ fun spot _ => ?_
    cases spot with
    | found k =>
      simp only [eval_bind, eval_minus answer left.1, eval_minus answer left.2, ok_bind]
      exact .after _ fun stored _ => .done ⟨rfl, rfl⟩
    | absent k =>
      simp only [eval_bind]
      exact .after _ fun values _ => .after _ fun stored _ => .done ⟨rfl, rfl⟩
  · simp only [eval_bind]
    refine (recharge_unlessFull stood was counted counted').bind fun n n' _ => ?_
    exact .after _ fun values _ => .after _ fun stored _ => .done ⟨rfl, rfl⟩

theorem removeAt_unlessFull {all : Bool} (counted : entries.size ≤ used)
    (counted' : entries.size ≤ used') :
    UnlessFull SamePlaced ((removeAt p all ⟨entries, used⟩).eval answer)
      ((removeAt p all ⟨entries, used'⟩).eval answer) := by
  unfold removeAt
  simp only [eval_bind]
  refine .after _ fun e stood => ?_
  have stood := (eval_itemAt_eq_ok answer).mp stood
  split
  · have held := Contents.entry_le_size stood
    have within : e.size ≤ used := by omega
    have within' : e.size ≤ used' := by omega
    simp only [eval_bind, eval_minus answer within, eval_minus answer within', ok_bind]
    exact .after _ fun stored _ => .done ⟨rfl, rfl⟩
  · simp only [eval_bind]
    refine .after _ fun removed was => .after _ fun values _ => .after _ fun stored _ => ?_
    have given := Contents.value_le_size stood ((eval_itemAt_eq_ok answer).mp was)
    rw [eval_minus answer (by omega), eval_minus answer (by omega)]
    exact .done ⟨rfl, rfl⟩

theorem remove_unlessFull {removed : Option Bytes} (counted : entries.size ≤ used)
    (counted' : entries.size ≤ used') :
    UnlessFull (fun left left' => left'.entries = left.entries)
      (((⟨entries, used⟩ : Holding).remove layout key removed).eval answer)
      (((⟨entries, used'⟩ : Holding).remove layout key removed).eval answer) := by
  have removes : ∀ p all, UnlessFull (fun left left' => left'.entries = left.entries)
      ((do return (← removeAt p all ⟨entries, used⟩).2 : Work Holding).eval answer)
      ((do return (← removeAt p all ⟨entries, used'⟩).2 : Work Holding).eval answer) := by
    intro p all
    simp only [eval_bind]
    exact (removeAt_unlessFull counted counted').bind fun _ _ same => .done same.2
  unfold remove
  simp only [eval_bind]
  refine .after _ fun spot _ => ?_
  cases spot with
  | absent i => exact .stopped _
  | found i =>
    dsimp only
    split
    · simp only [eval_bind]
      refine .after _ fun e _ => .after _ fun spot _ => ?_
      cases spot with
      | absent j => exact .stopped _
      | found j => exact removes _ _
    · exact removes _ _

end

end Holding

end CollatedStore
