import CollatedStore.Host

/-!
What an inquiry may come to when nothing is known of the answers: they may contradict each other,
and one question may be answered differently each time it is asked.
-/
namespace CollatedStore

theorem bind_eq_ok {ε α β : Type} {x : Except ε α} {f : α → Except ε β} {b : β} :
    (x >>= f) = .ok b ↔ ∃ a, x = .ok a ∧ f a = .ok b := by
  cases x with
  | error e => simp [bind, Except.bind]
  | ok a => simp [bind, Except.bind]

theorem Session.bind_apply {α β : Type} (x : Session α) (f : α → Session β) (host : Host) :
    (x >>= f) host = (x host).bind fun done => f done.1 done.2 := rfl

namespace Inquiry

variable {α β : Type}

/-- Some answers lead the inquiry to this value. -/
inductive Yields : Inquiry α → α → Prop
  | done (a : α) : Yields (.done a) a
  | ask {q : Question} {next : Ordering → Inquiry α} (o : Ordering) {a : α} :
      Yields (next o) a → Yields (.ask q next) a

/-- Some answers that `may` allows lead the inquiry to this value. -/
inductive YieldsBy (may : Question → Ordering → Prop) : Inquiry α → α → Prop
  | done (a : α) : YieldsBy may (.done a) a
  | ask {q : Question} {next : Ordering → Inquiry α} {o : Ordering} {a : α} (allowed : may q o) :
      YieldsBy may (next o) a → YieldsBy may (.ask q next) a

section
variable {may : Question → Ordering → Prop}

theorem yieldsBy_done {a b : α} : (Inquiry.done a).YieldsBy may b ↔ b = a := by
  constructor
  · intro h; cases h; rfl
  · rintro rfl; exact .done b

theorem yieldsBy_bind {x : Inquiry α} {f : α → Inquiry β} {b : β} :
    (x >>= f).YieldsBy may b ↔ ∃ a, x.YieldsBy may a ∧ (f a).YieldsBy may b := by
  induction x with
  | done a => simp [yieldsBy_done]
  | ask q next ih =>
    constructor
    · intro h
      rw [ask_bind] at h
      cases h with
      | ask allowed h =>
        obtain ⟨a, ha, hb⟩ := (ih _).mp h
        exact ⟨a, .ask allowed ha, hb⟩
    · rintro ⟨a, ha, hb⟩
      cases ha with
      | ask allowed ha => exact .ask allowed ((ih _).mpr ⟨a, ha, hb⟩)

theorem yieldsBy_map {x : Inquiry α} {f : α → β} {b : β} :
    (f <$> x).YieldsBy may b ↔ ∃ a, x.YieldsBy may a ∧ b = f a := by
  rw [map_eq_pure_bind, yieldsBy_bind]
  simp only [pure_eq, yieldsBy_done]

theorem YieldsBy.yields {x : Inquiry α} {a : α} (h : x.YieldsBy may a) : x.Yields a := by
  induction h with
  | done a => exact .done a
  | ask _ _ ih => exact .ask _ ih

end

/-- Nothing is known of the answers if all are allowed. -/
theorem yields_iff {x : Inquiry α} {a : α} : x.Yields a ↔ x.YieldsBy (fun _ _ => True) a := by
  refine ⟨fun h => ?_, YieldsBy.yields⟩
  induction h with
  | done a => exact .done a
  | ask _ _ ih => exact .ask trivial ih

/-- If one answer is allowed to each question, there is one value to come to. -/
theorem yieldsBy_answer {answer : Question → Ordering} {x : Inquiry α} {a : α} :
    x.YieldsBy (fun q o => o = answer q) a ↔ a = x.eval answer := by
  induction x with
  | done b => exact yieldsBy_done
  | ask q next ih =>
    constructor
    · intro h
      cases h with
      | ask allowed h =>
        subst allowed
        exact (ih _).mp h
    · intro h
      exact .ask rfl ((ih _).mpr h)

theorem yields_done {a b : α} : (Inquiry.done a).Yields b ↔ b = a := by
  rw [yields_iff, yieldsBy_done]

theorem yields_bind {x : Inquiry α} {f : α → Inquiry β} {b : β} :
    (x >>= f).Yields b ↔ ∃ a, x.Yields a ∧ (f a).Yields b := by
  simp only [yields_iff, yieldsBy_bind]

theorem yields_map {x : Inquiry α} {f : α → β} {b : β} :
    (f <$> x).Yields b ↔ ∃ a, x.Yields a ∧ b = f a := by
  simp only [yields_iff, yieldsBy_map]

/-- Fixed answers are some answers. -/
theorem yields_eval (answer : Question → Ordering) (x : Inquiry α) :
    x.Yields (x.eval answer) :=
  (yieldsBy_answer.mpr rfl).yields

end Inquiry

namespace Work

variable {α β : Type}

theorem yieldsBy_bind {may : Question → Ordering → Prop} {x : Work α} {f : α → Work β} {b : β} :
    (x >>= f).run.YieldsBy may (.ok b) ↔
      ∃ a, x.run.YieldsBy may (.ok a) ∧ (f a).run.YieldsBy may (.ok b) := by
  rw [ExceptT.run_bind, Inquiry.yieldsBy_bind]
  constructor
  · rintro ⟨result, hx, hf⟩
    cases result with
    | ok a => exact ⟨a, hx, hf⟩
    | error stop => cases hf
  · rintro ⟨a, hx, hf⟩
    exact ⟨.ok a, hx, hf⟩

theorem yields_bind {x : Work α} {f : α → Work β} {b : β} :
    (x >>= f).run.Yields (.ok b) ↔ ∃ a, x.run.Yields (.ok a) ∧ (f a).run.Yields (.ok b) := by
  simp only [Inquiry.yields_iff, yieldsBy_bind]

/-- A function of the result changes nothing about how the step ends. -/
theorem yieldsBy_map {may : Question → Ordering → Prop} {x : Work α} {f : α → β}
    {result : Except Stop β} :
    (f <$> x).run.YieldsBy may result ↔
      ∃ found, x.run.YieldsBy may found ∧ result = found.map f := by
  rw [ExceptT.run_map, Inquiry.yieldsBy_map]

theorem yieldsBy_map_ok {may : Question → Ordering → Prop} {x : Work α} {f : α → β} {b : β} :
    (f <$> x).run.YieldsBy may (.ok b) ↔ ∃ a, x.run.YieldsBy may (.ok a) ∧ b = f a := by
  rw [yieldsBy_map]
  constructor
  · rintro ⟨found, made, same⟩
    cases found with
    | ok a => exact ⟨a, made, Except.ok.inj same⟩
    | error stop => cases same
  · rintro ⟨a, made, rfl⟩
    exact ⟨.ok a, made, rfl⟩

theorem yields_pure {a b : α} : (pure a : Work α).run.Yields (.ok b) ↔ b = a := by
  constructor
  · intro h; cases h; rfl
  · rintro rfl; exact .done _

/-! ## Steps that got through -/

theorem yields_itemAt {xs : List α} {i : Nat} {x : α} :
    (itemAt xs i).run.Yields (.ok x) ↔ xs[i]? = some x := by
  unfold itemAt
  cases xs[i]? with
  | none => exact ⟨nofun, nofun⟩
  | some y => rw [yields_pure, Option.some.injEq, eq_comm]

/-- A guarded step gets through where its guard holds. -/
theorem yields_guarded {inside : Prop} [Decidable inside] {a b : α} {fault : Breach} :
    (if inside then pure a else breach fault : Work α).run.Yields (.ok b) ↔ inside ∧ b = a := by
  split
  · rename_i within
    rw [yields_pure, and_iff_right within]
  · rename_i outside
    exact ⟨nofun, fun h => absurd h.1 outside⟩

theorem yields_setAt {xs ys : List α} {i : Nat} {x : α} :
    (setAt xs i x).run.Yields (.ok ys) ↔ i < xs.length ∧ ys = xs.set i x := yields_guarded

theorem yields_insertAt {xs ys : List α} {i : Nat} {x : α} :
    (insertAt xs i x).run.Yields (.ok ys) ↔ i ≤ xs.length ∧ ys = xs.insertIdx i x := yields_guarded

theorem yields_eraseAt {xs ys : List α} {i : Nat} :
    (eraseAt xs i).run.Yields (.ok ys) ↔ i < xs.length ∧ ys = xs.eraseIdx i := yields_guarded

theorem yields_minus {a b c : Nat} :
    (minus a b).run.Yields (.ok c) ↔ b ≤ a ∧ c = a - b := yields_guarded

end Work

end CollatedStore
