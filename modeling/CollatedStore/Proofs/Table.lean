import CollatedStore.Table
import Mathlib.Algebra.GroupWithZero.Nat
import Mathlib.Data.List.Nodup

/-!
Tables as lists of pairs: a lookup finds exactly the pairs that are listed, and a sum over the
values changes by what an insertion puts in and takes out.
-/
namespace CollatedStore.Table

variable {κ α : Type} [DecidableEq κ]

theorem lookup_eq_some_iff_mem {pairs : List (κ × α)} (distinct : (pairs.map Prod.fst).Nodup)
    (k : κ) (a : α) : pairs.lookup k = some a ↔ (k, a) ∈ pairs := by
  induction pairs with
  | nil => simp
  | cons x rest ih =>
    obtain ⟨j, b⟩ := x
    rw [List.map_cons, List.nodup_cons] at distinct
    obtain ⟨fresh, distinct⟩ := distinct
    rw [List.lookup_cons, List.mem_cons]
    by_cases h : k = j
    · subst h
      have absent : (k, a) ∉ rest := fun there => fresh (List.mem_map.mpr ⟨(k, a), there, rfl⟩)
      simp [absent, eq_comm]
    · have hk : (k == j) = false := by simpa using h
      simp only [hk]
      simpa [h] using ih distinct

theorem get?_eq_some_iff (t : Table κ α) (k : κ) (a : α) :
    t.get? k = some a ↔ (k, a) ∈ t.pairs :=
  lookup_eq_some_iff_mem t.distinct k a

theorem mem_keys_of_get? {t : Table κ α} {k : κ} {a : α} (here : t.get? k = some a) : k ∈ t.keys :=
  List.mem_map.mpr ⟨(k, a), (get?_eq_some_iff t k a).mp here, rfl⟩

theorem mem_keys (t : Table κ α) (k : κ) : k ∈ t.keys ↔ (t.get? k).isSome = true := by
  constructor
  · intro there
    obtain ⟨⟨j, a⟩, pair, rfl⟩ := List.mem_map.mp there
    rw [(get?_eq_some_iff t j a).mpr pair]
    rfl
  · intro found
    obtain ⟨a, here⟩ := Option.isSome_iff_exists.mp found
    exact mem_keys_of_get? here

theorem mem_values (t : Table κ α) (a : α) : a ∈ t.values ↔ ∃ k, t.get? k = some a := by
  simp only [values, List.mem_map, get?_eq_some_iff]
  constructor
  · rintro ⟨⟨k, b⟩, there, rfl⟩
    exact ⟨k, there⟩
  · rintro ⟨k, there⟩
    exact ⟨(k, a), there, rfl⟩

theorem get?_filter_eq_some_iff (t : Table κ α) (p : κ → α → Bool) (k : κ) (a : α) :
    (t.filter p).get? k = some a ↔ t.get? k = some a ∧ p k a = true := by
  rw [get?_eq_some_iff, get?_eq_some_iff, filter, List.mem_filter]

theorem get?_filter (t : Table κ α) (p : κ → α → Bool) (k : κ) :
    (t.filter p).get? k = (t.get? k).filter (p k) := by
  apply Option.ext
  intro a
  rw [get?_filter_eq_some_iff, Option.filter_eq_some_iff]

theorem absent_of_insert {t : Table κ α} {k j : κ} {a : α} (absent : (t.insert k a).get? j = none) :
    t.get? j = none := by
  rw [get?_insert] at absent
  split at absent
  · cases absent
  · exact absent

/-! ## Sums over the values -/

variable (f : α → Nat)

def sum (t : Table κ α) : Nat := (t.values.map f).sum

theorem filter_ne_of_absent {pairs : List (κ × α)} {k : κ} (absent : pairs.lookup k = none) :
    pairs.filter (fun x => decide (x.1 ≠ k)) = pairs := by
  refine List.filter_eq_self.mpr fun x hx => ?_
  have apart := List.lookup_eq_none_iff.mp absent x hx
  simpa using Ne.symm (by simpa using apart)

theorem sum_pairs_erase {pairs : List (κ × α)} (distinct : (pairs.map Prod.fst).Nodup) {k : κ}
    {a : α} (here : pairs.lookup k = some a) :
    ((pairs.map Prod.snd).map f).sum =
      f a + (((pairs.filter fun x => decide (x.1 ≠ k)).map Prod.snd).map f).sum := by
  induction pairs with
  | nil => cases here
  | cons x rest ih =>
    obtain ⟨j, b⟩ := x
    rw [List.map_cons, List.nodup_cons] at distinct
    obtain ⟨fresh, distinct⟩ := distinct
    rw [List.lookup_cons] at here
    by_cases h : j = k
    · subst h
      simp only [beq_self_eq_true, Option.some.injEq] at here
      subst here
      have absent : rest.lookup j = none := by
        refine List.lookup_eq_none_iff.mpr fun x hx => ?_
        have apart : j ≠ x.1 := fun same => fresh (List.mem_map.mpr ⟨x, hx, same.symm⟩)
        simpa using apart
      have rest_kept := filter_ne_of_absent absent
      rw [List.filter_cons_of_neg (by simp), rest_kept]
      simp
    · have hk : (k == j) = false := by simpa using Ne.symm h
      simp only [hk] at here
      rw [List.filter_cons_of_pos (by simpa using h)]
      simp only [List.map_cons, List.sum_cons, ih distinct here]
      omega

theorem sum_insert_of_get? {t : Table κ α} {k : κ} {a : α} (here : t.get? k = some a) (b : α) :
    (t.insert k b).sum f + f a = t.sum f + f b := by
  have taken_out := sum_pairs_erase f t.distinct here
  simp only [sum, values, insert, erase, filter, List.map_cons, List.sum_cons] at taken_out ⊢
  omega

theorem sum_insert_of_absent {t : Table κ α} {k : κ} (absent : t.get? k = none) (b : α) :
    (t.insert k b).sum f = t.sum f + f b := by
  have kept := filter_ne_of_absent absent
  simp only [sum, values, insert, erase, filter, kept, List.map_cons, List.sum_cons]
  omega

/-- Only what a table finds counts, not how it is listed. -/
theorem sum_congr {t t' : Table κ α} (same : ∀ k, t'.get? k = t.get? k) : t'.sum f = t.sum f := by
  have listed : t'.pairs.Perm t.pairs := by
    refine (List.perm_ext_iff_of_nodup (.of_map _ t'.distinct) (.of_map _ t.distinct)).mpr ?_
    rintro ⟨k, a⟩
    rw [← get?_eq_some_iff, ← get?_eq_some_iff, same]
  exact ((listed.map Prod.snd).map f).sum_nat

end CollatedStore.Table
