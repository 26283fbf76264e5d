import CollatedStore.Flags

/-!
Words of flags and the masks they are held against, bit by bit.
-/
namespace CollatedStore.Flags

variable {flags mask extra : UInt32}

/-- Flags are not set where none of their bits is. -/
theorem has_eq_false_iff : has flags extra = false ↔
    ∀ i (inside : i < 32), flags.toBitVec[i] = true → extra.toBitVec[i] = false := by
  have words : has flags extra = false ↔ flags.toBitVec &&& extra.toBitVec = 0 := by
    rw [has, bne_eq_false_iff_eq, ← UInt32.toBitVec_inj]
    rfl
  rw [words]
  constructor
  · intro none i inside set
    have bit := congrArg (fun word : BitVec 32 => word[i]) none
    simpa [set] using bit
  · intro apart
    ext i inside
    have bit := apart i inside
    cases set : flags.toBitVec[i] with
    | false => simp [set]
    | true => simp [set, bit set]

/-- A word keeps within a mask if each of its bits is one of the mask's. -/
theorem within_iff : within flags mask = true ↔
    ∀ i (inside : i < 32), flags.toBitVec[i] = true → mask.toBitVec[i] = true := by
  have outside : within flags mask = true ↔ has flags (~~~mask) = false := by
    simp [within, has]
  rw [outside, has_eq_false_iff]
  simp

/-- A mask says nothing of a flag that is not set. -/
theorem within_or (without : has flags extra = false) :
    within flags (mask ||| extra) = within flags mask := by
  have apart := has_eq_false_iff.mp without
  rw [Bool.eq_iff_iff, within_iff, within_iff]
  constructor
  · intro wider i inside set
    simpa [apart i inside set] using wider i inside set
  · intro narrow i inside set
    simp [narrow i inside set]

/-- A word within a mask has no flag that the mask leaves out. -/
theorem has_of_within (apart : has mask extra = false) (inside : within flags mask = true) :
    has flags extra = false :=
  has_eq_false_iff.mpr fun i bound set =>
    has_eq_false_iff.mp apart i bound (within_iff.mp inside i bound set)

/-- What may be asked of one pair is what may be asked of a put through a cursor, but for many
values. -/
theorem within_single :
    within flags (put ||| current) = (within flags cursorPut && !has flags multiple) := by
  cases many : has flags multiple with
  | false => rw [cursorPut, within_or many, Bool.not_false, Bool.and_true]
  | true =>
    rw [Bool.not_true, Bool.and_false, Bool.eq_false_iff]
    intro inside
    rw [has_of_within (by decide) inside] at many
    cases many

end CollatedStore.Flags
