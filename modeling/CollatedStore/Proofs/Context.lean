import CollatedStore.Foreign
import Mathlib.Algebra.Group.Nat.Defs

/-!
Context ids name databases. Environment, role and number stand in bits of their own, so that each
can be read back and no two orders share an id; and the id that stands for none is no key order's.
-/
namespace CollatedStore

namespace ContextId

/-- The environment, in the top 31 bits. -/
def envId (id : ContextId) : UInt64 := id.raw >>> 33

/-- The role, in the bit above the number. -/
def role (id : ContextId) : Role := if id.raw >>> 32 &&& 1 = 0 then .keys else .values

/-- The number of the database, in the low 32 bits. -/
def dbi (id : ContextId) : UInt32 := id.raw.toUInt32

/-- With 31 bits for the environment nothing is shifted out, and no two parts share a bit. -/
theorem raw_pack (role : Role) {e : UInt64} (narrow : e ≤ maxEnvId) (d : UInt32) :
    (pack role e d).raw.toNat = e.toNat * 2 ^ 33 + (roleBit role).toNat * 2 ^ 32 + d.toNat := by
  have bound : e.toNat < 2 ^ 31 := Nat.lt_succ_of_le (UInt64.le_iff_toNat_le.mp narrow)
  have bit : (roleBit role).toNat < 2 := by cases role <;> decide
  have number : d.toNat < 2 ^ 32 := d.toNat_lt
  have top : (e <<< 33).toNat = e.toNat <<< 33 := by
    simp only [UInt64.toNat_shiftLeft, Nat.shiftLeft_eq, UInt64.reduceToNat, Nat.reduceMod]
    omega
  have middle : (roleBit role <<< 32).toNat = (roleBit role).toNat <<< 32 := by
    simp only [UInt64.toNat_shiftLeft, Nat.shiftLeft_eq, UInt64.reduceToNat, Nat.reduceMod]
    omega
  have below : (roleBit role).toNat <<< 32 < 2 ^ 33 := by
    rw [Nat.shiftLeft_eq]
    omega
  have above : e.toNat <<< 33 ||| (roleBit role).toNat <<< 32 =
      (e.toNat * 2 + (roleBit role).toNat) <<< 32 := by
    rw [← Nat.shiftLeft_add_eq_or_of_lt below]
    simp only [Nat.shiftLeft_eq]
    omega
  calc (pack role e d).raw.toNat
    _ = (e.toNat <<< 33 ||| (roleBit role).toNat <<< 32) ||| d.toNat := by
        simp only [pack, UInt64.toNat_or, top, middle, UInt32.toNat_toUInt64]
    _ = (e.toNat * 2 + (roleBit role).toNat) <<< 32 + d.toNat := by
        rw [above, Nat.shiftLeft_add_eq_or_of_lt number]
    _ = _ := by
        rw [Nat.shiftLeft_eq]
        omega

section
variable {e : UInt64} (narrow : e ≤ maxEnvId) (ρ : Role) (d : UInt32)
include narrow

theorem envId_pack : (pack ρ e d).envId = e := by
  have bit : (roleBit ρ).toNat < 2 := by cases ρ <;> decide
  have number : d.toNat < 2 ^ 32 := d.toNat_lt
  apply UInt64.toNat.inj
  simp only [envId, UInt64.toNat_shiftRight, raw_pack ρ narrow, UInt64.reduceToNat,
    Nat.reduceMod, Nat.shiftRight_eq_div_pow]
  omega

theorem dbi_pack : (pack ρ e d).dbi = d := by
  have number : d.toNat < 2 ^ 32 := d.toNat_lt
  apply UInt32.toNat.inj
  simp only [dbi, UInt64.toNat_toUInt32, raw_pack ρ narrow]
  omega

theorem role_pack : (pack ρ e d).role = ρ := by
  have number : d.toNat < 2 ^ 32 := d.toNat_lt
  have bit : (pack ρ e d).raw >>> 32 &&& 1 = roleBit ρ := by
    apply UInt64.toNat.inj
    have own : (roleBit ρ).toNat < 2 := by cases ρ <;> decide
    simp only [UInt64.toNat_and, UInt64.toNat_shiftRight, raw_pack ρ narrow, UInt64.reduceToNat,
      Nat.reduceMod, Nat.shiftRight_eq_div_pow, Nat.and_one_is_mod]
    omega
  rw [role, bit]
  cases ρ <;> rfl

end

theorem ofDb_eq_ok {ρ : Role} {e : UInt64} {d : UInt32} {id : ContextId} :
    ofDb ρ e d = .ok id ↔ e ≤ maxEnvId ∧ id = pack ρ e d := by
  unfold ofDb
  by_cases narrow : e ≤ maxEnvId
  · simp [narrow, eq_comm]
  · simp [narrow]

theorem ofDb_wide {e : UInt64} (wide : maxEnvId < e) (ρ : Role) (d : UInt32) :
    ofDb ρ e d = .error .wideEnvironment :=
  if_neg (UInt64.not_le.mpr wide)

/-- All bits are set in the id that stands for none, the bit of the role among them. -/
theorem ofDb_keys_ne_invalid {e : UInt64} {d : UInt32} {id : ContextId}
    (own : ofDb .keys e d = .ok id) : id.raw ≠ Foreign.invalidContext := by
  obtain ⟨narrow, rfl⟩ := ofDb_eq_ok.mp own
  intro same
  have keys : (⟨Foreign.invalidContext⟩ : ContextId).role = .keys := by
    rw [← same]
    exact role_pack narrow .keys d
  revert keys
  decide

/-- **Context ids never collide.** The id of an order is made for environment ids of up to 31 bits,
tells its environment, role and database, and is the id of no other order. Foreign code gets the id
of the key order, or the one that stands for none where there is no id to make. -/
theorem context_ids_are_collision_free (e : UInt64) (d : UInt32) :
    (e ≤ maxEnvId →
      (∀ ρ, ∃ id, ofDb ρ e d = .ok id ∧ id.envId = e ∧ id.role = ρ ∧ id.dbi = d ∧
        ∀ ρ' e' d', ofDb ρ' e' d' = .ok id → e' = e ∧ ρ' = ρ ∧ d' = d) ∧
      ∃ id, ofDb .keys e d = .ok id ∧ id.raw ≠ Foreign.invalidContext ∧
        ∀ host, Foreign.contextId e d host = (id.raw, Foreign.clearLastError host)) ∧
    (maxEnvId < e →
      (∀ ρ, ofDb ρ e d = .error .wideEnvironment) ∧
      ∀ host, (Foreign.contextId e d host).1 = Foreign.invalidContext) := by
  constructor
  · intro narrow
    constructor
    · intro ρ
      refine ⟨pack ρ e d, ofDb_eq_ok.mpr ⟨narrow, rfl⟩, envId_pack narrow ρ d,
        role_pack narrow ρ d, dbi_pack narrow ρ d, ?_⟩
      intro ρ' e' d' same
      obtain ⟨narrow', same⟩ := ofDb_eq_ok.mp same
      have envIds := congrArg envId same
      have roles := congrArg role same
      have dbis := congrArg dbi same
      rw [envId_pack narrow, envId_pack narrow'] at envIds
      rw [role_pack narrow, role_pack narrow'] at roles
      rw [dbi_pack narrow, dbi_pack narrow'] at dbis
      exact ⟨envIds.symm, roles.symm, dbis.symm⟩
    · have own : ofDb .keys e d = .ok (pack .keys e d) := ofDb_eq_ok.mpr ⟨narrow, rfl⟩
      refine ⟨_, own, ofDb_keys_ne_invalid own, fun host => ?_⟩
      rw [Foreign.contextId, own]
  · intro wide
    refine ⟨fun ρ => ofDb_wide wide ρ d, fun host => ?_⟩
    rw [Foreign.contextId, ofDb_wide wide]

/-- At the widest environment id, and one past it. -/
theorem context_ids_are_collision_free_at_the_bound :
    (∃ id, ofDb .values maxEnvId 0xFFFFFFFF = .ok id ∧ id.envId = maxEnvId ∧
      id.role = .values ∧ id.dbi = 0xFFFFFFFF ∧ id.raw = Foreign.invalidContext) ∧
    ofDb .keys (maxEnvId + 1) 0 = .error .wideEnvironment := by
  have all := context_ids_are_collision_free maxEnvId 0xFFFFFFFF
  obtain ⟨id, made, envId, role, dbi, _⟩ := (all.1 (UInt64.le_refl _)).1 .values
  refine ⟨⟨id, made, envId, role, dbi, ?_⟩, ?_⟩
  · obtain ⟨_, rfl⟩ := ofDb_eq_ok.mp made
    decide
  · exact ((context_ids_are_collision_free (maxEnvId + 1) 0).2 (by decide)).1 .keys

end ContextId

end CollatedStore
