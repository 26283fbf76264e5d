import CollatedStore.Handle
import CollatedStore.Work

/-!
Context ids: the names under which collations are registered. A database has one id for each of its
orders, made of the environment in the top 31 bits, then one bit for the role, then the number of
the database in 32 bits.
-/
namespace CollatedStore

structure ContextId where
  raw : UInt64
  deriving DecidableEq, Repr

namespace ContextId

/-- The largest environment id that the top bits can hold. -/
def maxEnvId : UInt64 := 0x7FFFFFFF

def roleBit : Role → UInt64
  | .keys => 0
  | .values => 1

def pack (role : Role) (envId : UInt64) (dbi : UInt32) : ContextId :=
  ⟨envId <<< 33 ||| roleBit role <<< 32 ||| dbi.toUInt64⟩

/-- The id of one order of a database. -/
def ofDb (role : Role) (envId : UInt64) (dbi : UInt32) : Except Breach ContextId :=
  if envId ≤ maxEnvId then .ok (pack role envId dbi) else .error .wideEnvironment

/-- Hexadecimal with its mark, and no more digits than needed. -/
def hex (n : UInt64) : String := "0x" ++ String.ofList (Nat.toDigits 16 n.toNat)

def text (id : ContextId) : String := hex id.raw

end ContextId

end CollatedStore
