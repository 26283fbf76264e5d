import CollatedStore.Bytes

/-!
Descriptors: how a call is handed bytes, and how it hands bytes back.
-/
namespace CollatedStore

/-- An address with a size. Where there is no address there is nothing to read, whatever the size
says. -/
inductive Descriptor where
  | null (size : Nat)
  | filled (bytes : Bytes)
  deriving DecidableEq, Repr

namespace Descriptor

def empty : Descriptor := .null 0

/-- Describes a buffer that may be missing. -/
def ofBuffer : Option Bytes → Descriptor
  | none => .empty
  | some bytes => .filled bytes

def size : Descriptor → Nat
  | .null n => n
  | .filled bytes => bytes.length

def isNull : Descriptor → Bool
  | .null _ => true
  | .filled _ => false

def bytes : Descriptor → Bytes
  | .null _ => []
  | .filled bytes => bytes

/-- The bytes behind a descriptor that may itself be missing. -/
def bytesOf (d : Option Descriptor) : Bytes := (d.map bytes).getD []

/-- What a caller finds in a descriptor after a call: nothing unless it has an address. -/
def readBack : Option Descriptor → Option Bytes
  | some (.filled bytes) => some bytes
  | _ => none

end Descriptor

end CollatedStore
