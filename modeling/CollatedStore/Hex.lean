import CollatedStore.Text.Utf8

/-!
Bytes as hexadecimal digits, two for each byte. Small letters are written; both kinds are read.
-/
namespace CollatedStore

namespace Hex

def digit (n : Nat) : Char := Nat.digitChar n

def byteDigits (b : UInt8) : List Char := [digit (b.toNat / 16), digit (b.toNat % 16)]

def encode (bytes : Bytes) : String := String.ofList (bytes.flatMap byteDigits)

def digitValue? (c : Char) : Option Nat :=
  if '0' ≤ c ∧ c ≤ '9' then some (c.toNat - '0'.toNat)
  else if 'a' ≤ c ∧ c ≤ 'f' then some (c.toNat - 'a'.toNat + 10)
  else if 'A' ≤ c ∧ c ≤ 'F' then some (c.toNat - 'A'.toNat + 10)
  else none

/-- Reads digits in pairs, each of them a single byte. Nothing if one is missing at the end, or if
there is any other byte. -/
def decodeDigits : Bytes → Option Bytes
  | [] => some []
  | [_] => none
  | hi :: lo :: rest => do
    let hi ← digitValue? (Char.ofNat hi.toNat)
    let lo ← digitValue? (Char.ofNat lo.toNat)
    let bytes ← decodeDigits rest
    return UInt8.ofNat (16 * hi + lo) :: bytes

/-- Reads the bytes of a text, so that no part of a longer character counts as a digit. -/
def decode? (text : String) : Option Bytes := decodeDigits (Utf8.encode text)

end Hex

end CollatedStore
