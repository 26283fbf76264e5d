import CollatedStore.Bytes

/-!
Reading bytes as UTF-8. Where they are not UTF-8, each longest run of bytes that begins a character
but does not finish it, or else each single byte, counts as one unreadable part.
-/
namespace CollatedStore

namespace Utf8

/-- For a byte that begins a longer character: the bits it brings, how many bytes have to follow,
and the bounds of the first of them. -/
def lead (b : Nat) : Option (Nat × Nat × Nat × Nat) :=
  if 0xC2 ≤ b ∧ b ≤ 0xDF then some (b % 0x20, 1, 0x80, 0xBF)
  else if b = 0xE0 then some (b % 0x10, 2, 0xA0, 0xBF)
  else if b = 0xED then some (b % 0x10, 2, 0x80, 0x9F)
  else if 0xE1 ≤ b ∧ b ≤ 0xEF then some (b % 0x10, 2, 0x80, 0xBF)
  else if b = 0xF0 then some (b % 0x08, 3, 0x90, 0xBF)
  else if 0xF1 ≤ b ∧ b ≤ 0xF3 then some (b % 0x08, 3, 0x80, 0xBF)
  else if b = 0xF4 then some (b % 0x08, 3, 0x80, 0x8F)
  else none

/-- Reads `n` further bytes into `code`, the next one between `low` and `high`. Gives the rest of
the bytes, also where the character breaks off. -/
def follow : (n low high code : Nat) → Bytes → Option Nat × Bytes
  | 0, _, _, code, rest => (some code, rest)
  | _ + 1, _, _, _, [] => (none, [])
  | n + 1, low, high, code, b :: rest =>
    if low ≤ b.toNat ∧ b.toNat ≤ high then
      follow n 0x80 0xBF (code * 0x40 + b.toNat % 0x40) rest
    else (none, b :: rest)

/-- The part that begins with `b`: a character, or nothing readable. -/
def part (b : UInt8) (rest : Bytes) : Option Char × Bytes :=
  if b < 0x80 then (some (Char.ofNat b.toNat), rest)
  else
    match lead b.toNat with
    | none => (none, rest)
    | some (code, n, low, high) =>
      let (code?, rest) := follow n low high code rest
      (code?.map Char.ofNat, rest)

/-- The first `fuel` parts. -/
def partsUpTo : (fuel : Nat) → Bytes → List (Option Char)
  | 0, _ => []
  | _ + 1, [] => []
  | fuel + 1, b :: rest => let (c, rest) := part b rest; c :: partsUpTo fuel rest

/-- Every part takes a byte at least, so there are no more parts than bytes. -/
def parts (bytes : Bytes) : List (Option Char) := partsUpTo bytes.length bytes

def decode? (bytes : Bytes) : Option String := ((parts bytes).mapM id).map String.ofList

/-- Each unreadable part becomes one replacement character. -/
def decodeLossy (bytes : Bytes) : String :=
  String.ofList ((parts bytes).map fun c => c.getD '\uFFFD')

def encode (text : String) : Bytes := text.toByteArray.data.toList

end Utf8

end CollatedStore
