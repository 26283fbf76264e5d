import CollatedStore.Json.Scanner

/-!
Numbers in JSON. Only integers are told apart from each other; a number in any other form has to be
in the range of a double.
-/
namespace CollatedStore

namespace Json

/-- Rounds to the nearest number with at most 53 binary digits before its zeros, a half to even. -/
def round53 (n : Nat) : Nat :=
  if n < Nat.pow 2 53 then n
  else
    let unit := Nat.pow 2 (n.log2 - 52)
    let low := n / unit
    let rest := n % unit
    if unit < 2 * rest ∨ (unit = 2 * rest ∧ low % 2 = 1) then (low + 1) * unit else low * unit

/-- Is `s` times ten to the power `exponent`, worked out in doubles, past the largest double? -/
def tooLarge (s : Nat) (exponent : Int) : Bool :=
  if 308 < exponent then s != 0
  else if exponent < 0 then false
  else decide (Nat.pow 2 1024 - Nat.pow 2 970 ≤ round53 s * round53 (Nat.pow 10 exponent.toNat))

/-- A number, if it is written as an integer of 64 bits at most. A zero with a minus sign is not
one. -/
abbrev Number := Option Int

namespace Scanner

def maxWord : Nat := 0xFFFFFFFFFFFFFFFF

/-- Adds digits to a number as long as it stays a word. Gives the digits left over. -/
def gather (s : Nat) : Bytes → Nat × Bytes
  | [] => (s, [])
  | b :: rest =>
    let next := s * 10 + digitOf b
    if maxWord < next then (s, b :: rest) else gather next rest

/-- The digits of an integer; no zero stands before another digit. -/
def integerDigits : Scanner Bytes := do
  match ← peek with
  | none => truncated
  | some b =>
    if isDigit b then
      let digits ← takeWhile isDigit
      if b = byte '0' ∧ 1 < digits.length then malformed else return digits
    else malformed

/-- The number `s` times ten to the power `exponent`, which must not be too large. -/
def real (s : Nat) (exponent : Int) : Scanner Number :=
  if tooLarge s exponent then malformed else return none

/-- Reads on after the `e` of a number. -/
def exponentPart (s : Nat) (exponent : Int) : Scanner Number := do
  advance
  let sign ← peek
  let minus := sign == some (byte '-')
  if minus || sign == some (byte '+') then advance
  match ← peek with
  | none => truncated
  | some b =>
    if isDigit b then
      let digits ← takeWhile isDigit
      let size := digits.foldl (fun n b => n * 10 + digitOf b) 0
      real s (if minus then exponent - size else exponent + size)
    else malformed

/-- Ends a number, or goes on to its exponent. -/
def tailPart (s : Nat) (exponent : Int) : Scanner Number := do
  match ← peek with
  | some b =>
    if b = byte 'e' ∨ b = byte 'E' then exponentPart s exponent else real s exponent
  | none => real s exponent

/-- Reads on after the point of a number. -/
def fractionPart (s : Nat) (exponent : Int) : Scanner Number := do
  advance
  let digits ← takeWhile isDigit
  if digits.isEmpty then
    match ← peek with
    | some _ => malformed
    | none => truncated
  else
    let (s, rest) := gather s digits
    tailPart s (exponent - (digits.length - rest.length))

/-- The integer of `s` with its sign, if it fits into 64 bits. -/
def integer (minus : Bool) (s : Nat) : Number :=
  if minus then if s = 0 ∨ 0x8000000000000000 < s then none else some (-s) else some s

/-- Reads a number; the minus sign, if there is one, is still in front. -/
def number : Scanner Number := do
  let minus := (← peek) == some (byte '-')
  if minus then advance
  let digits ← integerDigits
  let (s, rest) := gather 0 digits
  match ← peek with
  | some b =>
    if b = byte '.' then fractionPart s rest.length
    else if b = byte 'e' ∨ b = byte 'E' then exponentPart s rest.length
    else if rest.isEmpty then return integer minus s
    else real s rest.length
  | none => if rest.isEmpty then return integer minus s else real s rest.length

/-- Passes over a number of any size. Here a number that ends early is malformed. -/
def skipNumber : Scanner Unit := do
  if (← peek) == some (byte '-') then advance
  if (← peek).isNone then malformed
  let _ ← integerDigits
  if (← peek) == some (byte '.') then
    advance
    if (← takeWhile isDigit).isEmpty then malformed
  let mark ← peek
  if mark == some (byte 'e') || mark == some (byte 'E') then
    advance
    let sign ← peek
    if sign == some (byte '-') || sign == some (byte '+') then advance
    if (← takeWhile isDigit).isEmpty then malformed

end Scanner

end Json

end CollatedStore
