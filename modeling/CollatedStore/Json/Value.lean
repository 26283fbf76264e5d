import CollatedStore.Json.Number
import CollatedStore.Text.Utf8

/-!
Strings, lists and objects in JSON: reading them for a wanted shape, and passing over a value of any
shape.
-/
namespace CollatedStore

namespace Json

namespace Scanner

variable {α : Type}

def hexValue? (b : UInt8) : Option Nat :=
  if isDigit b then some (digitOf b)
  else if byte 'a' ≤ b ∧ b ≤ byte 'f' then some (b.toNat - (byte 'a').toNat + 10)
  else if byte 'A' ≤ b ∧ b ≤ byte 'F' then some (b.toNat - (byte 'A').toNat + 10)
  else none

/-- Four hexadecimal digits. -/
def unit : Scanner Nat := do
  let digits := (← get).take 4
  if digits.length < 4 then truncated
  else
    modify (List.drop 4)
    match digits.mapM hexValue? with
    | some values => return values.foldl (fun n v => n * 16 + v) 0
    | none => malformed

/-- Takes a byte of a string, which must not end here. -/
def inString : Scanner UInt8 := do
  match ← take with
  | some b => return b
  | none => truncated

def codePoint (n : Nat) : Bytes := Utf8.encode (String.singleton (Char.ofNat n))

/-- Reads on after `\u`. Units of a surrogate pair have to stand together, the high one first. -/
def unicodeEscape : Scanner Bytes := do
  let high ← unit
  if 0xDC00 ≤ high ∧ high ≤ 0xDFFF then malformed
  else if high < 0xD800 ∨ 0xDBFF < high then return codePoint high
  else
    if (← inString) ≠ byte '\\' then malformed
    if (← inString) ≠ byte 'u' then malformed
    let low ← unit
    if 0xDC00 ≤ low ∧ low ≤ 0xDFFF then
      return codePoint ((high - 0xD800) * 0x400 + (low - 0xDC00) + 0x10000)
    else malformed

/-- The byte that a letter after a backslash stands for. -/
def escapes : List (Char × UInt8) :=
  [('"', 0x22), ('\\', 0x5C), ('/', 0x2F), ('b', 0x08), ('f', 0x0C), ('n', 0x0A), ('r', 0x0D),
   ('t', 0x09)]

def escaped? (b : UInt8) : Option UInt8 := (escapes.find? fun e => byte e.1 == b).map (·.2)

/-- Reads on in a string up to its closing quote. A Unicode escape is read by `unicode`. -/
def stringRest (unicode : Scanner Bytes) : (fuel : Nat) → Scanner Bytes
  | 0 => truncated
  | fuel + 1 => do
    let b ← inString
    if b = byte '"' then return []
    else if b < 0x20 then malformed
    else
      let bytes ←
        if b = byte '\\' then do
          let letter ← inString
          if letter = byte 'u' then unicode
          else
            match escaped? letter with
            | some b => pure [b]
            | none => malformed
        else pure [b]
      return bytes ++ (← stringRest unicode fuel)

/-- Reads a string whose opening quote is in front. -/
def stringBody : Scanner String := do
  advance
  let bytes ← stringRest unicodeEscape ((← get).length + 1)
  return Utf8.decodeLossy bytes

/-- Passes over a string whose opening quote is in front. Surrogates may stand alone here. -/
def skipString : Scanner Unit := do
  advance
  let _ ← stringRest (do let _ ← unit; return []) ((← get).length + 1)

/-- A value of another shape than the wanted one. Anything simple is still read to its end, so that
a flaw in it comes first. -/
def otherShape (front : UInt8) : Scanner α := do
  if front = byte 'n' then do advance; word "null"
  else if front = byte 't' then do advance; word "true"
  else if front = byte 'f' then do advance; word "false"
  else if front = byte '-' ∨ isDigit front then let _ ← number
  else if front = byte '"' then let _ ← stringBody
  else if front = byte '[' ∨ front = byte '\x7b' then pure ()
  else malformed
  misshapen

/-- The first byte of a value. -/
def front : Scanner UInt8 := do
  match ← peekSolid with
  | some b => return b
  | none => truncated

def string : Scanner String := do
  let b ← front
  if b = byte '"' then stringBody else otherShape b

/-- An integer between `low` and `high`. -/
def integerBetween (low high : Int) : Scanner Int := do
  let b ← front
  if b = byte '-' ∨ isDigit b then
    match ← number with
    | some n => if low ≤ n ∧ n ≤ high then return n else misshapen
    | none => misshapen
  else otherShape b

/-- Is there another item in a list? `first` tells whether none has been read. -/
def moreItems (first : Bool) : Scanner Bool := do
  let b ← front
  if b = byte ']' then return false
  else if first then return true
  else if b = byte ',' then
    advance
    if (← front) = byte ']' then malformed else return true
  else malformed

/-- The end of a list after the items that were wanted. -/
def closeList : Scanner Unit := do
  if (← front) = byte ']' then advance else malformed

/-- Is there another field in an object? If so, its key is in front. -/
def moreFields (first : Bool) : Scanner Bool := do
  let b ← front
  if b = byte '\x7d' then return false
  else
    if !first then
      if b = byte ',' then advance else malformed
    if (← front) = byte '"' then return true else malformed

def colon : Scanner Unit := do
  if (← front) = byte ':' then advance else malformed

def closeObject : Scanner Unit := do
  if (← front) = byte '\x7d' then advance else malformed

mutual

/-- Passes over a value of any shape. -/
def skip : (fuel : Nat) → Scanner Unit
  | 0 => malformed
  | fuel + 1 => do
    let b ← front
    if b = byte 'n' then do advance; word "null"
    else if b = byte 't' then do advance; word "true"
    else if b = byte 'f' then do advance; word "false"
    else if b = byte '-' ∨ isDigit b then skipNumber
    else if b = byte '"' then skipString
    else if b = byte '[' then do advance; skipItems fuel true
    else if b = byte '\x7b' then do advance; skipFields fuel true
    else malformed

def skipItems : (fuel : Nat) → (first : Bool) → Scanner Unit
  | 0, _ => malformed
  | fuel + 1, first => do
    if ← moreItems first then
      skip fuel
      skipItems fuel false
    else advance

def skipFields : (fuel : Nat) → (first : Bool) → Scanner Unit
  | 0, _ => malformed
  | fuel + 1, first => do
    if ← moreFields first then
      skipString
      colon
      skip fuel
      skipFields fuel false
    else advance

end

/-- Passes over one value. Every byte is passed once, so the text is fuel enough. -/
def skipValue : Scanner Unit := do skip (2 * (← get).length + 2)

/-- The items of a list, each read by `item`. -/
def items (item : Scanner α) : (fuel : Nat) → (first : Bool) → Scanner (List α)
  | 0, _ => malformed
  | fuel + 1, first => do
    if ← moreItems first then
      let x ← item
      return x :: (← items item fuel false)
    else return []

/-- A list of any length. -/
def list (item : Scanner α) : Scanner (List α) := do
  let b ← front
  if b = byte '[' then
    advance
    let xs ← items item ((← get).length + 1) true
    closeList
    return xs
  else otherShape b

end Scanner

end Json

end CollatedStore
