import CollatedStore.Bytes

/-!
Scanning JSON from the front. The first flaw in the order of the text ends a scan: a text that is
not JSON, a text that ends early, or a value of another shape than the reader wants.
-/
namespace CollatedStore

namespace Json

inductive Flaw where
  | malformed
  | truncated
  | misshapen (message : Option String)
  deriving DecidableEq, Repr

/-- What is left of the text is the state. -/
abbrev Scanner := StateT Bytes (Except Flaw)

namespace Scanner

variable {α : Type}

def malformed : Scanner α := throw .malformed

def truncated : Scanner α := throw .truncated

/-- A value of the wrong shape. -/
def misshapen : Scanner α := throw (.misshapen none)

/-- A value of the wrong shape, with a text that tells what is wrong with it. -/
def rejected (message : String) : Scanner α := throw (.misshapen (some message))

def byte (c : Char) : UInt8 := c.toNat.toUInt8

def isBlank (b : UInt8) : Bool := b == 0x20 || b == 0x0A || b == 0x09 || b == 0x0D

def isDigit (b : UInt8) : Bool := byte '0' ≤ b && b ≤ byte '9'

/-- The value of a decimal digit. -/
def digitOf (b : UInt8) : Nat := b.toNat - (byte '0').toNat

def peek : Scanner (Option UInt8) := return (← get).head?

def advance : Scanner Unit := modify (List.drop 1)

/-- Takes the next byte, if there is one. -/
def take : Scanner (Option UInt8) := do
  let b ← peek
  advance
  return b

/-- Takes the bytes in front that satisfy `p`. -/
def takeWhile (p : UInt8 → Bool) : Scanner Bytes :=
  modifyGet fun rest => (rest.takeWhile p, rest.dropWhile p)

/-- The next byte that is not blank, which stays in front. -/
def peekSolid : Scanner (Option UInt8) := do
  modify (List.dropWhile isBlank)
  peek

/-- Takes the bytes of a word whose first byte has been recognised. -/
def word (text : String) : Scanner Unit :=
  text.toList.drop 1 |>.forM fun c => do
    match ← take with
    | none => truncated
    | some b => if b = byte c then return () else malformed

/-- Nothing but blanks may follow a whole text. -/
def finish : Scanner Unit := do
  match ← peekSolid with
  | none => return ()
  | some _ => malformed

end Scanner

end Json

end CollatedStore
