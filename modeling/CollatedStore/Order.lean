import CollatedStore.Bytes

/-!
Orders on byte strings, their integer form, and collations: orders that may fail with a text
instead of answering.
-/
namespace CollatedStore

abbrev Order := Bytes → Bytes → Ordering

namespace Order

/-- The sign by which a comparison function reports an order. -/
def toCode : Ordering → Int32
  | .lt => -1
  | .eq => 0
  | .gt => 1

/-- Only the sign of a comparison function's answer counts. -/
def ofCode (n : Int32) : Ordering :=
  if n < 0 then .lt else if n = 0 then .eq else .gt

def baseline : Order := Bytes.compare

def reverse : Order := fun a b => baseline b a

/-- Shorter strings first, strings of one length bytewise. -/
def shortlex : Order := fun a b => (compare a.length b.length).then (baseline a b)

/-- Bytewise from the last byte to the first. -/
def suffix : Order := fun a b => baseline a.reverse b.reverse

def length : Order := fun a b => compare a.length b.length

/-- ASCII capitals count as small letters. -/
def lowerByte (b : UInt8) : UInt8 :=
  if 0x41 ≤ b ∧ b ≤ 0x5A then b + 0x20 else b

def nocase : Order := fun a b => baseline (a.map lowerByte) (b.map lowerByte)

def equal : Order := fun _ _ => .eq

/-- The order in integer form, multiplied by `scale` in 32-bit arithmetic. -/
def scaled (order : Order) (scale : Int32) : Bytes → Bytes → Int32 :=
  fun a b => toCode (order a b) * scale

end Order

/-- An order lent by a user. The text tells why it failed to answer. -/
abbrev Collation := Bytes → Bytes → Except String Ordering

namespace Collation

def ofOrder (order : Order) : Collation := fun a b => .ok (order a b)

/-- A collation made of a function that reports by sign. -/
def ofCallback (callback : Bytes → Bytes → Int32) : Collation :=
  fun a b => .ok (Order.ofCode (callback a b))

/-- Never answers. -/
def failing (text : String) : Collation := fun _ _ => .error text

/-- Answers in the baseline order, but fails on a string that begins with `mark`. -/
def wary (mark : UInt8) (text : String) : Collation := fun a b =>
  if a.head? = some mark ∨ b.head? = some mark then .error text else .ok (Order.baseline a b)

end Collation

end CollatedStore
