import CollatedStore.Text.Utf8

/-!
The lines that a store hands to a message function: bytes without a zero byte, read as text.
-/
namespace CollatedStore

structure Line where
  bytes : Bytes
  deriving DecidableEq, Repr

namespace Line

def text? (line : Line) : Option String := Utf8.decode? line.bytes

def text (line : Line) : String := Utf8.decodeLossy line.bytes

def isLineBreak (c : Char) : Bool := c == '\n' || c == '\r'

/-- The text without the line breaks at its end. -/
def trimmed (line : Line) : String :=
  String.ofList ((line.text.toList.reverse.dropWhile isLineBreak).reverse)

end Line

end CollatedStore
