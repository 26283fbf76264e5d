import CollatedStore.Hex
import CollatedStore.Order

/-!
Sample comparisons: two byte strings, and how the first stands to the second. They let every user of
the baseline order check it against the same list.
-/
namespace CollatedStore

structure Sample where
  id : String
  description : String
  /-- The first string, in hexadecimal. -/
  aHex : String
  /-- The second string, in hexadecimal. -/
  bHex : String
  /-- Its sign is the order. -/
  expected : Int
  deriving DecidableEq, Repr

namespace Sample

def ofBytes (id description : String) (a b : Bytes) (expected : Int) : Sample :=
  ⟨id, description, Hex.encode a, Hex.encode b, expected⟩

def a? (s : Sample) : Option Bytes := Hex.decode? s.aHex

def b? (s : Sample) : Option Bytes := Hex.decode? s.bHex

def order (s : Sample) : Ordering := compare s.expected 0

/-- The samples of the baseline order. -/
def baseline : List Sample :=
  [ofBytes "empty_empty" "Two empty buffers" [] [] 0,
   ofBytes "empty_first" "Empty sorts first" [] [0x00] (-1),
   ofBytes "prefix" "Proper prefix sorts first" [0x61, 0x62] [0x61, 0x62, 0x63] (-1),
   ofBytes "first_byte" "First differing byte wins" [0x02, 0x01] [0x01, 0x02] 1,
   ofBytes "equal" "Identical content" [0x73, 0x61, 0x6D, 0x65] [0x73, 0x61, 0x6D, 0x65] 0,
   ofBytes "unsigned" "Bytes compare unsigned" [0x80] [0x7F] 1,
   ofBytes "high_byte" "0xff after 0x00" [0x00] [0xFF] (-1),
   ofBytes "embedded_nul" "NUL is ordinary data" [0x61, 0x00, 0x62] [0x61, 0x00, 0x63] (-1),
   ofBytes "trailing_nul" "Trailing NUL lengthens" [0x61, 0x00] [0x61] 1,
   ofBytes "length_after_content" "Content before length" [0x62] [0x61, 0x61, 0x61, 0x61] 1]

end Sample

end CollatedStore
