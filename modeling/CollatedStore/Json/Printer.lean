import CollatedStore.Json.Value

/-!
Writing JSON, one item or field to a line, each level two columns deeper than the one around it.
-/
namespace CollatedStore

namespace Json

namespace Printer

def unitDigits (n : Nat) : List Char :=
  [n / 4096, n / 256 % 16, n / 16 % 16, n % 16].map Nat.digitChar

/-- Only quotes, backslashes and control characters are escaped. -/
def escape (c : Char) : List Char :=
  match Scanner.escapes.find? fun e => e.1 != '/' && e.2.toNat == c.toNat with
  | some (letter, _) => ['\\', letter]
  | none => if c.toNat < 0x20 then ['\\', 'u'] ++ unitDigits c.toNat else [c]

def string (text : String) : String :=
  String.ofList ('"' :: text.toList.flatMap escape ++ ['"'])

def field (name value : String) : String := string name ++ ": " ++ value

def margin (depth : Nat) : String := "".pushn ' ' (2 * depth)

/-- Items between brackets that stand at `depth`. -/
def block (left right : String) (depth : Nat) (items : List String) : String :=
  if items.isEmpty then left ++ right
  else
    left ++ "\n" ++ ",\n".intercalate (items.map (margin (depth + 1) ++ ·)) ++ "\n" ++
      margin depth ++ right

def list : (depth : Nat) → List String → String := block "[" "]"

def object : (depth : Nat) → List String → String := block "\x7b" "\x7d"

end Printer

end Json

end CollatedStore
