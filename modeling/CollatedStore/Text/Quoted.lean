import CollatedStore.Text.Legible

/-!
Quoted text, as messages show it: in double quotes, with a backslash before what would not show as
itself.
-/
namespace CollatedStore

namespace Quoted

/-- The characters that have an escape of one letter. -/
def short? : Char → Option Char
  | '"' => some '"'
  | '\\' => some '\\'
  | '\x00' => some '0'
  | '\t' => some 't'
  | '\n' => some 'n'
  | '\r' => some 'r'
  | _ => none

def escape (c : Char) : List Char :=
  match short? c with
  | some letter => ['\\', letter]
  | none =>
    if isLegible c then [c]
    else ['\\', 'u', '\x7b'] ++ Nat.toDigits 16 c.toNat ++ ['\x7d']

def encode (text : String) : String :=
  String.ofList ('"' :: text.toList.flatMap escape ++ ['"'])

end Quoted

end CollatedStore
