import CollatedStore.Json.Record
import CollatedStore.Sample.Basic
import CollatedStore.Text.Quoted

/-!
Reading samples from JSON. A sample's strings are checked to be hexadecimal as soon as they are
read.
-/
namespace CollatedStore

namespace Sample

open Json

/-- A string of hexadecimal digits. -/
def hexString : Scanner String := do
  let text ← Scanner.string
  if (Hex.decode? text).isSome then return text
  else Scanner.rejected ("malformed hex operand " ++ Quoted.encode text)

/-- A sample whose fields are being read. -/
structure Draft where
  id : Option String
  description : Option String
  aHex : Option String
  bHex : Option String
  expected : Option Int

def Draft.empty : Draft := ⟨none, none, none, none, none⟩

def Draft.sample? (d : Draft) : Option Sample := do
  return ⟨← d.id, ← d.description, ← d.aHex, ← d.bHex, ← d.expected⟩

def fields : List (Json.Field Draft) :=
  [⟨"id", fun d => d.id.isSome, fun d => return { d with id := some (← Scanner.string) }⟩,
   ⟨"description", fun d => d.description.isSome,
    fun d => return { d with description := some (← Scanner.string) }⟩,
   ⟨"a_hex", fun d => d.aHex.isSome, fun d => return { d with aHex := some (← hexString) }⟩,
   ⟨"b_hex", fun d => d.bHex.isSome, fun d => return { d with bHex := some (← hexString) }⟩,
   ⟨"expected", fun d => d.expected.isSome,
    fun d => return { d with expected := some (← Scanner.integerBetween (-128) 127) }⟩]

def scan : Scanner Sample := do
  match (← Scanner.record fields Draft.empty).sample? with
  | some sample => return sample
  | none => Scanner.misshapen

/-- The one field of a file of samples. -/
def baselineField : Json.Field (Option (List Sample)) :=
  ⟨"baseline", Option.isSome, fun _ => some <$> Scanner.list scan⟩

def scanFile : Scanner (List Sample) := do
  let samples ← Scanner.record [baselineField] none
  Scanner.finish
  match samples with
  | some samples => return samples
  | none => Scanner.misshapen

/-- Reads a file of samples. -/
def ofJson (text : String) : Except Flaw (List Sample) := scanFile.run' (Utf8.encode text)

end Sample

end CollatedStore
