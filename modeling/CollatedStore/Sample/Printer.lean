import CollatedStore.Json.Printer
import CollatedStore.Sample.Basic

/-!
Writing samples as JSON.
-/
namespace CollatedStore

namespace Sample

open Json

/-- A sample in a list of a file. -/
def print (s : Sample) : String :=
  Printer.object 2
    [Printer.field "id" (Printer.string s.id),
     Printer.field "description" (Printer.string s.description),
     Printer.field "a_hex" (Printer.string s.aHex),
     Printer.field "b_hex" (Printer.string s.bHex),
     Printer.field "expected" (toString s.expected)]

/-- The file of these samples. -/
def toJson (samples : List Sample) : String :=
  Printer.object 0 [Printer.field "baseline" (Printer.list 1 (samples.map print))]

end Sample

end CollatedStore
