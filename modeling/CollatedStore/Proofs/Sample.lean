import CollatedStore.Proofs.Hex
import CollatedStore.Proofs.Json.Scanner
import CollatedStore.Sample.Reader

/-!
Samples read from a file have two strings that can be decoded. The check is made as the fields are
read, so it holds of a sample in either form, with its fields in any order.
-/
namespace CollatedStore.Sample

open Json Json.Scanner

/-- Both strings can be read from the fields, and are written as the fields but for capitals. -/
def Decodes (s : Sample) : Prop :=
  ∃ a b, s.a? = some a ∧ s.b? = some b ∧
    Hex.encode a = s.aHex.toLower ∧ Hex.encode b = s.bHex.toLower

/-- A field that can be decoded, if it has been read. -/
def Readable (field : Option String) : Prop :=
  ∀ text, field = some text → (Hex.decode? text).isSome

structure Draft.Checked (d : Draft) : Prop where
  a : Readable d.aHex
  b : Readable d.bHex

/-- The samples of a file, once they have been read. -/
def Checked (found : Option (List Sample)) : Prop :=
  ∀ samples, found = some samples → ∀ s ∈ samples, s.Decodes

theorem readable_none : Readable none := fun _ read => nomatch read

theorem readable_some {text : String} (decodes : (Hex.decode? text).isSome) :
    Readable (some text) := by
  rintro _ ⟨⟩
  exact decodes

theorem Draft.empty_checked : Draft.empty.Checked := ⟨readable_none, readable_none⟩

theorem decodes_of_isSome {s : Sample} (a : (Hex.decode? s.aHex).isSome)
    (b : (Hex.decode? s.bHex).isSome) : s.Decodes := by
  obtain ⟨a, read_a⟩ := Option.isSome_iff_exists.mp a
  obtain ⟨b, read_b⟩ := Option.isSome_iff_exists.mp b
  exact ⟨a, b, read_a, read_b, (Hex.decode?_eq_some_iff.mp read_a).symm,
    (Hex.decode?_eq_some_iff.mp read_b).symm⟩

theorem Draft.Checked.decodes {d : Draft} {s : Sample} (checked : d.Checked)
    (whole : d.sample? = some s) : s.Decodes := by
  simp only [Draft.sample?, Option.bind_eq_bind, Option.bind_eq_some_iff, Option.pure_def,
    Option.some.injEq] at whole
  obtain ⟨id, -, description, -, a, has_a, b, has_b, expected, -, rfl⟩ := whole
  exact decodes_of_isSome (checked.a a has_a) (checked.b b has_b)

theorem hexString_gives : Gives hexString fun text => (Hex.decode? text).isSome := by
  refine .after fun text => ?_
  split
  case isTrue decodes => exact .pure decodes
  case isFalse => exact .throw _

theorem fields_checked : ∀ field ∈ fields, ∀ d : Draft, d.Checked →
    Gives (field.read d) Draft.Checked := by
  intro field mem d checked
  simp only [fields, List.mem_cons, List.not_mem_nil, or_false] at mem
  obtain rfl | rfl | rfl | rfl | rfl := mem
  · exact .after fun _ => .pure ⟨checked.a, checked.b⟩
  · exact .after fun _ => .pure ⟨checked.a, checked.b⟩
  · exact hexString_gives.bind fun text decodes => .pure ⟨readable_some decodes, checked.b⟩
  · exact hexString_gives.bind fun text decodes => .pure ⟨checked.a, readable_some decodes⟩
  · exact .after fun _ => .pure ⟨checked.a, checked.b⟩

theorem scan_gives : Gives scan Decodes := by
  refine (record_gives fields_checked Draft.empty_checked).bind fun d checked => ?_
  split
  case h_1 s whole => exact .pure (checked.decodes whole)
  case h_2 => exact .throw _

theorem baselineField_checked : ∀ field ∈ [baselineField], ∀ found, Checked found →
    Gives (field.read found) Checked := by
  intro field mem found _
  obtain rfl := List.mem_singleton.mp mem
  refine (list_gives scan_gives).map fun samples all => ?_
  rintro _ ⟨⟩
  exact all

theorem scanFile_gives : Gives scanFile fun samples => ∀ s ∈ samples, s.Decodes := by
  have none_found : Checked none := fun _ found => nomatch found
  refine (record_gives baselineField_checked none_found).bind fun found all => .after fun _ => ?_
  split
  case h_1 samples => exact .pure (all samples rfl)
  case h_2 => exact .throw _

theorem ofJson_decodes {file : String} {samples : List Sample}
    (accepted : ofJson file = .ok samples) : ∀ s ∈ samples, s.Decodes := by
  rw [ofJson, StateT.run'_eq] at accepted
  cases scanned : scanFile.run (Utf8.encode file) with
  | error flaw =>
    rw [scanned] at accepted
    cases accepted
  | ok taken =>
    rw [scanned] at accepted
    cases accepted
    exact scanFile_gives (Utf8.encode file) taken.1 taken.2 scanned

/-- **Hexadecimal is read as it is written.** Bytes are written as two small digits each and are
read back from them. A text is read if it is an even number of bytes long and made of digits with
letters of either kind, and then it is what the bytes are written as but for capitals. So both
strings of every sample of a file that is accepted can be decoded, and are what their fields say. -/
theorem hexadecimal_is_read_as_written (bytes : Bytes) (text file : String) :
    Hex.decode? (Hex.encode bytes) = some bytes ∧ Hex.Written bytes (Hex.encode bytes) ∧
      ((Hex.decode? text).isSome ↔
        (Utf8.encode text).length % 2 = 0 ∧ ∀ c ∈ text.toList, Hex.IsDigit c) ∧
      (∀ read, Hex.decode? text = some read → Hex.encode read = text.toLower) ∧
      ∀ samples, ofJson file = .ok samples → ∀ s ∈ samples, s.Decodes :=
  ⟨Hex.decode?_encode, Hex.encode_written, Hex.decode?_isSome_iff,
    fun _ read => (Hex.decode?_eq_some_iff.mp read).symm, fun _ => ofJson_decodes⟩

/-- The field keeps its capital, which is read as the small letter is. -/
theorem hexadecimal_is_read_as_written_in_mixed_letters :
    let samples := [Sample.mk "mixed" "" "0aF0" "" 1]
    Hex.decode? "0aF0" = some [0x0A, 0xF0] ∧ Hex.encode [0x0A, 0xF0] = "0aF0".toLower ∧
      ofJson "\x7b\"baseline\":[[\"mixed\",\"\",\"0aF0\",\"\",1]]\x7d" = .ok samples ∧
      ∀ s ∈ samples, s.Decodes := by
  intro samples
  have read : Hex.decode? "0aF0" = some [0x0A, 0xF0] := by decide +kernel
  have accepted : ofJson "\x7b\"baseline\":[[\"mixed\",\"\",\"0aF0\",\"\",1]]\x7d" = .ok samples :=
    rfl
  obtain ⟨-, -, -, rewritten, decode⟩ := hexadecimal_is_read_as_written [0x0A, 0xF0] "0aF0"
    "\x7b\"baseline\":[[\"mixed\",\"\",\"0aF0\",\"\",1]]\x7d"
  exact ⟨read, rewritten _ read, accepted, decode samples accepted⟩

end CollatedStore.Sample
