import CollatedStore.Json.Value

/-!
Records in JSON: objects whose fields are known beforehand, which may also be written as lists of
their fields in order. An object may have other fields besides, but no known field twice.
-/
namespace CollatedStore

namespace Json

/-- A field of a record that is collected in `σ`. -/
structure Field (σ : Type) where
  name : String
  isSet : σ → Bool
  read : σ → Scanner σ

namespace Scanner

variable {σ : Type}

/-- Reads the fields as the items of a list. -/
def fieldsInOrder : List (Field σ) → (first : Bool) → σ → Scanner σ
  | [], _, s => return s
  | field :: rest, first, s => do
    if ← moreItems first then fieldsInOrder rest false (← field.read s) else misshapen

/-- Reads the fields of an object, and passes over those that are not known. -/
def fieldsByName (fields : List (Field σ)) : (fuel : Nat) → (first : Bool) → σ → Scanner σ
  | 0, _, _ => malformed
  | fuel + 1, first, s => do
    if ← moreFields first then
      let name ← stringBody
      match fields.find? (·.name == name) with
      | some field =>
        if field.isSet s then misshapen
        colon
        fieldsByName fields fuel false (← field.read s)
      | none =>
        colon
        skipValue
        fieldsByName fields fuel false s
    else if fields.all (·.isSet s) then return s
    else misshapen

/-- Reads all fields of a record, starting from `s`. -/
def record (fields : List (Field σ)) (s : σ) : Scanner σ := do
  let b ← front
  if b = byte '[' then
    advance
    let s ← fieldsInOrder fields true s
    closeList
    return s
  else if b = byte '\x7b' then
    advance
    let s ← fieldsByName fields ((← get).length + 1) true s
    closeObject
    return s
  else otherShape b

end Scanner

end Json

end CollatedStore
