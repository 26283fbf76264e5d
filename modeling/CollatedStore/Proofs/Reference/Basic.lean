import CollatedStore.Cursor
import CollatedStore.Descriptor
import CollatedStore.Proofs.Holding

/-!
What a database is compared with: data types that take the same requests, and know nothing of
places, searches, or bytes in use.
-/
namespace CollatedStore

/-- The status of a request, and the value that is handed out with it. -/
structure Answer where
  status : Status
  value : Option Bytes
  deriving DecidableEq, Repr

namespace Answer

def success : Answer := ⟨.success, none⟩

def notFound : Answer := ⟨.notFound, none⟩

/-- What the caller is told. Its descriptor is filled or left as it was. -/
def told (a : Answer) (data : Option Descriptor) : Outcome × Option Descriptor :=
  (.ok a.status, match a.value with
    | some value => some (.filled value)
    | none => data)

end Answer

/-- A request on a database. A put may go through a cursor. -/
inductive Request where
  | get (key data : Option Descriptor)
  | put (key data : Option Descriptor) (rule : PutRule)
  | cursorPut (cursor : Handle) (key data : Option Descriptor) (rule : PutRule)
  | del (key data : Option Descriptor)
  deriving DecidableEq, Repr

def Request.data : Request → Option Descriptor
  | .get _ data | .put _ data _ | .cursorPut _ _ data _ | .del _ data => data

/-- The reads and writes of a data type that stands for a database. -/
structure Reference (M : Type) where
  contents : M → Contents
  get : M → Bytes → Option Bytes
  put : M → PutRule → Bytes → Bytes → Except Answer M
  remove : M → Bytes → Option Bytes → Option M

namespace Reference

variable {M : Type}

def answerGet (ref : Reference M) (m : M) (key data : Option Descriptor) : Answer :=
  match key, data with
  | some key, some _ =>
    if validKey key.bytes then
      match ref.get m key.bytes with
      | some value => ⟨.success, some value⟩
      | none => .notFound
    else ⟨.badValSize, none⟩
  | _, _ => ⟨.invalid, none⟩

/-- A write that is refused leaves everything as it was. -/
def settle (m : M) : Except Answer M → Answer × M
  | .ok m' => (.success, m')
  | .error refusal => (refusal, m)

def answerPut (ref : Reference M) (m : M) (key data : Option Descriptor) (rule : PutRule) :
    Answer × M :=
  match key, data with
  | some key, some value =>
    if validKey key.bytes then settle m (ref.put m rule key.bytes value.bytes)
    else (⟨.badValSize, none⟩, m)
  | _, _ => (⟨.invalid, none⟩, m)

def answerDel (ref : Reference M) (m : M) (key data : Option Descriptor) : Answer × M :=
  match key with
  | some key =>
    if validKey key.bytes then
      match ref.remove m key.bytes (data.map Descriptor.bytes) with
      | some m' => (.success, m')
      | none => (.notFound, m)
    else (⟨.badValSize, none⟩, m)
  | none => (⟨.invalid, none⟩, m)

def answer (ref : Reference M) (m : M) : Request → Answer × M
  | .get key data => (ref.answerGet m key data, m)
  | .put key data rule | .cursorPut _ key data rule => ref.answerPut m key data rule
  | .del key data => ref.answerDel m key data

/-- Answers requests one after another. -/
def run (ref : Reference M) (m : M) : List Request → List (Outcome × Option Descriptor) × M
  | [] => ([], m)
  | request :: requests =>
    let (a, m) := ref.answer m request
    let (rest, m) := ref.run m requests
    (a.told request.data :: rest, m)

/-- A write on a holding comes to what the reference does. `rest` is what other databases use. -/
inductive Matches (ref : Reference M) (rest : Nat) : Except Stop Holding → Except Answer M → Prop
  | done {entries : Contents} {used : Nat} {m : M} (same : entries = ref.contents m)
      (counted : used = rest + (ref.contents m).size) :
      Matches ref rest (.ok ⟨entries, used⟩) (.ok m)
  | refused (s : Status) : Matches ref rest (.error (.status s)) (.error ⟨s, none⟩)
  | existing (p : Place) (v : Bytes) :
      Matches ref rest (.error (.existing p v)) (.error ⟨.keyExist, some v⟩)

/-- The holding of a database that stands for `m`. -/
def holding (ref : Reference M) (rest : Nat) (m : M) : Holding :=
  ⟨ref.contents m, rest + (ref.contents m).size⟩

/-- Under these answers, a database of this layout does what the reference does, as long as the map
has room for what the reference holds. -/
structure Simulates (ref : Reference M) (layout : Layout) (answer : Question → Ordering) :
    Prop where
  get : ∀ m {key}, validKey key = true →
    (do (ref.contents m).valueAt (← Cursor.seekKey layout (ref.contents m) key)).eval answer =
      (ref.get m key).elim (.error (.status .notFound)) .ok
  put : ∀ m rest limit rule key value,
    (∀ m', ref.put m rule key value = .ok m' → rest + (ref.contents m').size ≤ limit) →
    ref.Matches rest
      ((((ref.holding rest m).put layout limit rule key value).eval answer).map (·.2))
      (ref.put m rule key value)
  remove : ∀ m rest key value,
    ref.Matches rest (((ref.holding rest m).remove layout key value).eval answer)
      ((ref.remove m key value).elim (.error .notFound) .ok)

end Reference

end CollatedStore
