import CollatedStore.Proofs.Environment.Admission
import CollatedStore.Proofs.Evaluation

/-!
Where a move comes to. A step that leads to an item, or to a run of values of one key, decides all
that the call hands out, whatever descriptors it is given, and where the cursor then stands.
-/
namespace CollatedStore

/-- A step of a cursor that leads to the item at a place, or to a run of values that ends there,
with what is read; or to nothing. -/
inductive Contents.Lands (entries : Contents) : Option (Place × Bytes × Bytes) → Work Fetch → Prop
  | item {p : Place} {e : Entry} {v : Bytes} (stood : entries[p.entry]? = some e)
      (was : e.values[p.value]? = some v) : Lands entries (some (p, e.key, v)) (pure (.item p))
  | page {p : Place} {start : Nat} {e : Entry} (stood : entries[p.entry]? = some e)
      (first : start ≤ p.value) (there : p.value < e.values.length) :
      Lands entries (some (p, e.key, ((e.values.take (p.value + 1)).drop start).flatten))
        (pure (.page p.entry start (p.value + 1)))
  | nothing : Lands entries none (Work.refuse .notFound)

/-- The cursor after such a step: it stands where that led, and bears no mark. -/
def Cursor.landed (c : Cursor) (found : Option (Place × Bytes × Bytes)) : Cursor :=
  { c with place := (found.map Prod.fst).or c.place, deleted := false }

namespace Environment

/-- How a move ends that finds this. -/
def moveFound (key data : Option Descriptor) (store : Environment) :
    Option (Bytes × Bytes) → Reply Outcome Environment (Option Descriptor × Option Descriptor)
  | some x => ⟨.ok .success, (key.map fun _ => .filled x.1, data.map fun _ => .filled x.2), store⟩
  | none => ⟨.ok .notFound, (key, data), store⟩

variable {env : Environment} {cursor : Handle} {c : Cursor} {entries : Contents} {layout : Layout}
  {op : CursorOp} {code : UInt32} {found : Option (Place × Bytes × Bytes)}
  {key data : Option Descriptor}

/-- A step that leads somewhere decides where the cursor rests, and what is handed out. -/
theorem handOut_lands {p : Place} {x : Bytes × Bytes} {step : Work Fetch}
    (lands : entries.Lands (some (p, x)) step) (key data : Option Descriptor) :
    ∃ fetch, step = pure fetch ∧ Cursor.resting fetch = pure p ∧
      handOut entries fetch key data =
        pure (key.map fun _ => .filled x.1, data.map fun _ => .filled x.2) := by
  cases lands with
  | @item p e v stood was =>
    refine ⟨.item p, rfl, rfl, ?_⟩
    cases data <;>
      simp [handOut, Fetch.key, Fetch.value, Contents.valueAt, Work.itemAt, stood, was]
  | @page p start e stood first there =>
    have cut : Work.slice e.values start (p.value + 1) =
        pure ((e.values.take (p.value + 1)).drop start) := if_pos (by omega)
    have rests : Work.minus (p.value + 1) 1 = pure p.value := if_pos (Nat.succ_pos _)
    refine ⟨.page p.entry start (p.value + 1), rfl, ?_, ?_⟩
    · simp only [Cursor.resting, rests, pure_bind]
    · cases data <;> simp [handOut, Fetch.key, Fetch.value, Work.itemAt, stood, cut]

theorem cursorGet_lands (here : env.cursors.get? cursor = some c)
    (readable : env.readable c.txn c.dbi = .ok (entries, layout))
    (known : CursorOp.ofCode? code = some op)
    (lands : entries.Lands found
      (c.target layout entries op (Descriptor.bytesOf key) (Descriptor.bytesOf data))) :
    env.cursorGet cursor key data code =
      .done (moveFound key data (env.setCursor cursor (c.landed found)) (found.map Prod.snd)) := by
  have admitted := admitMove_eq_ok.mpr ⟨here, readable⟩
  simp only [cursorGet, admitted, known, Cursor.move]
  generalize c.target layout entries op _ _ = step at lands
  cases found with
  | some led =>
    obtain ⟨fetch, rfl, rests, read⟩ := handOut_lands lands key data
    simp only [pure_bind, rests, ExceptT.run_pure, Inquiry.pure_eq, Inquiry.done_bind, read]
    rfl
  | none =>
    cases lands
    rfl

/-- The same where it takes answers to tell where the step leads. -/
theorem eval_cursorGet_lands {answer : Question → Ordering} {step : Work Fetch}
    (here : env.cursors.get? cursor = some c)
    (readable : env.readable c.txn c.dbi = .ok (entries, layout))
    (known : CursorOp.ofCode? code = some op)
    (lands : entries.Lands found step)
    (answered : (c.target layout entries op (Descriptor.bytesOf key)
      (Descriptor.bytesOf data)).eval answer = step.eval answer) :
    (env.cursorGet cursor key data code).eval answer =
      moveFound key data (env.setCursor cursor (c.landed found)) (found.map Prod.snd) := by
  have admitted := admitMove_eq_ok.mpr ⟨here, readable⟩
  simp only [cursorGet, admitted, known, Inquiry.eval_bind, Work.eval_run, Cursor.move,
    Work.eval_bind, answered]
  cases found with
  | some led =>
    obtain ⟨fetch, rfl, rests, read⟩ := handOut_lands lands key data
    simp only [Work.eval_pure, ok_bind, rests, Inquiry.eval_bind, Work.eval_run, read]
    rfl
  | none =>
    cases lands
    rfl

end Environment

end CollatedStore
