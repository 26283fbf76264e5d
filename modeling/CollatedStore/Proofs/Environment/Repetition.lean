import CollatedStore.Proofs.Environment.Landing
import CollatedStore.Proofs.Environment.Twins

/-!
The same move made again and again. It hands out one thing after another until nothing is left, and
from then on it finds nothing, however often it is made.
-/
namespace CollatedStore

/-- A step that hands out the first of these and leaves the others for the steps that follow, of
which `left` tells what is still to come from a place; or finds nothing where there are none. -/
inductive Contents.Serves (entries : Contents) (left : Place → List (Bytes × Bytes)) :
    List (Bytes × Bytes) → Work Fetch → Prop
  | item {p : Place} {x : Bytes × Bytes} {step : Work Fetch}
      (lands : entries.Lands (some (p, x)) step) : Serves entries left (x :: left p) step
  | nothing {step : Work Fetch} (lands : entries.Lands none step) : Serves entries left [] step

theorem Contents.Lands.holds {entries : Contents} {p : Place} {x : Bytes × Bytes}
    {step : Work Fetch} (lands : entries.Lands (some (p, x)) step) : entries.holds p = true := by
  cases lands with
  | item stood was => exact holds_iff.mpr ⟨_, stood, (List.getElem?_eq_some_iff.mp was).1⟩
  | page stood _ there => exact holds_iff.mpr ⟨_, stood, there⟩

namespace Environment

/-- How a move ends that finds this, and what it hands out. -/
def told (key data : Option Descriptor) : Option (Bytes × Bytes) → Outcome × Handed
  | some x => (.ok .success, .pair (key.map fun _ => .filled x.1) (data.map fun _ => .filled x.2))
  | none => (.ok .notFound, .pair key data)

/-- Whatever descriptors are given, these moves in turn find this. -/
def Recites (env : Environment) (cursor : Handle) (ops : List CursorOp)
    (found : List (Option (Bytes × Bytes))) : Prop :=
  ∀ key data, env.results (ops.map fun op => .cursorGet cursor key data op.code) =
    .done (found.map (told key data))

/-- However often it is made, the move finds these in turn, and then nothing any more. -/
def Repeats (env : Environment) (cursor : Handle) (op : CursorOp) (xs : List (Bytes × Bytes)) :
    Prop :=
  ∀ n, env.Recites cursor (List.replicate n op) ((List.range n).map (xs[·]?))

section
variable {env : Environment} {cursor : Handle} {c : Cursor} {entries : Contents} {layout : Layout}
  {op : CursorOp} {found : Option (Place × Bytes × Bytes)} {key data : Option Descriptor}

theorem respond_lands (here : env.cursors.get? cursor = some c)
    (readable : env.readable c.txn c.dbi = .ok (entries, layout))
    (known : CursorOp.ofCode? op.code = some op)
    (lands : entries.Lands found
      (c.target layout entries op (Descriptor.bytesOf key) (Descriptor.bytesOf data))) :
    env.respond (.cursorGet cursor key data op.code) =
      .done ⟨(told key data (found.map Prod.snd)).1, (told key data (found.map Prod.snd)).2,
        env.setCursor cursor (c.landed found)⟩ := by
  rw [respond, cursorGet_lands here readable known lands]
  cases found with
  | none => rfl
  | some x => rfl

theorem results_cons (here : env.cursors.get? cursor = some c)
    (readable : env.readable c.txn c.dbi = .ok (entries, layout))
    (known : CursorOp.ofCode? op.code = some op)
    (lands : entries.Lands found
      (c.target layout entries op (Descriptor.bytesOf key) (Descriptor.bytesOf data)))
    {calls : List Call} {answers : List (Outcome × Handed)}
    (rest : (env.setCursor cursor (c.landed found)).results calls = .done answers) :
    env.results (.cursorGet cursor key data op.code :: calls) =
      .done (told key data (found.map Prod.snd) :: answers) := by
  rw [results, respond_lands here readable known lands, Inquiry.done_bind]
  dsimp only
  rw [rest]
  rfl

theorem recites_cons (here : env.cursors.get? cursor = some c)
    (readable : env.readable c.txn c.dbi = .ok (entries, layout))
    (known : CursorOp.ofCode? op.code = some op)
    (lands : ∀ key data, entries.Lands found (c.target layout entries op key data))
    {ops : List CursorOp} {others : List (Option (Bytes × Bytes))}
    (rest : (env.setCursor cursor (c.landed found)).Recites cursor ops others) :
    env.Recites cursor (op :: ops) (found.map Prod.snd :: others) := fun key data =>
  results_cons here readable known (lands _ _) (rest key data)

/-- A move that serves these, and from each place what is left there, finds them in turn. A mark on
the cursor may not matter to it, since it is gone after the first time. -/
theorem repeats_of_serves {left : Place → List (Bytes × Bytes)} {xs : List (Bytes × Bytes)}
    (known : CursorOp.ofCode? op.code = some op) (here : env.cursors.get? cursor = some c)
    (readable : env.readable c.txn c.dbi = .ok (entries, layout))
    (blind : ∀ key data, Cursor.target { c with deleted := false } layout entries op key data =
      c.target layout entries op key data)
    (onward : ∀ {c' : Cursor} {p}, c'.place = some p → c'.deleted = false →
      entries.holds p = true → ∀ key data,
        entries.Serves left (left p) (c'.target layout entries op key data))
    (serves : ∀ key data, entries.Serves left xs (c.target layout entries op key data)) :
    env.Repeats cursor op xs := by
  intro n key data
  induction n generalizing env c xs with
  | zero => rfl
  | succ n ih =>
    have placed : ∀ found, (env.setCursor cursor (c.landed found)).cursors.get? cursor =
        some (c.landed found) := fun _ => Table.get?_insert_self _ _ _
    have first := serves (Descriptor.bytesOf key) (Descriptor.bytesOf data)
    rw [List.replicate_succ, List.range_succ_eq_map]
    simp only [List.map_cons, List.map_map]
    generalize target : c.target layout entries op _ _ = step at first
    cases first with
    | @item p x _ lands =>
      have later := ih (placed (some (p, x))) readable (fun _ _ => rfl)
        (onward rfl rfl lands.holds)
      rw [List.map_map] at later
      exact results_cons here readable known (target ▸ lands) later
    | nothing lands =>
      have still : ∀ key data,
          entries.Serves left [] ((c.landed none).target layout entries op key data) :=
        fun key data => (blind key data).symm ▸ serves key data
      have later := ih (placed none) readable (fun _ _ => rfl) still
      rw [List.map_map] at later
      exact results_cons here readable known (target ▸ lands) later

end

end Environment

end CollatedStore
