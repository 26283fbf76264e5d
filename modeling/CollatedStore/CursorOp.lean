/-!
The ways to move a cursor, with their numbers and names.
-/
namespace CollatedStore

inductive CursorOp where
  | first | firstDup | getBoth | getBothRange | getCurrent | getMultiple | last | lastDup
  | next | nextDup | nextMultiple | nextNoDup | prev | prevDup | prevNoDup
  | set | setKey | setRange | prevMultiple
  deriving DecidableEq, Repr

namespace CursorOp

/-- In the order of their numbers, from zero. -/
def all : List (CursorOp × String) :=
  [(first, "First"), (firstDup, "FirstDup"), (getBoth, "GetBoth"),
   (getBothRange, "GetBothRange"), (getCurrent, "GetCurrent"), (getMultiple, "GetMultiple"),
   (last, "Last"), (lastDup, "LastDup"), (next, "Next"), (nextDup, "NextDup"),
   (nextMultiple, "NextMultiple"), (nextNoDup, "NextNoDup"), (prev, "Prev"),
   (prevDup, "PrevDup"), (prevNoDup, "PrevNoDup"), (set, "Set"), (setKey, "SetKey"),
   (setRange, "SetRange"), (prevMultiple, "PrevMultiple")]

def ofCode? (code : UInt32) : Option CursorOp := (all[code.toNat]?).map (·.1)

def ofName? (name : String) : Option CursorOp := (all.find? (·.2 == name)).map (·.1)

def code (op : CursorOp) : UInt32 := (all.findIdx (·.1 == op)).toUInt32

end CursorOp

end CollatedStore
