/-!
Byte strings, and the baseline order on them: bytewise over what both strings have, then the
shorter string first.
-/
namespace CollatedStore

abbrev Bytes := List UInt8

namespace Bytes

/-- The baseline order. Bytes compare unsigned. -/
protected def compare : Bytes → Bytes → Ordering
  | [], [] => .eq
  | [], _ :: _ => .lt
  | _ :: _, [] => .gt
  | a :: as, b :: bs => if a < b then .lt else if b < a then .gt else Bytes.compare as bs

end Bytes

end CollatedStore
