import FirmataSketch.Value.Display

/-! The order in which values are listed: numbers by their size, texts by their characters. -/

namespace FirmataSketch.Value

open Number (Binary64)

/-- Where a number stands: the sign if it is infinite or else zero, and then its size. -/
def rank? : Value → Option (Int × Int)
  | .bool b => some (0, Binary64.unitsOfInt (if b then 1 else 0))
  | .int n => some (0, Binary64.unitsOfInt n)
  | .real (.infinite negative) => some (if negative then -1 else 1, 0)
  | .real x => x.units?.map fun n => (0, n)
  | _ => none

/-- The first value may stand before the second. Values that are not both numbers are compared as
texts. -/
def notAfter (a b : Value) : Bool :=
  match a.rank?, b.rank? with
  | some r, some s => r.1 < s.1 || (r.1 == s.1 && r.2 ≤ s.2)
  | _, _ => a.display ≤ b.display

end FirmataSketch.Value
