import FirmataSketch.Value.Basic

/-! Keys: the values by which features, instances and headers are told apart. -/

namespace FirmataSketch

open Number (Binary64)

/-- What is left of a value when it serves as a key. Numbers count by their size, so `true`, `1` and
`1.0` are one key; `real` holds only numbers with a fraction, the infinities and NaN. -/
inductive Key where
  | null
  | whole (n : Int)
  | real (x : Binary64)
  | text (s : String)
  deriving DecidableEq, Repr

namespace Value

/-- Lists and records are not keys. -/
def key? : Value → Option Key
  | .null => some .null
  | .bool b => some (.whole (if b then 1 else 0))
  | .int n => some (.whole n)
  | .real x => some (match x.toInt? with | some n => .whole n | none => .real x)
  | .text s => some (.text s)
  | .list _ => none
  | .record _ => none

end Value

/-- Two keys are equal as numbers and texts if they are the same key, except that NaN is not equal
to itself. -/
def Key.equal (a b : Key) : Bool := a == b && a != .real .nan

def Key.isAmong (k : Key) (vs : List Value) : Bool := vs.any fun v => v.key? == some k

end FirmataSketch
