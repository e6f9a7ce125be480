/-! Sets of code points given as closed ranges. -/

namespace FirmataSketch.Text

/-- A set of code points: each pair holds the first and the last point of a range. -/
abbrev Ranges := List (Nat × Nat)

def Ranges.has (rs : Ranges) (c : Char) : Bool :=
  rs.any fun r => r.1 ≤ c.toNat && c.toNat ≤ r.2

end FirmataSketch.Text
