import FirmataSketch.Text.Digit

/-! Time zones with a fixed offset. -/

namespace FirmataSketch.Clock

/-- The offset is in seconds east of UTC. -/
structure Zone where
  offset : Int
  name : String
  deriving DecidableEq, Repr

namespace Zone

/-- The sign, the hours and the minutes of an offset, and its seconds if there are any, with a
separator between them. -/
def offsetText (separator : String) (offset : Int) : String :=
  let n := offset.natAbs
  (if offset < 0 then "-" else "+") ++ Text.padded 2 (n / 3600) ++ separator ++
    Text.padded 2 (n / 60 % 60) ++
    if n % 60 = 0 then "" else separator ++ Text.padded 2 (n % 60)

/-- A zone without a name of its own is named after its offset. -/
def ofOffset (offset : Int) : Zone :=
  ⟨offset, if offset = 0 then "UTC" else "UTC" ++ offsetText ":" offset⟩

def utc : Zone := ofOffset 0

end Zone

end FirmataSketch.Clock
