import FirmataSketch.Number.Shortest
import FirmataSketch.Text.Digit

/-! How a floating point number is laid out as text. -/

namespace FirmataSketch.Number

/-- Where the point stands, counted from the first digit, decides the notation: within the bounds
the number is written out, outside them it gets an exponent of at least so many digits. -/
structure Layout where
  leastPoint : Int
  greatestPoint : Int
  exponentDigits : Nat

def Layout.plain : Layout := ⟨-3, 16, 2⟩

/-- Writes all digits, with a zero on a side of the point that has none. -/
def writtenOut (ds : List Char) (point : Int) : List Char :=
  let zeros (n : Int) := List.replicate n.toNat '0'
  if point ≤ 0 then '0' :: '.' :: zeros (-point) ++ ds
  else if ds.length ≤ point then ds ++ zeros (point - ds.length) ++ ['.', '0']
  else ds.take point.toNat ++ '.' :: ds.drop point.toNat

/-- Writes one digit, the others after a point, and the exponent with its sign. -/
def scientific (width : Nat) (ds : List Char) (exponent : Int) : List Char :=
  let tail := if ds.length ≤ 1 then [] else '.' :: ds.drop 1
  let sign := if exponent < 0 then '-' else '+'
  ds.take 1 ++ tail ++ 'e' :: sign :: (Text.padded width exponent.natAbs).toList

def Layout.digits (l : Layout) (d : Decimal) : List Char :=
  let ds := Nat.toDigits 10 d.digits
  let point : Int := ds.length + d.exponent
  if l.leastPoint ≤ point ∧ point ≤ l.greatestPoint then writtenOut ds point
  else scientific l.exponentDigits ds (point - 1)

def Binary64.text : Binary64 → String
  | .nan => "nan"
  | .infinite negative => if negative then "-inf" else "inf"
  | .finite negative m e =>
    let size := if m = 0 then ['0', '.', '0'] else Layout.plain.digits (shortest m e)
    String.ofList (if negative then '-' :: size else size)

end FirmataSketch.Number
