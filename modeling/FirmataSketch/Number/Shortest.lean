import FirmataSketch.Number.Binary64

/-! The shortest decimal of a binary floating point number: the fewest digits that read back as the
number, and with that many digits the nearest to it. -/

namespace FirmataSketch.Number

structure Decimal where
  digits : Nat
  exponent : Int
  deriving DecidableEq, Repr

/-- Compares `a * 2 ^ s` and `c * 10 ^ g` after clearing the negative powers: the factors of `a` and
of `c`. -/
def commonFactors (s g : Int) : Nat × Nat :=
  (Nat.pow 2 s.toNat * Nat.pow 10 (-g).toNat, Nat.pow 10 g.toNat * Nat.pow 2 (-s).toNat)

/-- The reals that round to a finite number, in quarters of its last bit: they lie between the ends,
which belong to them if the significand is even. Below a power of two the spacing is halved. -/
structure Interval where
  lower : Nat
  middle : Nat
  upper : Nat
  scale : Int
  closed : Bool

def Interval.of (m : Nat) (e : Int) : Interval :=
  let gap := if m = Nat.pow 2 (Binary64.precision - 1) ∧ Binary64.leastExponent < e then 1 else 2
  ⟨4 * m - gap, 4 * m, 4 * m + 2, e - 2, m % 2 == 0⟩

def Interval.has (i : Interval) (d : Decimal) : Bool :=
  let (a, c) := commonFactors i.scale d.exponent
  let v := d.digits * c
  if i.closed then i.lower * a ≤ v && v ≤ i.upper * a else i.lower * a < v && v < i.upper * a

/-- The two decimals with the given exponent that enclose the middle. -/
def Interval.neighbours (i : Interval) (g : Int) : Decimal × Decimal :=
  let (a, c) := commonFactors i.scale g
  let n := i.middle * a / c
  (⟨n, g⟩, ⟨n + 1, g⟩)

/-- The nearer of the two decimals around the middle; of two equally near ones the even one. -/
def Interval.nearer (i : Interval) (below above : Decimal) : Decimal :=
  let (a, c) := commonFactors i.scale below.exponent
  let v := 2 * (i.middle * a)
  let half := (below.digits + above.digits) * c
  if v < half ∨ (v = half ∧ below.digits % 2 = 0) then below else above

/-- A decimal with the given exponent that reads back as the number. -/
def Interval.decimal? (i : Interval) (g : Int) : Option Decimal :=
  let (below, above) := i.neighbours g
  match i.has below, i.has above with
  | true, true => some (i.nearer below above)
  | true, false => some below
  | false, true => some above
  | false, false => none

/-- The number of digits before the point: the least `k` with the middle below `10 ^ k`. -/
def Interval.magnitude (i : Interval) : Int :=
  let guess := ((i.scale + i.middle.log2) * 30103) / 100000
  let fits (k : Int) : Bool :=
    let (a, c) := commonFactors i.scale k
    i.middle * a < c
  ([guess, guess + 1].find? fits).getD (guess + 2)

/-- Drops the zeros at the end; the fuel bounds their number. -/
def Decimal.trim : Nat → Decimal → Decimal
  | 0, d => d
  | fuel + 1, d =>
    if d.digits ≠ 0 ∧ d.digits % 10 = 0 then Decimal.trim fuel ⟨d.digits / 10, d.exponent + 1⟩
    else d

/-- Seventeen digits are always enough. -/
def shortest (m : Nat) (e : Int) : Decimal :=
  let i := Interval.of m e
  let k := i.magnitude
  let found := (List.range 17).findSome? fun (n : Nat) => i.decimal? (k - 1 - n)
  (found.getD (i.neighbours (k - 17)).1).trim 18

end FirmataSketch.Number
