/-! Binary floating point numbers with 53 significant bits, and the rounding of decimals to them. -/

namespace FirmataSketch.Number

/-- A finite number is `significand * 2 ^ exponent` with a sign. The exponent is the least one,
-1074, or the significand has all of its 53 bits; so each number has one form, apart from the sign
of zero. -/
inductive Binary64 where
  | nan
  | infinite (negative : Bool)
  | finite (negative : Bool) (significand : Nat) (exponent : Int)
  deriving DecidableEq, Repr

namespace Binary64

def precision : Nat := 53
def leastExponent : Int := -1074
def greatestExponent : Int := 971

def zero (negative : Bool) : Binary64 := .finite negative 0 leastExponent

def isZero : Binary64 → Bool
  | .finite _ m _ => m == 0
  | _ => false

def isFinite : Binary64 → Bool
  | .finite .. => true
  | _ => false

/-- The integer nearest to a quotient; of two equally near ones the even one. -/
def roundEven (num den : Nat) : Nat :=
  let q := num / den
  let r := 2 * (num % den)
  if r < den ∨ (r = den ∧ q % 2 = 0) then q else q + 1

def overPower (num den : Nat) (e : Int) : Nat × Nat :=
  if 0 ≤ e then (num, den * Nat.pow 2 e.toNat) else (num * Nat.pow 2 (-e).toNat, den)

/-- The exponent with which a positive quotient has 53 bits before the point, or the least one. -/
def exponentOf (num den : Nat) : Int :=
  let e : Int := num.log2 - den.log2 - (precision - 1)
  let (n, d) := overPower num den e
  max leastExponent (if n < Nat.pow 2 (precision - 1) * d then e - 1 else e)

/-- The number nearest to a quotient, infinite if its size is out of range. -/
def ofRatio (negative : Bool) (num den : Nat) : Binary64 :=
  let e := exponentOf num den
  let (n, d) := overPower num den e
  let m := roundEven n d
  let (m, e) := if m = Nat.pow 2 precision then (Nat.pow 2 (precision - 1), e + 1) else (m, e)
  if greatestExponent < e then .infinite negative else .finite negative m e

/-- The number nearest to `digits * 10 ^ e`. Sizes past 10 ^ 310 and below 10 ^ -330 are out of
range whatever the digits are. -/
def ofDecimal (negative : Bool) (digits : Nat) (e : Int) : Binary64 :=
  if digits = 0 then zero negative
  else
    let size : Int := (Nat.toDigits 10 digits).length + e
    if 310 < size then .infinite negative
    else if size < -330 then zero negative
    else if 0 ≤ e then ofRatio negative (digits * Nat.pow 10 e.toNat) 1
    else ofRatio negative digits (Nat.pow 10 (-e).toNat)

def toInt? : Binary64 → Option Int
  | .finite negative m e =>
    let size? := if 0 ≤ e then some (m * Nat.pow 2 e.toNat)
      else if m % Nat.pow 2 (-e).toNat = 0 then some (m / Nat.pow 2 (-e).toNat) else none
    size?.map fun (n : Nat) => if negative then -(n : Int) else n
  | _ => none

def unitsOfInt (n : Int) : Int := n * Nat.pow 2 (-leastExponent).toNat

def units? : Binary64 → Option Int
  | .finite negative m e =>
    let n := m * Nat.pow 2 (e - leastExponent).toNat
    some (if negative then -(n : Int) else n)
  | _ => none

end Binary64

end FirmataSketch.Number
