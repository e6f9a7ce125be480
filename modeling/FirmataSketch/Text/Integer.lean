import FirmataSketch.Text.Blank
import FirmataSketch.Text.Digit

/-! Integers written by people: with blanks around, a sign, single underscores between digits. -/

namespace FirmataSketch.Text

def maxDigits : Nat := 4300

/-- Whether an integer has no more digits than that. -/
def isShort (n : Int) : Bool := (Nat.toDigits 10 n.natAbs).length ≤ maxDigits

/-- Goes on with a number after one of its digits: a digit, or an underscore and a digit. -/
def moreDigits (value : Char → Option Nat) (n : Nat) : List Char → Option Nat
  | [] => some n
  | '_' :: c :: cs => do moreDigits value (10 * n + (← value c)) cs
  | c :: cs => do moreDigits value (10 * n + (← value c)) cs

def natural? (value : Char → Option Nat) : List Char → Option Nat
  | [] => none
  | c :: cs => do moreDigits value (← value c) cs

/-- A natural number with an optional sign before it. -/
def signed? (value : Char → Option Nat) : List Char → Option Int
  | '-' :: cs => (natural? value cs).map fun n => -(n : Int)
  | '+' :: cs => (natural? value cs).map Int.ofNat
  | cs => (natural? value cs).map Int.ofNat

def digitCount (value : Char → Option Nat) (cs : List Char) : Nat :=
  cs.countP fun c => (value c).isSome

def integer? (s : String) : Option Int :=
  let cs := trimBlanks s.toList
  if digitCount digit? cs ≤ maxDigits then signed? digit? cs else none

end FirmataSketch.Text
