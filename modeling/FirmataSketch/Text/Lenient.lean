import FirmataSketch.Text.Integer

/-! Integers in a lenient notation. A plain integer is read as it stands; any other text is cleaned
first, of blanks around it, zeros before the number, a fraction of zeros and underscores. -/

namespace FirmataSketch.Text

def isAsciiDigit (c : Char) : Bool := (asciiDigit? c).isSome

def splitMinus : List Char → List Char × List Char
  | '-' :: cs => (['-'], cs)
  | cs => ([], cs)

/-- A plain integer: perhaps a minus sign, then at most `maxDigits` digits, of which the first is a
zero only if it is the only one. -/
def plain? (cs : List Char) : Option Int :=
  let (sign, ds) := splitMinus cs
  if ds.isEmpty || !ds.all isAsciiDigit || maxDigits < ds.length ||
      (ds.head? == some '0' && ds != ['0']) then none
  else (natural? asciiDigit? ds).map fun n => if sign.isEmpty then (n : Int) else -(n : Int)

/-- The text begins like a plain integer, but with too many digits. -/
def isOverlong (cs : List Char) : Bool :=
  let ds := (splitMinus cs).2
  ds.head? != some '0' && maxDigits < (ds.takeWhile isAsciiDigit).length

/-- Goes on after a zero: drops zeros and underscores up to a digit or a minus sign. The one before
a point stays, and so does the last one of all. -/
def dropZerosAfter (last : Char) : List Char → Option (List Char)
  | [] => some [last]
  | c :: cs =>
    if c = '0' ∨ c = '_' then dropZerosAfter c cs
    else if c = '.' then some (last :: c :: cs)
    else if c = '-' ∨ isAsciiDigit c then some (c :: cs)
    else none

/-- What is left of a number without the zeros before it. It must begin with a digit. -/
def dropZeros : List Char → Option (List Char)
  | [] => none
  | c :: cs =>
    if c = '0' then dropZerosAfter c cs
    else if isAsciiDigit c then some (c :: cs)
    else none

def dropZeroFraction (cs : List Char) : List Char :=
  let fraction := (cs.dropWhile (· != '.')).drop 1
  if !fraction.isEmpty && fraction.all (· == '0') then cs.takeWhile (· != '.') else cs

def hasDoubleUnderscore : List Char → Bool
  | [] => false
  | c :: cs => (c == '_' && cs.head? == some '_') || hasDoubleUnderscore cs

/-- Drops the underscores, if each stands alone and none at an end. -/
def dropUnderscores (cs : List Char) : List Char :=
  if cs.head? == some '_' || cs.getLast? == some '_' || hasDoubleUnderscore cs then cs
  else cs.filter (· != '_')

def clean (cs : List Char) : Option (List Char) :=
  let tidy (cs : List Char) := (dropZeros cs).map fun cs => dropUnderscores (dropZeroFraction cs)
  match trimBlanks cs with
  | '-' :: cs => (tidy cs).map ('-' :: ·)
  | '+' :: cs => tidy cs
  | cs => tidy cs

inductive Unread where
  | overlong
  | noInteger
  deriving DecidableEq, Repr

def lenient (s : String) : Except Unread Int :=
  let cs := s.toList
  if isOverlong cs then .error .overlong
  else match (plain? cs).or ((clean cs).bind plain?) with
    | some n => .ok n
    | none => .error .noInteger

end FirmataSketch.Text
