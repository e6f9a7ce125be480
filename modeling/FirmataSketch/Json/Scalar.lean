import FirmataSketch.Json.Fault
import FirmataSketch.Text.Surrogate
import FirmataSketch.Value.Basic

/-! The tokens of JSON that have characters of their own: blanks, strings, numbers and names. -/

namespace FirmataSketch.Json

open Number (Binary64)
open Text (asciiDigit? hexDigit?)

/-- A place in a document: the characters still to be read and how many were read before them. -/
structure Cursor where
  offset : Nat
  rest : List Char

def Cursor.drop (c : Cursor) (n : Nat) : Cursor := ⟨c.offset + n, c.rest.drop n⟩

def isSpace (c : Char) : Bool := c == ' ' || c == '\t' || c == '\n' || c == '\r'

def Cursor.skipSpace (c : Cursor) : Cursor := c.drop (c.rest.takeWhile isSpace).length

inductive Stop where
  | at (reason : Reason) (offset : Nat)
  | tooManyDigits (count : Nat)
  | tooDeep (c : Container)

def isHighSurrogate (n : Nat) : Bool := 0xd800 ≤ n && n ≤ 0xdbff
def isLowSurrogate (n : Nat) : Bool := 0xdc00 ≤ n && n ≤ 0xdfff

/-- The character of a code, which may be that of a surrogate without its partner. -/
def codeChar (n : Nat) : Char :=
  if isHighSurrogate n || isLowSurrogate n then Text.surrogate n else Char.ofNat n

def surrogatePair (high low : Nat) : Char :=
  Char.ofNat (0x10000 + 0x400 * (high - 0xd800) + (low - 0xdc00))

/-- The code of four hexadecimal digits that something follows, and what follows. -/
def code? : List Char → Option (Nat × List Char)
  | a :: b :: c :: d :: r :: rest => do
    return (0x1000 * (← hexDigit? a) + 0x100 * (← hexDigit? b) + 0x10 * (← hexDigit? c) +
      (← hexDigit? d), r :: rest)
  | _ => none

def lowSurrogate? : List Char → Option (Nat × List Char)
  | '\\' :: 'u' :: cs => (code? cs).filter fun p => isLowSurrogate p.1
  | _ => none

def plainEscape? : Char → Option Char
  | '"' => some '"'
  | '\\' => some '\\'
  | '/' => some '/'
  | 'b' => some (Char.ofNat 8)
  | 'f' => some (Char.ofNat 12)
  | 'n' => some '\n'
  | 'r' => some '\r'
  | 't' => some '\t'
  | _ => none

theorem code?_length {cs : List Char} {n : Nat} {rest : List Char}
    (h : code? cs = some (n, rest)) : rest.length < cs.length := by
  unfold code? at h
  split at h
  · simp only [Option.bind_eq_bind, Option.bind_eq_some_iff, Option.pure_def,
      Option.some.injEq, Prod.mk.injEq] at h
    obtain ⟨_, _, _, _, _, _, _, _, _, rfl⟩ := h
    simp
  · simp at h

theorem lowSurrogate?_length {cs : List Char} {n : Nat} {rest : List Char}
    (h : lowSurrogate? cs = some (n, rest)) : rest.length < cs.length := by
  unfold lowSurrogate? at h
  split at h
  · rw [Option.filter_eq_some_iff] at h
    have := code?_length h.1
    simp
    omega
  · simp at h

/-- The characters of a string that began at `start`, up to its closing quote. -/
def stringFrom (start offset : Nat) (cs : List Char) : Except Stop (List Char × Cursor) :=
  match cs with
  | [] => .error (.at .unterminated start)
  | '"' :: cs => .ok ([], ⟨offset + 1, cs⟩)
  | '\\' :: [] => .error (.at .unterminated start)
  | '\\' :: 'u' :: cs =>
    match h : code? cs with
    | none => .error (.at .codeEscape (offset + 1))
    | some (high, rest) =>
      have := code?_length h
      match h' : if isHighSurrogate high then lowSurrogate? rest else none with
      | some (low, rest') =>
        have : rest'.length < rest.length := by
          split at h'
          · exact lowSurrogate?_length h'
          · simp at h'
        (stringFrom start (offset + 12) rest').map fun p => (surrogatePair high low :: p.1, p.2)
      | none =>
        (stringFrom start (offset + 6) rest).map fun p => (codeChar high :: p.1, p.2)
  | '\\' :: c :: cs =>
    match plainEscape? c with
    | none => .error (.at .escape offset)
    | some c => (stringFrom start (offset + 2) cs).map fun p => (c :: p.1, p.2)
  | c :: cs =>
    if c.toNat < 0x20 then .error (.at .control offset)
    else (stringFrom start (offset + 1) cs).map fun p => (c :: p.1, p.2)
termination_by cs.length
decreasing_by all_goals (simp; try omega)

def isDigit (c : Char) : Bool := (asciiDigit? c).isSome

def natOfDigits (cs : List Char) : Nat :=
  cs.foldl (fun n c => 10 * n + (asciiDigit? c).getD 0) 0

def integerPart (cs : List Char) : List Char :=
  if cs.head? = some '0' then ['0'] else cs.takeWhile isDigit

def fractionPart : List Char → List Char
  | '.' :: cs => cs.takeWhile isDigit
  | _ => []

def exponentPart : List Char → List Char × List Char
  | e :: '-' :: cs => if e == 'e' || e == 'E' then (['-'], cs.takeWhile isDigit) else ([], [])
  | e :: '+' :: cs => if e == 'e' || e == 'E' then (['+'], cs.takeWhile isDigit) else ([], [])
  | e :: cs => if e == 'e' || e == 'E' then ([], cs.takeWhile isDigit) else ([], [])
  | [] => ([], [])

/-- A number with a fraction or an exponent is real, any other is an integer. -/
def number (c : Cursor) : Except Stop (Value × Cursor) :=
  let negative := c.rest.head? == some '-'
  let c1 := if negative then c.drop 1 else c
  let whole := integerPart c1.rest
  if whole.isEmpty then .error (.at .value c.offset)
  else
    let c2 := c1.drop whole.length
    let fraction := fractionPart c2.rest
    let c3 := if fraction.isEmpty then c2 else c2.drop (1 + fraction.length)
    let (sign, power) := exponentPart c3.rest
    let c4 := if power.isEmpty then c3 else c3.drop (1 + sign.length + power.length)
    if fraction.isEmpty && power.isEmpty then
      if Text.maxDigits < whole.length then .error (.tooManyDigits whole.length)
      else
        let n : Int := natOfDigits whole
        .ok (.int (if negative then -n else n), c4)
    else
      let e : Int := natOfDigits power
      let e := if sign == ['-'] then -e else e
      .ok (.real (Binary64.ofDecimal negative (natOfDigits (whole ++ fraction))
        (e - fraction.length)), c4)

def names : List (String × Value) :=
  [("null", .null), ("true", .bool true), ("false", .bool false), ("NaN", .real .nan),
   ("Infinity", .real (.infinite false)), ("-Infinity", .real (.infinite true))]

def named? (c : Cursor) : Option (Value × Cursor) :=
  (names.find? fun n => n.1.toList.isPrefixOf c.rest).map fun n => (n.2, c.drop n.1.length)

end FirmataSketch.Json
