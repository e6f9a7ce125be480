import FirmataSketch.Text.Digit
import FirmataSketch.Text.Printable
import FirmataSketch.Text.Surrogate

/-! Quoted text, as messages show it: between quote marks, with a backslash escape for the quote
mark, the backslash and every character that is not printable. -/

namespace FirmataSketch.Text

/-- A double quote is used only around a text with a single quote and no double quote in it. -/
def quoteMark (cs : List Char) : Char :=
  if cs.contains '\'' && !cs.contains '"' then '"' else '\''

/-- An unprintable character is written by its code point, with two, four or eight digits. -/
def escapeCode (n : Nat) : List Char :=
  if n ≤ 0xff then '\\' :: 'x' :: hexDigits 2 n
  else if n ≤ 0xffff then '\\' :: 'u' :: hexDigits 4 n
  else '\\' :: 'U' :: hexDigits 8 n

def escape (mark c : Char) : List Char :=
  if c = mark ∨ c = '\\' then ['\\', c]
  else if c = '\n' then ['\\', 'n']
  else if c = '\r' then ['\\', 'r']
  else if c = '\t' then ['\\', 't']
  else if isSurrogate c then escapeCode (surrogateCode c)
  else if isPrintable c then [c]
  else escapeCode c.toNat

def quoted (s : String) : String :=
  let cs := s.toList
  let mark := quoteMark cs
  String.ofList (mark :: cs.flatMap (escape mark) ++ [mark])

end FirmataSketch.Text
