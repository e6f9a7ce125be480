import FirmataSketch.Text.Integer

/-! Why and where a text is not a JSON document. -/

namespace FirmataSketch.Json

inductive Reason where
  | value
  | name
  | colon
  | comma
  | extra
  | unterminated
  | control
  | escape
  | codeEscape
  | byteOrderMark
  deriving DecidableEq, Repr

def Reason.message : Reason → String
  | .value => "Expecting value"
  | .name => "Expecting property name enclosed in double quotes"
  | .colon => "Expecting ':' delimiter"
  | .comma => "Expecting ',' delimiter"
  | .extra => "Extra data"
  | .unterminated => "Unterminated string starting at"
  | .control => "Invalid control character at"
  | .escape => "Invalid \\escape"
  | .codeEscape => "Invalid \\uXXXX escape"
  | .byteOrderMark => "Unexpected UTF-8 BOM (decode using utf-8-sig)"

/-- The offset counts characters from zero, the line and the column from one. -/
structure Fault where
  reason : Reason
  offset : Nat
  line : Nat
  column : Nat
  deriving DecidableEq, Repr

def Fault.locate (text : List Char) (reason : Reason) (offset : Nat) : Fault :=
  let before := text.take offset
  ⟨reason, offset, before.count '\n' + 1, (before.reverse.takeWhile (· != '\n')).length + 1⟩

def Fault.message (f : Fault) : String :=
  f.reason.message ++ ": line " ++ Text.decimal f.line ++ " column " ++ Text.decimal f.column ++
    " (char " ++ Text.decimal f.offset ++ ")"

inductive Container where
  | list
  | record
  deriving DecidableEq, Repr

def Container.name : Container → String
  | .list => "array"
  | .record => "object"

/-- A document is refused for a fault, for an integer with too many digits, or for a list or record
that lies too deep in others. -/
inductive Refusal where
  | fault (f : Fault)
  | tooManyDigits (count : Nat)
  | tooDeep (c : Container)
  deriving DecidableEq, Repr

def Refusal.message : Refusal → String
  | .fault f => f.message
  | .tooManyDigits n =>
    "Exceeds the limit (" ++ Text.decimal Text.maxDigits ++
      " digits) for integer string conversion: value has " ++ Text.decimal n ++
      " digits; use sys.set_int_max_str_digits() to increase the limit"
  | .tooDeep c =>
    "maximum recursion depth exceeded while decoding a JSON " ++ c.name ++ " from a unicode string"

end FirmataSketch.Json
