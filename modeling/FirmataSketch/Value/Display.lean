import FirmataSketch.Value.Basic
import FirmataSketch.Number.Layout
import FirmataSketch.Text.Lines
import FirmataSketch.Text.Quoted

/-! The text of a value in messages and in generated code. -/

namespace FirmataSketch.Value

mutual

def literal : Value → String
  | .null => "None"
  | .bool b => if b then "True" else "False"
  | .int n => Text.decimal n
  | .real x => x.text
  | .text s => Text.quoted s
  | .list items => "[" ++ String.intercalate ", " (literals items) ++ "]"
  | .record fields => "\x7b" ++ String.intercalate ", " (fieldLiterals fields) ++ "\x7d"

def literals : List Value → List String
  | [] => []
  | v :: vs => literal v :: literals vs

def fieldLiterals : List (String × Value) → List String
  | [] => []
  | (name, v) :: fs => (Text.quoted name ++ ": " ++ literal v) :: fieldLiterals fs

end

/-- A value put into a text: a text stands for itself, any other value is written as a literal. -/
def display : Value → String
  | .text s => s
  | v => v.literal

end FirmataSketch.Value
