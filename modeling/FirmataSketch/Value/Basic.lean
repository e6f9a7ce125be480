import FirmataSketch.Number.Binary64

/-! Values of JSON documents. A catalog file may put any of them into any field of a feature. -/

namespace FirmataSketch

open Number (Binary64)

/-- The fields of a record keep their order. -/
inductive Value where
  | null
  | bool (b : Bool)
  | int (n : Int)
  | real (x : Binary64)
  | text (s : String)
  | list (items : List Value)
  | record (fields : List (String × Value))
  deriving Inhabited

namespace Value

inductive Kind where
  | null
  | bool
  | int
  | real
  | text
  | list
  | record
  deriving DecidableEq, Repr

def Kind.name : Kind → String
  | .null => "NoneType"
  | .bool => "bool"
  | .int => "int"
  | .real => "float"
  | .text => "str"
  | .list => "list"
  | .record => "dict"

def kind : Value → Kind
  | .null => .null
  | .bool _ => .bool
  | .int _ => .int
  | .real _ => .real
  | .text _ => .text
  | .list _ => .list
  | .record _ => .record

/-- Zeros, empty texts, lists and records, `false` and `null` count as absent. -/
def isPresent : Value → Bool
  | .null => false
  | .bool b => b
  | .int n => n != 0
  | .real x => !x.isZero
  | .text s => s != ""
  | .list items => !items.isEmpty
  | .record fields => !fields.isEmpty

def fieldOr (fields : List (String × Value)) (name : String) (fallback : Value) : Value :=
  (fields.lookup name).getD fallback

/-- Sets a field; one that is there already keeps its place. -/
def setField (name : String) (v : Value) : List (String × Value) → List (String × Value)
  | [] => [(name, v)]
  | f :: fs => if f.1 = name then (name, v) :: fs else f :: setField name v fs

end Value

end FirmataSketch
