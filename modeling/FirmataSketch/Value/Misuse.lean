import FirmataSketch.Value.Display
import FirmataSketch.Value.Key

/-! Uses that a value of the wrong kind does not allow. -/

namespace FirmataSketch

inductive Misuse where
  | missingField (name : String)
  /-- A required field of something that is not a record. -/
  | fieldOf (kind : Value.Kind)
  /-- An optional field of something that is not a record. -/
  | optionalFieldOf (kind : Value.Kind)
  | elementsOf (kind : Value.Kind)
  | endOf (kind : Value.Kind)
  | charactersOf (kind : Value.Kind)
  | keyOf (kind : Value.Kind)
  /-- A column of a table filled with something that has no plain text. -/
  | columnOf (kind : Value.Kind)
  | notCapability (value : Value)
  | noProvider

def Misuse.message : Misuse → String
  | .missingField name => Text.quoted name
  | .fieldOf .list => "list indices must be integers or slices, not str"
  | .fieldOf .text => "string indices must be integers, not 'str'"
  | .fieldOf k => "'" ++ k.name ++ "' object is not subscriptable"
  | .optionalFieldOf k => "'" ++ k.name ++ "' object has no attribute 'get'"
  | .elementsOf k => "'" ++ k.name ++ "' object is not iterable"
  | .endOf k => "'" ++ k.name ++ "' object has no attribute 'endswith'"
  | .charactersOf k => "expected string or bytes-like object, got '" ++ k.name ++ "'"
  | .keyOf k => "unhashable type: '" ++ k.name ++ "'"
  | .columnOf k => "unsupported format string passed to " ++ k.name ++ ".__format__"
  | .notCapability v => v.literal ++ " is not a valid Capability"
  | .noProvider => "'NoneType' object has no attribute 'instance_name'"

namespace Value

def key (v : Value) : Except Misuse Key :=
  match v.key? with
  | some k => .ok k
  | none => .error (.keyOf v.kind)

/-- What a value consists of: the items of a list, the characters of a text, the field names of a
record. -/
def elements : Value → Except Misuse (List Value)
  | .list items => .ok items
  | .text s => .ok (s.toList.map fun c => .text (String.ofList [c]))
  | .record fields => .ok (fields.map fun f => .text f.1)
  | v => .error (.elementsOf v.kind)

/-- A value in a column of a table: numbers and truth values are written as numbers. -/
def column (width : Nat) : Value → Except Misuse String
  | .text s => .ok (Text.padRight width s)
  | .bool b => .ok (Text.padRight width (if b then "1" else "0"))
  | .int n => .ok (Text.padRight width (Text.decimal n))
  | .real x => .ok (Text.padRight width x.text)
  | v => .error (.columnOf v.kind)

end Value

end FirmataSketch
