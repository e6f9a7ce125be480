import FirmataSketch.Failure
import FirmataSketch.Feature.Basic

/-! Problems of a catalog: what is wrong with one feature, with one file or between features. -/

namespace FirmataSketch

inductive DeclaredName where
  | className
  | instanceName
  deriving DecidableEq, Repr

def DeclaredName.field : DeclaredName → String
  | .className => "class_name"
  | .instanceName => "instance_name"

inductive Defect where
  | blankName (which : DeclaredName)
  | badName (which : DeclaredName) (name : Value)
  | openPath (path : Value)
  | blankDependency (index : Nat)
  | repeatedName (count : Nat)
  | takenInstance (name owner : Value)
  | takenCapability (capability : Capability) (owner : Value)
  | unreadable (path : String) (r : Disk.Refusal)
  | notJson (f : Json.Fault)
  | misshapen (m : Misuse)

namespace Defect

def field : Defect → String
  | .blankName which => which.field
  | .badName which _ => which.field
  | .openPath _ => "path"
  | .blankDependency i => "system_dependencies[" ++ Text.decimal i ++ "].class_name"
  | .repeatedName _ => "name"
  | .takenInstance _ _ => "instance_name"
  | .takenCapability _ _ => "capability"
  | .unreadable _ _ => "file"
  | .notJson _ => "json"
  | .misshapen _ => "parse"

def message : Defect → String
  | .blankName _ => "Must not be empty"
  | .badName _ v => "'" ++ v.display ++ "' is not a valid C++ identifier"
  | .openPath v => "Include prefix '" ++ v.display ++ "' must end with '/'"
  | .blankDependency _ => "Must not be empty"
  | .repeatedName n => "Duplicate feature name (appears " ++ Text.decimal n ++ " times)"
  | .takenInstance v owner => "Instance '" ++ v.display ++ "' already used by " ++ owner.display
  | .takenCapability c owner =>
    "Capability '" ++ c.name ++ "' already claimed by " ++ owner.display
  | .unreadable path r => "Read error: " ++ r.report path
  | .notJson f => "Parse error: " ++ f.message
  | .misshapen m => "Missing/invalid field: " ++ m.message

end Defect

structure Problem where
  feature : Value
  defect : Defect

namespace Problem

def text (p : Problem) : String :=
  "[" ++ p.feature.display ++ "] " ++ p.defect.field ++ ": " ++ p.defect.message

def toValue (p : Problem) : Value :=
  .record [("feature_name", p.feature), ("field", .text p.defect.field),
    ("message", .text p.defect.message)]

end Problem

end FirmataSketch
