import FirmataSketch.Feature.Basic

/-! Features as JSON records. -/

namespace FirmataSketch

open Value (fieldOr)

def requiredField (fields : List (String × Value)) (name : String) : Except Misuse Value :=
  match fields.lookup name with
  | some v => .ok v
  | none => .error (.missingField name)

namespace Dependency

def ofValue : Value → Except Misuse Dependency
  | .record fields => do
    return ⟨fieldOr fields "path" (.text ""), ← requiredField fields "class_name"⟩
  | v => .error (.optionalFieldOf v.kind)

def toValue (d : Dependency) : Value :=
  .record [("path", d.path), ("class_name", d.className)]

end Dependency

namespace Feature

def ofFields (source : String) (fields : List (String × Value)) : Except Misuse Feature := do
  let name ← requiredField fields "name"
  let className ← requiredField fields "class_name"
  let instanceName ← requiredField fields "instance_name"
  let capability ← Capability.ofValue (fieldOr fields "capability" .null)
  let dependencies ← (fieldOr fields "system_dependencies" (.list [])).elements
  let dependencies ← dependencies.mapM Dependency.ofValue
  return {
    name, className, instanceName, capability, dependencies, source
    path := fieldOr fields "path" (.text "")
    reporting := (fieldOr fields "reporting" (.bool false)).isPresent
    update := (fieldOr fields "update" (.bool false)).isPresent
    description := fieldOr fields "description" (.text "") }

/-- Reads a feature; `source` is kept as the path of its file. -/
def ofValue (source : String) : Value → Except Misuse Feature
  | .record fields => ofFields source fields
  | v => .error (.fieldOf v.kind)

/-- The fields in the order in which they are written. A description that counts as absent is left
out. -/
def toFields (f : Feature) : List (String × Value) :=
  [("name", f.name), ("path", f.path), ("class_name", f.className),
   ("instance_name", f.instanceName), ("reporting", .bool f.reporting),
   ("update", .bool f.update), ("capability", Capability.toValue f.capability),
   ("system_dependencies", .list (f.dependencies.map Dependency.toValue))] ++
    if f.description.isPresent then [("description", f.description)] else []

def toValue (f : Feature) : Value := .record f.toFields

end Feature

end FirmataSketch
