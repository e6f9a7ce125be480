import FirmataSketch.Catalog.Load
import FirmataSketch.Proofs.Field
import FirmataSketch.Proofs.Outcome

/-! Normal form of features: a feature is read from the record that it is written as, but for a
description that counts as absent, which is left out. Reading and writing a record once more changes
nothing. -/

namespace FirmataSketch

open Outcome (bind_ok map_ok mapM_map_ok)

theorem Dependency.ofValue_toValue (d : Dependency) : ofValue d.toValue = .ok d := rfl

theorem Capability.ofValue_toValue (c : Option Capability) : ofValue (toValue c) = .ok c := by
  cases c with
  | none => rfl
  | some c => rw [toValue, ofValue, ofName?_name]

namespace Feature

variable {source : String} {v w : Value} {f : Feature}

/-- The feature with an empty description in the place of one that counts as absent. -/
def settled (f : Feature) : Feature :=
  { f with description := if f.description.isPresent then f.description else .text "" }

theorem toValue_settled (f : Feature) : f.settled.toValue = f.toValue := by
  have hempty : (Value.text "").isPresent = false := rfl
  unfold toValue toFields settled
  cases hpresent : f.description.isPresent <;> simp [hpresent, hempty]

theorem description_toFields (f : Feature) :
    Value.fieldOr f.toFields "description" (.text "") = f.settled.description := by
  unfold Value.fieldOr toFields settled
  cases f.description.isPresent <;> rfl

/-- A feature can be read from what it is written as, whatever its fields are. -/
theorem ofValue_toValue (f : Feature) (source : String) :
    ofValue source f.toValue = .ok { f.settled with source } := by
  have hname : requiredField f.toFields "name" = .ok f.name := rfl
  have hclass : requiredField f.toFields "class_name" = .ok f.className := rfl
  have hinstance : requiredField f.toFields "instance_name" = .ok f.instanceName := rfl
  have hcapability : Capability.ofValue (Value.fieldOr f.toFields "capability" .null) =
      .ok f.capability := Capability.ofValue_toValue f.capability
  have helements : (Value.fieldOr f.toFields "system_dependencies" (.list [])).elements =
      .ok (f.dependencies.map Dependency.toValue) := rfl
  have hdependencies : (f.dependencies.map Dependency.toValue).mapM Dependency.ofValue =
      .ok f.dependencies := by
    rw [mapM_map_ok Dependency.ofValue_toValue, List.map_id']
  rw [toValue, ofValue, ofFields, hname, hclass, hinstance, hcapability, helements]
  simp only [bind, Except.bind, hdependencies, description_toFields]
  rfl

theorem source_of_ofValue (h : ofValue source v = .ok f) : f.source = source := by
  cases v with
  | record fields =>
    obtain ⟨name, -, h⟩ := bind_ok h
    obtain ⟨className, -, h⟩ := bind_ok h
    obtain ⟨instanceName, -, h⟩ := bind_ok h
    obtain ⟨capability, -, h⟩ := bind_ok h
    obtain ⟨elements, -, h⟩ := bind_ok h
    obtain ⟨dependencies, -, h⟩ := bind_ok h
    cases h
    rfl
  | _ => cases h

/-- What a record of a feature comes to when it is read and written. -/
def normalize (source : String) (v : Value) : Except Misuse Value := (ofValue source v).map toValue

theorem normalize_toValue (f : Feature) (source : String) :
    normalize source f.toValue = .ok f.toValue := by
  have htoValue : ({ f.settled with source } : Feature).toValue = f.settled.toValue := rfl
  rw [normalize, ofValue_toValue, Except.map, htoValue, toValue_settled]

/-- A feature that was read is read again from what it is written as, with an empty description in the
place of one that counts as absent, and what it is written as is its own normal form. The features of a
catalog are read again, in order, from what the catalog is written as. -/
theorem ofValue_inverse :
    (∀ source v f, ofValue source v = .ok f → ofValue source f.toValue = .ok f.settled) ∧
    (∀ source v w, normalize source v = .ok w → normalize source w = .ok w) ∧
    ∀ (c : Catalog) (source : String), ∃ entries, c.toValue.Has "features" (.list entries) ∧
      entries.mapM (ofValue source) = .ok (c.features.map fun f => { f.settled with source }) := by
  refine ⟨fun source v f h => ?_, fun source v w h => ?_, fun c source => ?_⟩
  · obtain rfl := source_of_ofValue h
    exact ofValue_toValue f f.source
  · obtain ⟨f, -, rfl⟩ := map_ok h
    exact normalize_toValue f source
  · exact ⟨c.features.map toValue, ⟨_, rfl, rfl⟩,
      mapM_map_ok (fun f => ofValue_toValue f source) c.features⟩

/-- A record with a list as its name, a description that counts as absent, and a field that is not
known. -/
def oddRecord : Value :=
  .record [("name", .list [.null]), ("class_name", .int 7), ("instance_name", .text "fan"),
    ("update", .text "no"), ("capability", .text "servo"), ("description", .bool false),
    ("system_dependencies", .list [.record [("class_name", .null), ("version", .int 2)]]),
    ("board", .text "uno")]

def oddFeature : Feature where
  name := .list [.null]
  path := .text ""
  className := .int 7
  instanceName := .text "fan"
  reporting := false
  update := true
  capability := some .servo
  dependencies := [⟨.text "", .null⟩]
  description := .bool false
  source := "fan.json"

/-- The feature of the record loses its description, and what it is written as is settled. -/
theorem ofValue_inverse_oddRecord : ofValue "fan.json" oddRecord = .ok oddFeature ∧
    ofValue "fan.json" oddFeature.toValue = .ok oddFeature.settled ∧
    oddFeature.settled.description = .text "" ∧
    normalize "fan.json" oddFeature.toValue = .ok oddFeature.toValue := by
  have hodd : ofValue "fan.json" oddRecord = .ok oddFeature := rfl
  have hnormal : normalize "fan.json" oddRecord = .ok oddFeature.toValue := by
    rw [normalize, hodd]
    rfl
  obtain ⟨hread, hfixed, -⟩ := ofValue_inverse
  exact ⟨hodd, hread _ _ _ hodd, rfl, hfixed _ _ _ hnormal⟩

end Feature

end FirmataSketch
