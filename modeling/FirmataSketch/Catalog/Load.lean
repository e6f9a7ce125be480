import FirmataSketch.Catalog.Index
import FirmataSketch.Catalog.Validation
import FirmataSketch.Feature.Record
import FirmataSketch.Json.Reader
import FirmataSketch.Text.Lines

/-! Loading a catalog from the feature files in a folder. -/

namespace FirmataSketch

open Disk (PathName)

/-- The features that could be read, in the order of their files, and the problems found. -/
structure Catalog where
  features : List Feature
  problems : List Problem

namespace Catalog

def isOk (c : Catalog) : Bool := c.problems.isEmpty

def index (c : Catalog) : Except Misuse Index := Index.ofFeatures c.features

def toValue (c : Catalog) : Value :=
  .record [("ok", .bool c.isOk), ("feature_count", .int c.features.length),
    ("features", .list (c.features.map Feature.toValue)),
    ("errors", .list (c.problems.map Problem.toValue))]

def isFeatureFile (name : String) : Bool := ".json".toList.isSuffixOf name.toList

def featureFiles (d : Disk) (folder : PathName) : Except Disk.Refusal (List String) :=
  (d.entryNames folder).map fun names => (names.filter isFeatureFile).mergeSort fun a b => a ≤ b

/-- Reads a document. The text is decoded and its line ends are normalized first. -/
def readDocument (bytes : ByteArray) : Except Failure Value := do
  let cs ← (Text.Utf8.decode bytes).mapError .notUtf8
  (Json.read (Text.normalizeLineEnds cs)).mapError .notJson

def reportedName (stem : String) : Value → Value
  | .record fields => Value.fieldOr fields "name" (.text stem)
  | _ => .text stem

/-- Reads a feature file; a file that does not hold a feature gives a problem instead. -/
def readFeature (d : Disk) (path : PathName) (stem : String) :
    Except Failure (Except Problem Feature) :=
  match d.readFile path with
  | .error r => .ok (.error ⟨.text stem, .unreadable path.text r⟩)
  | .ok bytes => match readDocument bytes with
    | .error (.notJson (.fault f)) => .ok (.error ⟨.text stem, .notJson f⟩)
    | .error e => .error e
    | .ok v => match Feature.ofValue path.text v with
      | .error m => .ok (.error ⟨reportedName stem v, .misshapen m⟩)
      | .ok f => .ok (.ok f)

/-- What a file adds to the catalog. A feature with problems is kept. -/
def contribution (d : Disk) (folder : PathName) (name : String) :
    Except Failure (Option Feature × List Problem) := do
  match ← readFeature d (folder.child name) (Disk.stem name) with
  | .error p => return (none, [p])
  | .ok f => return (some f, ← f.problems.mapError .misuse)

def load (d : Disk) (folder : PathName) : Except Failure Catalog := do
  let names ← (featureFiles d folder).mapError (.unreadable folder.text)
  if names.isEmpty then throw (.emptyCatalog folder.text)
  let parts ← names.mapM (contribution d folder)
  let features := parts.filterMap Prod.fst
  let between ← (clashes features).mapError .misuse
  return ⟨features, parts.flatMap Prod.snd ++ between⟩

end Catalog

end FirmataSketch
