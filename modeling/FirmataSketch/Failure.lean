import FirmataSketch.Clock.Moment
import FirmataSketch.Disk.Basic
import FirmataSketch.Json.Fault
import FirmataSketch.Selection.Fault
import FirmataSketch.Text.Utf8
import FirmataSketch.Value.Misuse

/-! Why an operation ends without a result. -/

namespace FirmataSketch

inductive Failure where
  | misuse (m : Misuse)
  | selection (f : Selection.Fault)
  | unknownFeature (name : Value)
  | repeatedFeature (name : Value)
  | emptyCatalog (folder : String)
  | time (f : Clock.Fault)
  | notUtf8 (f : Text.Utf8.Fault)
  | notEncodable (u : Text.Utf8.Unencodable)
  | notJson (r : Json.Refusal)
  | unreadable (path : String) (r : Disk.Refusal)
  | unwritable (path : String) (r : Disk.Refusal)
  | nullInPath
  /-- There are more missing folders above one another than can be made. -/
  | tooDeep

namespace Failure

def message : Failure → String
  | .misuse m => m.message
  | .selection f => f.message
  | .unknownFeature v => "Unknown feature '" ++ v.display ++ "': not found in the feature catalog"
  | .repeatedFeature v => "Feature '" ++ v.display ++ "' is selected more than once"
  | .emptyCatalog folder => "[_catalog] files: No .json files found in " ++ folder
  | .time f => f.message
  | .notUtf8 f => f.message
  | .notEncodable u => u.message
  | .notJson r => r.message
  | .unreadable path r => r.report path
  | .unwritable path r => "Cannot write sketch to " ++ path ++ ": " ++ r.message
  | .nullInPath => "embedded null byte"
  | .tooDeep => "maximum recursion depth exceeded while calling a Python object"

/-- The failures that the builder itself raises. -/
def isOwn : Failure → Bool
  | .selection _ | .unknownFeature _ | .repeatedFeature _ => true
  | .emptyCatalog _ | .unwritable _ _ => true
  | _ => false

def isReported : Failure → Bool
  | .unreadable _ _ | .notJson (.fault _) => true
  | f => f.isOwn

end Failure

end FirmataSketch
