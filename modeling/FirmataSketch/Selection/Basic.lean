import FirmataSketch.Failure
import FirmataSketch.Text.Word

/-! Selections: the sketch name, the connection and the features, in order, that a user asks for. -/

namespace FirmataSketch

open Value (fieldOr)

structure Selection where
  filename : String
  baud : Nat
  features : List String
  deriving DecidableEq, Repr

namespace Selection

def validateFilename : Value → Except Fault String
  | .text s => if Text.acceptsWord s then .ok s else .error (.badFilename (.text s))
  | v => .error (.badFilename v)

def validateBaud : Value → Except Fault Nat
  | .int n =>
    if n ≤ 0 then .error (.badBaud (.int n))
    else if Settings.allowedBaudRates.contains n.toNat then .ok n.toNat
    else .error (.unsupportedBaud n)
  | v => .error (.badBaud v)

def orDefault (fallback : Value) : Value → Value
  | .null => fallback
  | v => v

def textOf? : Value → Option String
  | .text s => some s
  | _ => none

/-- The elements of anything but a text, if all of them are texts. -/
def featureNames (features : Value) : Except Failure (List String) :=
  match features with
  | .text _ => .error (.selection .featuresNotNames)
  | v => match v.elements with
    | .error m => .error (.misuse m)
    | .ok vs => match vs.mapM textOf? with
      | some names => .ok names
      | none => .error (.selection .featuresNotNames)

def named (features : List String) (filename baud : Value) : Except Fault Selection := do
  let filename ← validateFilename (orDefault (.text Settings.defaultFilename) filename)
  let baud ← validateBaud (orDefault (.int Settings.defaultBaud) baud)
  return { filename, baud, features }

/-- Makes a selection from its parts; `null` stands for the default. -/
def make (features filename baud : Value) : Except Failure Selection := do
  let features ← featureNames features
  (named features filename baud).mapError .selection

/-- The baud that a connection gives. A connection is a record with the one field `serial`; if that
counts as absent, or has no baud, the default is meant. -/
def baudOf : Value → Except Fault Value
  | .null => .ok .null
  | .record [("serial", serial)] =>
    if serial.isPresent then
      match serial with
      | .record fields => .ok (fieldOr fields "baud" .null)
      | _ => .error .serialNotRecord
    else .ok .null
  | _ => .error .otherConnection

def ofFields (fields : List (String × Value)) : Except Fault Selection := do
  let baud ← baudOf (fieldOr fields "connectionType" .null)
  match fieldOr fields "selectedFeatures" (.list []) with
  | .list items => match items.mapM textOf? with
    | some names => named names (fieldOr fields "filename" .null) baud
    | none => .error .featuresNotNames
  | _ => .error .featuresNotNames

def ofValue : Value → Except Fault Selection
  | .record fields => ofFields fields
  | _ => .error .notRecord

def toFields (s : Selection) : List (String × Value) :=
  [("filename", .text s.filename),
   ("connectionType", .record [("serial", .record [("baud", .int s.baud)])]),
   ("selectedFeatures", .list (s.features.map .text))]

def toValue (s : Selection) : Value := .record s.toFields

def sketchFilename (s : Selection) : String := s.filename ++ Settings.extension

end Selection

end FirmataSketch
