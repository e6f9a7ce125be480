import FirmataSketch.Settings
import FirmataSketch.Value.Display

/-! What can be wrong with a selection. -/

namespace FirmataSketch.Selection

inductive Fault where
  | notRecord
  | otherConnection
  | serialNotRecord
  | featuresNotNames
  | badFilename (value : Value)
  | badBaud (value : Value)
  | unsupportedBaud (baud : Int)

def Fault.field : Fault → String
  | .notRecord => "selection"
  | .otherConnection => "connectionType"
  | .serialNotRecord => "connectionType.serial"
  | .featuresNotNames => "selectedFeatures"
  | .badFilename _ => "filename"
  | .badBaud _ => "baud"
  | .unsupportedBaud _ => "baud"

def Fault.detail : Fault → String
  | .notRecord => "Must be a JSON object"
  | .otherConnection => "Only a serial connection is supported"
  | .serialNotRecord => "Must be an object"
  | .featuresNotNames => "Must be a list of feature names"
  | .badFilename v => v.literal ++
      " is not a valid sketch name (letters, digits and '_', not starting with a digit)"
  | .badBaud v => v.literal ++ " is not a positive integer"
  | .unsupportedBaud n => Text.decimal n ++ " is not a supported rate " ++
      Settings.allowedBaudValue.literal

def Fault.message (f : Fault) : String := f.field ++ ": " ++ f.detail

end FirmataSketch.Selection
