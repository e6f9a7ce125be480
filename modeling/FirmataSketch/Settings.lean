import FirmataSketch.Disk.PathName
import FirmataSketch.Value.Basic

/-! What a sketch gets when nothing else is asked for. -/

namespace FirmataSketch.Settings

open Disk (PathName)

def defaultFilename : String := "ConfiguredFirmata"

def extension : String := ".ino"

def outputFolder : String := "outputs/sketches"

def defaultBaud : Nat := 57600

def allowedBaudRates : List Nat :=
  [300, 1200, 2400, 4800, 9600, 14400, 19200, 28800, 38400, 57600, 115200]

def defaultFeatures : List String :=
  ["DigitalInputFirmata", "DigitalOutputFirmata", "AnalogInputFirmata", "AnalogOutputFirmata",
   "ServoFirmata", "I2CFirmata", "OneWireFirmata", "StepperFirmata", "FirmataScheduler",
   "EncoderFirmata"]

def allowedBaudValue : Value := .list (allowedBaudRates.map fun (n : Nat) => .int n)

def defaultFeaturesValue : Value := .list (defaultFeatures.map .text)

def sketchSection : Value :=
  .record [("default_filename", .text defaultFilename), ("extension", .text extension),
    ("output_dir", .text outputFolder)]

def serialSection : Value :=
  .record [("default_baud", .int defaultBaud), ("allowed_baud_rates", allowedBaudValue)]

def outputVariable : String := "FIRMATABUILDER_OUTPUT_DIR"

/-- The output folder: the one that overrides it, unless that is empty, or the one below `home`. -/
def outputDir (home : PathName) (override : Option String) : PathName :=
  match override with
  | none | some "" => home.join (PathName.ofText outputFolder)
  | some s => PathName.ofText s

end FirmataSketch.Settings
