import FirmataSketch.Catalog.Load

/-! The catalog that comes with the builder. -/

namespace FirmataSketch.Catalog

open Disk (PathName)

/-- A feature of the shipped catalog, apart from the path of its file. -/
structure Supplied where
  file : String
  name : String
  instanceName : String
  description : String
  reporting : Bool := false
  update : Bool := false
  capability : Option Capability := none
  libraries : List String := []

/-- The headers of the features stand in one folder, those of the libraries in none. -/
def Supplied.feature (s : Supplied) (folder : PathName) : Feature where
  name := .text s.name
  path := .text "utility/"
  className := .text s.name
  instanceName := .text s.instanceName
  reporting := s.reporting
  update := s.update
  capability := s.capability
  dependencies := s.libraries.map fun l => ⟨.text "", .text l⟩
  description := .text s.description
  source := (folder.child s.file).text

/-- In the order of their files. -/
def supplied : List Supplied :=
  [{ file := "accelstepper.json", name := "AccelStepperFirmata", instanceName := "accelStepper"
     description := "Stepper control with acceleration profiles.", update := true },
   { file := "analog_input.json", name := "AnalogInputFirmata", instanceName := "analogInput"
     description := "Analog input sampling, reported on the sampling interval."
     reporting := true, capability := some .analogInput },
   { file := "analog_output.json", name := "AnalogOutputFirmata", instanceName := "analogOutput"
     description := "PWM output through analogWrite.", capability := some .analogOutput },
   { file := "digital_input.json", name := "DigitalInputFirmata", instanceName := "digitalInput"
     description := "Digital pin input and port reporting.", capability := some .digitalInput },
   { file := "digital_output.json", name := "DigitalOutputFirmata"
     instanceName := "digitalOutput", description := "Digital pin output."
     capability := some .digitalOutput },
   { file := "encoder.json", name := "EncoderFirmata", instanceName := "encoder"
     description := "Quadrature encoder position reporting.", reporting := true },
   { file := "i2c.json", name := "I2CFirmata", instanceName := "i2c"
     description := "I2C read/write with continuous read reporting.", reporting := true
     libraries := ["Wire"] },
   { file := "onewire.json", name := "OneWireFirmata", instanceName := "oneWire"
     description := "OneWire bus search, read and write." },
   { file := "scheduler.json", name := "FirmataScheduler", instanceName := "scheduler"
     description := "Stored task scheduling on the board.", capability := some .scheduler },
   { file := "serial.json", name := "SerialFirmata", instanceName := "serial"
     description := "Hardware and software serial port passthrough.", update := true
     libraries := ["SoftwareSerial"] },
   { file := "servo.json", name := "ServoFirmata", instanceName := "servo"
     description := "Servo motor control.", capability := some .servo, libraries := ["Servo"] },
   { file := "stepper.json", name := "StepperFirmata", instanceName := "stepper"
     description := "Stepper motor control.", update := true }]

def shipped (home : PathName) : Catalog :=
  ⟨supplied.map (·.feature (home.child "catalog")), []⟩

end FirmataSketch.Catalog
