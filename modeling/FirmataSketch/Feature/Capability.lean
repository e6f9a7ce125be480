import FirmataSketch.Value.Misuse

/-! Capabilities of a board that a feature switches on in the generated sketch. -/

namespace FirmataSketch

inductive Capability where
  | analogInput
  | analogOutput
  | digitalInput
  | digitalOutput
  | scheduler
  | servo
  deriving DecidableEq, Repr

namespace Capability

def all : List Capability :=
  [.analogInput, .analogOutput, .digitalInput, .digitalOutput, .scheduler, .servo]

def name : Capability → String
  | .analogInput => "analog_input"
  | .analogOutput => "analog_output"
  | .digitalInput => "digital_input"
  | .digitalOutput => "digital_output"
  | .scheduler => "scheduler"
  | .servo => "servo"

def ofName? (s : String) : Option Capability := all.find? (·.name == s)

theorem mem_all (c : Capability) : c ∈ all := by cases c <;> decide

theorem ofName?_name (c : Capability) : ofName? c.name = some c := by cases c <;> decide

def ofValue : Value → Except Misuse (Option Capability)
  | .null => .ok none
  | v =>
    match v with
    | .text s => match ofName? s with
      | some c => .ok (some c)
      | none => .error (.notCapability v)
    | _ => .error (.notCapability v)

def toValue : Option Capability → Value
  | none => .null
  | some c => .text c.name

end Capability

end FirmataSketch
