import FirmataSketch.Catalog.Index
import FirmataSketch.Value.Order

/-! Plans: the features that go into a sketch, sorted by what the sketch does with them. -/

namespace FirmataSketch

structure Plan where
  features : List Feature
  capabilities : List Capability := []
  reporting : List Feature := []
  update : List Feature := []
  /-- The class names of the dependencies whose headers were included. -/
  included : List Value := []

namespace Plan

def has (p : Plan) (c : Capability) : Bool := p.capabilities.contains c

/-- Pulse width output and servos are driven through one handler. -/
def analogWrite (p : Plan) : Bool := p.has .analogOutput || p.has .servo

def reportingEnabled (p : Plan) : Bool := !p.reporting.isEmpty

def updateEnabled (p : Plan) : Bool := !p.update.isEmpty

def provider? (p : Plan) (c : Capability) : Option Feature :=
  p.features.find? fun f => f.capability == some c

def sortedCapabilities (p : Plan) : List Capability := Capability.all.filter p.has

def sortedIncluded (p : Plan) : List Value := p.included.mergeSort Value.notAfter

def flags (p : Plan) : List (String × Bool) :=
  [("analog_input", p.has .analogInput), ("analog_output", p.has .analogOutput),
   ("digital_input", p.has .digitalInput), ("digital_output", p.has .digitalOutput),
   ("servo", p.has .servo), ("scheduler", p.has .scheduler), ("analog_write", p.analogWrite),
   ("reporting_enabled", p.reportingEnabled), ("update_enabled", p.updateEnabled)]

def empty : Plan := { features := [] }

def add (p : Plan) (f : Feature) : Plan :=
  { p with
    features := p.features ++ [f]
    capabilities := match f.capability with
      | some c => if p.has c then p.capabilities else p.capabilities ++ [c]
      | none => p.capabilities
    reporting := if f.reporting then p.reporting ++ [f] else p.reporting
    update := if f.update then p.update ++ [f] else p.update }

/-- Adds the features with the given names to a plan; `seen` holds the names that came before. -/
def resolveFrom (index : Index) (seen : List Key) (p : Plan) : List Value → Except Failure Plan
  | [] => .ok p
  | name :: names => do
    let k ← name.key.mapError .misuse
    if seen.contains k then throw (.repeatedFeature name)
    match index.get? k with
    | none => throw (.unknownFeature name)
    | some f => resolveFrom index (k :: seen) (p.add f) names

/-- The plan for the features with the given names, each of which is known and comes once. -/
def resolve (index : Index) (names : List Value) : Except Failure Plan :=
  resolveFrom index [] empty names

end Plan

end FirmataSketch
