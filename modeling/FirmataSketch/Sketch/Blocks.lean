import FirmataSketch.Clock.Moment
import FirmataSketch.Settings
import FirmataSketch.Sketch.Code
import FirmataSketch.Sketch.Plan

/-! The blocks of a sketch. Each ends with one blank line, but the loop ends the sketch. -/

namespace FirmataSketch

open Sketch

namespace Feature

def classText (f : Feature) : String := f.className.display

def instanceText (f : Feature) : String := f.instanceName.display

end Feature

namespace Sketch

def protocolHeader : String := "Firmata.h"
def protocol : String := "Firmata"

def registryHeader : String := "utility/FirmataExt.h"
def registryClass : String := "FirmataExt"
def registry : String := "firmataExt"

def analogWriteHeader : String := "utility/AnalogWrite.h"

def reportingHeader : String := "utility/FirmataReporting.h"
def reportingClass : String := "FirmataReporting"
def reporting : String := "reporting"

def resetCallback : String := "systemResetCallback"

def bannerBlock (filename : Value) (m : Clock.Moment) : Block :=
  [.comment [filename.display ++ Settings.extension ++ " generated by FirmataBuilder", m.stamp],
   .blank, .include protocolHeader, .blank]

end Sketch

namespace Plan

/-- The dependencies that are not included yet, and all that are included after them. A class name
that is no key ends the pass; what was included before it stays included. -/
def freshDependencies (included : List Value) :
    List Dependency → Except Misuse (List Dependency) × List Value
  | [] => (.ok [], included)
  | d :: ds =>
    match d.className.key with
    | .error m => (.error m, included)
    | .ok k =>
      if k.isAmong included then freshDependencies included ds
      else
        let (rest, included) := freshDependencies (d.className :: included) ds
        (rest.map (d :: ·), included)

def featureBlock (f : Feature) (fresh : List Dependency) : Block :=
  fresh.map (fun d => .include d.header) ++
    [.include f.header, .declare f.classText f.instanceText, .blank]

def featureBlocks (included : List Value) : List Feature → Except Misuse Block × List Value
  | [] => (.ok [], included)
  | f :: fs =>
    match freshDependencies included f.dependencies with
    | (.error m, included) => (.error m, included)
    | (.ok fresh, included) =>
      let (rest, included) := featureBlocks included fs
      (rest.map (featureBlock f fresh ++ ·), included)

def registryBlock : Block :=
  [.include registryHeader, .declare registryClass registry, .blank]

/-- Headers and instances of the features, then the registry. A header that several features need is
included before the first of them. The plan remembers what was included. -/
def includes (p : Plan) : Except Misuse Block × Plan :=
  let (blocks, included) := featureBlocks p.included p.features
  (blocks.map (· ++ registryBlock), { p with included })

def shared (p : Plan) : Block :=
  (if p.analogWrite then [.include analogWriteHeader, .blank] else []) ++
    if p.reportingEnabled then
      [.include reportingHeader, .declare reportingClass Sketch.reporting, .blank]
    else []

/-- The callback that restores the modes of the pins and then resets the features. -/
def resetBlock (p : Plan) : Block :=
  let mode (enabled : Bool) (m : String) : List Stmt :=
    if enabled then [.call protocol "setPinMode" ["i", m]] else []
  let analog := mode (p.has .analogInput) "ANALOG"
  let digital := mode (p.has .digitalOutput) "OUTPUT"
  [.define resetCallback
    [.eachPin [.pinKinds analog digital], .call registry "reset" []],
   .blank]

def register (instanceName : String) : Stmt := .call registry "addFeature" [instanceName]

/-- The set-up of the board; without a connection nothing is opened. -/
def setup (p : Plan) (baud : Option Value) : Block :=
  [.define "setup"
    ([.call protocol "setFirmwareVersion" ["FIRMATA_MAJOR_VERSION", "FIRMATA_MINOR_VERSION"],
      .blank] ++
     (if p.analogWrite then
       [.call protocol "attach" ["ANALOG_MESSAGE", "analogWriteCallback"], .blank] else []) ++
     p.features.map (fun f => register f.instanceText) ++
     (if p.reportingEnabled then [register Sketch.reporting, .blank] else []) ++
     [.call protocol "attach" ["SYSTEM_RESET", resetCallback], .blank] ++
     (match baud with
      | some b => [.call protocol "begin" [b.display], .blank]
      | none => []) ++
     [.invoke resetCallback]),
   .blank]

def available : Test := ⟨protocol, "available", false⟩
def betweenMessages : Test := ⟨protocol, "isParsingMessage", true⟩

/-- Processes the pending input. With a scheduler this stops at the end of a message; then the
stored tasks run, unless a message is only partly read. -/
def drain (p : Plan) : Except Misuse (List Stmt) :=
  if !p.has .scheduler then
    .ok [.loopWhile available [.call protocol "processInput" []]]
  else match p.provider? .scheduler with
    | none => .error .noProvider
    | some f => .ok
      [.loopWhile available [.call protocol "processInput" [], .when betweenMessages [.stop]],
       .when betweenMessages [.call f.instanceText "runTasks" []]]

def loopBody (p : Plan) : Except Misuse (List Stmt) := do
  let drained ← p.drain
  return (match p.provider? .digitalInput with
      | some f => [.call f.instanceText "report" [], .blank]
      | none => []) ++
    drained ++ [.blank] ++
    (if p.reportingEnabled then
      [.when ⟨Sketch.reporting, "elapsed", false⟩
        (p.reporting.map fun f => .call f.instanceText "report" []), .blank] else []) ++
    p.update.map fun f => .call f.instanceText "update" []

def loop (p : Plan) : Except Misuse Block := do
  return [.define "loop" (← p.loopBody)]

end Plan

end FirmataSketch
