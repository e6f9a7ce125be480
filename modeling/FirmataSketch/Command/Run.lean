import FirmataSketch.Catalog.Shipped
import FirmataSketch.Command.Invocation
import FirmataSketch.Sketch.Save

/-! Running a command line. -/

namespace FirmataSketch.Command

open Disk (PathName)

structure Surroundings where
  disk : Disk
  clock : Clock
  home : PathName
  /-- The output folder that overrides the one of the settings. -/
  output : Option String

/-- How a command ends: with a status, or with a failure that it does not report itself. -/
inductive Ending where
  | exit (status : Nat)
  | failure (f : Failure)

structure Served where
  host : Value
  port : Value

structure Report where
  ending : Ending
  stdout : String := ""
  stderr : String := ""
  disk : Disk
  served : Option Served := none

def tellProblems (c : Catalog) : Traced Catalog := ⟨c.problems.map .problem, .ok c⟩

def openCatalog (s : Surroundings) (folder : Option String) : Traced Catalog :=
  match folder with
  | none => ⟨[], .ok (Catalog.shipped s.home)⟩
  | some f => Traced.andThen (.ofExcept (Catalog.load s.disk (PathName.ofText f))) tellProblems

def readSelectionFile (d : Disk) (path : PathName) : Except Failure Selection := do
  if path.hasNull then throw .nullInPath
  let bytes ← (d.readFile path).mapError (.unreadable path.text)
  let v ← Catalog.readDocument bytes
  (Selection.ofValue v).mapError .selection

/-- The selection of a file, in which a file name and a baud that were given replace those of the
file, or the selection of the given features or else of the default ones. -/
def openSelection (d : Disk) (o : GenerateOptions) : Except Failure Selection :=
  match o.selection with
  | some path => do
    let s ← readSelectionFile d (PathName.ofText path)
    match o.filename, o.baud with
    | none, none => return s
    | filename, baud =>
      Selection.make (.list (s.features.map .text)) (filename.getD (.text s.filename))
        (baud.getD (.int s.baud))
  | none =>
    Selection.make (.list (o.features.getD (Settings.defaultFeatures.map .text)))
      (o.filename.getD .null) (o.baud.getD .null)

def outputFolder (s : Surroundings) (out : Option String) : Except Failure PathName :=
  match out with
  | none => .ok (Settings.outputDir s.home s.output)
  | some f =>
    let path := PathName.ofText f
    if path.hasNull then .error .nullInPath else .ok (path.absolute s.disk.folder)

/-- The events that are shown: all of them, or those that are more than debug output. -/
def shown (verbose : Bool) (events : List Event) : String :=
  Text.unlines ((events.filter fun e => verbose || e.level != .debug).map Event.line)

/-- The report of a command that came to an outcome: a failure is told on the error output. -/
def reportOf (verbose : Bool) (disk : Disk) (t : Traced Report) : Report :=
  match t.result with
  | .ok r => { r with stderr := shown verbose t.events ++ r.stderr }
  | .error f =>
    if f.isReported then
      { ending := .exit 1, disk,
        stderr := shown verbose t.events ++ "Error: " ++ f.message ++ "\n" }
    else { ending := .failure f, disk, stderr := shown verbose t.events }

def runGenerate (s : Surroundings) (verbose : Bool) (o : GenerateOptions) : Report :=
  let prepared : Traced (Index × Selection) :=
    (openCatalog s o.catalog).andThen fun catalog =>
      Traced.andThen (.ofExcept (openSelection s.disk o)) fun selection =>
        Traced.andThen (.ofExcept (catalog.index.mapError .misuse)) fun index =>
          ⟨[], .ok (index, selection)⟩
  if o.toStdout then
    reportOf verbose s.disk (prepared.andThen fun p =>
      (p.2.draft.sketch p.1 s.clock none).andThen fun sketch =>
        ⟨[], .ok { ending := .exit 0, disk := s.disk, stdout := sketch.text }⟩)
  else
    let placed := prepared.andThen fun p =>
      Traced.andThen (.ofExcept (outputFolder s o.out)) fun folder => ⟨[], .ok (p, folder)⟩
    match placed.result with
    | .error f => reportOf verbose s.disk ⟨placed.events, .error f⟩
    | .ok ((index, selection), folder) =>
      let (disk, saved) := selection.draft.save index s.clock none s.disk folder
      reportOf verbose disk ((placed.andThen fun _ => saved).andThen fun path =>
        let stdout := "✅ Generated sketch: " ++ path.text ++ "\n"
        ⟨[], .ok { ending := .exit 0, disk, stdout }⟩)

def flagsOf (f : Feature) : List String :=
  (if f.reporting then ["reporting"] else []) ++ (if f.update then ["update"] else []) ++
    (match f.capability with
     | some c => [c.name]
     | none => [])

def row (f : Feature) : Except Misuse String := do
  return (← f.name.column 22) ++ " " ++ (← f.instanceName.column 14) ++ " " ++
    String.intercalate ", " (flagsOf f)

/-- The rows before the first feature that has none, and why it has none. -/
def rows : List Feature → List String × Option Misuse
  | [] => ([], none)
  | f :: fs => match row f with
    | .error m => ([], some m)
    | .ok r => (r :: (rows fs).1, (rows fs).2)

def runFeatures (s : Surroundings) (verbose : Bool) (o : FeaturesOptions) : Report :=
  reportOf verbose s.disk ((openCatalog s o.catalog).andThen fun catalog =>
    let (lines, failed) := rows catalog.features
    let report : Report := { ending := .exit 0, disk := s.disk, stdout := Text.unlines lines }
    ⟨[], .ok (match failed with
      | some m => { report with ending := .failure (.misuse m) }
      | none =>
        { report with
          ending := .exit (if catalog.isOk then 0 else 1)
          stderr := Text.unlines (catalog.problems.map fun p => "  ! " ++ p.text) })⟩)

def runJob (s : Surroundings) (verbose : Bool) : Job → Report
  | .generate o => runGenerate s verbose o
  | .features o => runFeatures s verbose o
  | .serve o => { ending := .exit 0, disk := s.disk, served := some ⟨o.host, o.port⟩ }

def Halt.report (d : Disk) : Halt → Report
  | .help m => { ending := .exit 0, disk := d, stdout := m.helpText }
  | .usage m misstep =>
    { ending := .exit 2, disk := d,
      stderr := m.usageText ++ m.program ++ ": error: " ++ misstep.message ++ "\n" }

def run (s : Surroundings) (args : List String) : Report :=
  match Invocation.ofArguments args with
  | .error h => h.report s.disk
  | .ok i => runJob s i.verbose i.job

end FirmataSketch.Command
