import FirmataSketch.Failure

/-! Storing sketches on a disk. -/

namespace FirmataSketch.Disk

def sketchPath (folder : PathName) (name : Value) : PathName :=
  folder.join (PathName.ofText (name.display ++ Settings.extension))

/-- The terms on which sketches are stored. -/
structure Terms where
  /-- How many missing folders may lie above one another; no number if there may be any. -/
  levels : Option Nat := none
  /-- How folders and sketches are named. -/
  paths : Text.Spelling := .plain
  contents : Text.Spelling := .document

/-- Why the system does not take a path name. -/
def pathFault? (p : PathName) (spelling : Text.Spelling) : Option Failure :=
  match Text.Utf8.unencodableInPath? p.text spelling with
  | some u => some (.notEncodable u)
  | none => if p.hasNull then some .nullInPath else none

/-- Writes a sketch, after making the folders that are missing. Folders stay if the sketch cannot be
written. The file is emptied before the content is encoded. -/
def writeSketch (d : Disk) (folder : PathName) (name : Value) (content : String)
    (terms : Terms := {}) : Disk × Except Failure PathName :=
  let path := sketchPath folder name
  match pathFault? path.parent terms.paths with
  | some e => (d, .error e)
  | none => match d.ensureFolders path.parent terms.levels with
    | (d, some (.refused r)) => (d, .error (.unwritable path.text r))
    | (d, some .tooDeep) => (d, .error .tooDeep)
    | (d, none) => match pathFault? path terms.paths with
      | some e => (d, .error e)
      | none =>
        let encoded := Text.Utf8.encode content terms.contents
        match d.writeFile path (encoded.toOption.getD .empty) with
        | .error r => (d, .error (.unwritable path.text r))
        | .ok d => (d, (encoded.map fun _ => path).mapError .notEncodable)

end FirmataSketch.Disk
