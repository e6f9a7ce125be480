import FirmataSketch.Disk.Store
import FirmataSketch.Sketch.Generate

/-! Saving sketches on a disk. -/

namespace FirmataSketch

open Disk (PathName)

def Disk.saveSketch (disk : Disk) (folder : PathName) (name : Value) (content : String)
    (terms : Disk.Terms := {}) : Disk × Traced PathName :=
  match disk.writeSketch folder name content terms with
  | (disk, .ok path) => (disk, ⟨[.written path.text], .ok path⟩)
  | (disk, .error f) => (disk, ⟨[], .error f⟩)

/-- Generates the sketch of a draft and saves it. The disk is not touched before there is a text. -/
def Draft.save (d : Draft) (index : Index) (clock : Clock) (time : Option Clock.Time) (disk : Disk)
    (folder : PathName) (terms : Disk.Terms := {}) : Disk × Traced PathName :=
  let generated := d.generate index clock time
  match generated.result with
  | .error f => (disk, ⟨generated.events, .error f⟩)
  | .ok text =>
    let (disk, saved) := disk.saveSketch folder d.filename text terms
    (disk, ⟨generated.events ++ saved.events, saved.result⟩)

end FirmataSketch
