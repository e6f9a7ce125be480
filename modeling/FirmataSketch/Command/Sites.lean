import FirmataSketch.Command.Run

/-! Sites: what a command line looks at on the disk. -/

namespace FirmataSketch.Command

open Disk (PathName)

/-- The folders that a job reads from or writes to, and the file of its selection. -/
def Job.sites (s : Surroundings) : Job → List PathName
  | .generate o =>
    (o.catalog.toList ++ o.selection.toList).map PathName.ofText ++
      (outputFolder s o.out).toOption.toList
  | .features o => o.catalog.toList.map PathName.ofText
  | .serve _ => []

/-- The parts of the path names of all sites, from the root down. A name with a null character in it
leads nowhere. -/
def sites (s : Surroundings) (args : List String) : List (List String) :=
  match Invocation.ofArguments args with
  | .error _ => []
  | .ok i => ((i.job.sites s).filter (!·.hasNull)).map fun p =>
      if p.anchor = .here then s.disk.folder ++ p.parts else p.parts

end FirmataSketch.Command
