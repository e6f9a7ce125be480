import FirmataSketch.Feature.Capability

/-! Features: what the catalog knows of the classes that a sketch can be built from. -/

namespace FirmataSketch

/-- A header with the given folder and class name, as an include line names it. -/
def headerPath (path className : Value) : String := path.display ++ className.display ++ ".h"

/-- A library header that a feature needs included before its own. -/
structure Dependency where
  path : Value
  className : Value

def Dependency.header (d : Dependency) : String := headerPath d.path d.className

/-- The fields hold what the catalog file gave; `source` is the path of that file. -/
structure Feature where
  name : Value
  path : Value
  className : Value
  instanceName : Value
  /-- The feature has a report to send when the sampling timer fires. -/
  reporting : Bool
  update : Bool
  capability : Option Capability
  dependencies : List Dependency
  description : Value
  source : String

def Feature.header (f : Feature) : String := headerPath f.path f.className

end FirmataSketch
