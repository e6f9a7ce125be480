import FirmataSketch.Failure
import FirmataSketch.Feature.Basic

/-! Features by name. -/

namespace FirmataSketch

/-- The entries have different keys, in the order in which the keys came first. -/
structure Index where
  entries : List (Key × Value × Feature)

namespace Index

/-- Of features with the same name the first gives the place and the spelling of the name, and the
last is the one that is found. -/
def insertEntry (k : Key) (name : Value) (f : Feature) :
    List (Key × Value × Feature) → List (Key × Value × Feature)
  | [] => [(k, name, f)]
  | e :: es => if e.1 = k then (k, e.2.1, f) :: es else e :: insertEntry k name f es

def insert (i : Index) (f : Feature) : Except Misuse Index := do
  let k ← f.name.key
  return ⟨insertEntry k f.name f i.entries⟩

def ofFeatures (fs : List Feature) : Except Misuse Index := fs.foldlM insert ⟨[]⟩

def get? (i : Index) (k : Key) : Option Feature := (i.entries.lookup k).map Prod.snd

def find? (i : Index) (name : Value) : Except Misuse (Option Feature) := do
  return i.get? (← name.key)

end Index

end FirmataSketch
