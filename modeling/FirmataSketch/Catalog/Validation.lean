import FirmataSketch.Catalog.Problem
import FirmataSketch.Text.Word

/-! Validation of features, one by one and against each other. -/

namespace FirmataSketch

namespace Feature

def nameDefects (which : DeclaredName) (v : Value) : Except Misuse (List Defect) :=
  if !v.isPresent then .ok [.blankName which]
  else match v with
    | .text s => .ok (if Text.acceptsWord s then [] else [.badName which v])
    | _ => .error (.charactersOf v.kind)

def pathDefects (v : Value) : Except Misuse (List Defect) :=
  if !v.isPresent then .ok []
  else match v with
    | .text s => .ok (if s.toList.getLast? = some '/' then [] else [.openPath v])
    | _ => .error (.endOf v.kind)

def dependencyDefects (ds : List Dependency) : List Defect :=
  ds.zipIdx.filterMap fun p => if p.1.className.isPresent then none else some (.blankDependency p.2)

def problems (f : Feature) : Except Misuse (List Problem) := do
  let ofClass ← nameDefects .className f.className
  let ofInstance ← nameDefects .instanceName f.instanceName
  let ofPath ← pathDefects f.path
  return (ofClass ++ ofInstance ++ ofPath ++ dependencyDefects f.dependencies).map (⟨f.name, ·⟩)

end Feature

namespace Catalog

/-- How often a name occurs, under its first spelling. -/
structure Tally where
  key : Key
  name : Value
  count : Nat

def countName (k : Key) (name : Value) : List Tally → List Tally
  | [] => [⟨k, name, 1⟩]
  | t :: ts => if t.key = k then { t with count := t.count + 1 } :: ts else t :: countName k name ts

def tallies (fs : List Feature) : Except Misuse (List Tally) :=
  fs.foldlM (fun ts f => do return countName (← f.name.key) f.name ts) []

def repeatedNames (ts : List Tally) : List Problem :=
  ts.filterMap fun t => if 1 < t.count then some ⟨t.name, .repeatedName t.count⟩ else none

def equalNames (a b : Value) : Bool :=
  match a.key?, b.key? with
  | some j, some k => j.equal k
  | _, _ => false

/-- The names of the features that were the first to use each instance and each capability. -/
structure Owners where
  ofInstance : List (Key × Value) := []
  ofCapability : List (Capability × Value) := []

/-- The owner of `k`, which is `name` if there was none before, and the owners after that. -/
def claim {α : Type} [BEq α] (k : α) (name : Value) (owners : List (α × Value)) :
    Value × List (α × Value) :=
  match owners.lookup k with
  | some owner => (owner, owners)
  | none => (name, owners ++ [(k, name)])

def Owners.claimInstance (o : Owners) (f : Feature) : Except Misuse (List Problem × Owners) := do
  let (owner, ofInstance) := claim (← f.instanceName.key) f.name o.ofInstance
  return (if equalNames owner f.name then []
    else [⟨f.name, .takenInstance f.instanceName owner⟩], { o with ofInstance })

def Owners.claimCapability (o : Owners) (f : Feature) : List Problem × Owners :=
  match f.capability with
  | none => ([], o)
  | some c =>
    let (owner, ofCapability) := claim c f.name o.ofCapability
    (if equalNames owner f.name then [] else [⟨f.name, .takenCapability c owner⟩],
      { o with ofCapability })

def clashesFrom (o : Owners) : List Feature → Except Misuse (List Problem)
  | [] => .ok []
  | f :: fs => do
    let (ofInstance, o) ← o.claimInstance f
    let (ofCapability, o) := o.claimCapability f
    return ofInstance ++ ofCapability ++ (← clashesFrom o fs)

/-- The problems between features: names, instances and capabilities that are not their own. -/
def clashes (fs : List Feature) : Except Misuse (List Problem) := do
  let ts ← tallies fs
  return repeatedNames ts ++ (← clashesFrom {} fs)

end Catalog

end FirmataSketch
