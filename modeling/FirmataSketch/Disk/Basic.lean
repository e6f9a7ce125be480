import FirmataSketch.Disk.Node
import FirmataSketch.Disk.PathName
import FirmataSketch.Text.Quoted

/-! A disk with a working folder, and how the system resolves path names on it. -/

namespace FirmataSketch

structure Disk where
  root : Disk.Node
  /-- The working folder, from the root down. -/
  folder : Disk.Place

namespace Disk

/-- Why the system refuses to open a file or to make a folder. -/
inductive Refusal where
  | missing
  | taken
  | notFolder
  | isFolder
  | nameTooLong
  deriving DecidableEq, Repr

def Refusal.number : Refusal → Nat
  | .missing => 2
  | .taken => 17
  | .notFolder => 20
  | .isFolder => 21
  | .nameTooLong => 36

def Refusal.message : Refusal → String
  | .missing => "No such file or directory"
  | .taken => "File exists"
  | .notFolder => "Not a directory"
  | .isFolder => "Is a directory"
  | .nameTooLong => "File name too long"

def Refusal.report (r : Refusal) (path : String) : String :=
  "[Errno " ++ Text.decimal r.number ++ "] " ++ r.message ++ ": " ++ Text.quoted path

def maxNameBytes : Nat := 255

def maxPathBytes : Nat := 4095

/-- Goes from a folder to one of its entries, which need not be there, or to the folder above. -/
def enter (root : Node) (here : Place) (name : String) : Except Refusal Place :=
  match root.find? here with
  | none => .error .missing
  | some (.file _) => .error .notFolder
  | some (.folder _) =>
    if name = ".." then .ok here.dropLast
    else if maxNameBytes < name.utf8ByteSize then .error .nameTooLong
    else .ok (here ++ [name])

/-- The place that a path name leads to. All but the last part must be folders. -/
def locate (d : Disk) (p : PathName) : Except Refusal Place :=
  if maxPathBytes < p.text.utf8ByteSize then .error .nameTooLong
  else p.parts.foldlM (enter d.root) (if p.anchor = .here then d.folder else [])

def node? (d : Disk) (p : PathName) : Option Node :=
  match d.locate p with
  | .ok place => d.root.find? place
  | .error _ => none

def isFolder (d : Disk) (p : PathName) : Bool :=
  match d.node? p with
  | some (.folder _) => true
  | _ => false

def readFile (d : Disk) (p : PathName) : Except Refusal ByteArray := do
  match d.root.find? (← d.locate p) with
  | none => .error .missing
  | some (.folder _) => .error .isFolder
  | some (.file bytes) => .ok bytes

/-- The names in a folder; none if there is no such folder. Only an overlong name is refused. -/
def entryNames (d : Disk) (p : PathName) : Except Refusal (List String) :=
  if p.hasNull then .ok []
  else match d.locate p with
  | .error .nameTooLong => .error .nameTooLong
  | .error _ => .ok []
  | .ok place => match d.root.find? place with
    | some (.folder entries) => .ok (entries.map Prod.fst)
    | _ => .ok []

def makeFolder (d : Disk) (p : PathName) : Except Refusal Disk := do
  let place ← d.locate p
  match d.root.find? place with
  | some _ => .error .taken
  | none => .ok { d with root := d.root.put place (.folder []) }

def writeFile (d : Disk) (p : PathName) (bytes : ByteArray) : Except Refusal Disk := do
  let place ← d.locate p
  match d.root.find? place with
  | some (.folder _) => .error .isFolder
  | _ => .ok { d with root := d.root.put place (.file bytes) }

def ensureFolder (d : Disk) (p : PathName) : Except Refusal Disk :=
  match d.makeFolder p with
  | .ok d => .ok d
  | .error r => if d.isFolder p then .ok d else .error r

/-- Why the folders of a path name are not all made. -/
inductive Obstacle where
  | refused (r : Refusal)
  /-- More folders are missing above one another than there are levels for. -/
  | tooDeep
  deriving DecidableEq, Repr

/-- Makes a folder after the missing folders above it, given by its parts from the last to the
first. Each missing folder above takes one of the levels, if there is a number of them. The disk
keeps the folders that were made before a refusal. -/
def ensureAbove (anchor : Anchor) (levels : Option Nat) (d : Disk) :
    List String → Disk × Option Obstacle
  | [] => match d.ensureFolder ⟨anchor, []⟩ with
    | .ok d => (d, none)
    | .error r => (d, some (.refused r))
  | part :: above =>
    let p : PathName := ⟨anchor, (part :: above).reverse⟩
    match d.ensureFolder p with
    | .ok d => (d, none)
    | .error .missing =>
      if levels = some 0 then (d, some .tooDeep)
      else match ensureAbove anchor (levels.map Nat.pred) d above with
        | (d, some o) => (d, some o)
        | (d, none) => match d.ensureFolder p with
          | .ok d => (d, none)
          | .error r => (d, some (.refused r))
    | .error r => (d, some (.refused r))

def ensureFolders (d : Disk) (p : PathName) (levels : Option Nat := none) : Disk × Option Obstacle :=
  ensureAbove p.anchor levels d p.parts.reverse

end Disk

end FirmataSketch
