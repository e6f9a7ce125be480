/-! Trees of folders and files. -/

namespace FirmataSketch.Disk

/-- A folder lists its entries by name. -/
inductive Node where
  | file (bytes : ByteArray)
  | folder (entries : List (String × Node))
  deriving Inhabited

abbrev Place := List String

def setEntry (name : String) (n : Node) : List (String × Node) → List (String × Node)
  | [] => [(name, n)]
  | e :: es => if e.1 = name then (name, n) :: es else e :: setEntry name n es

namespace Node

def find? : Node → Place → Option Node
  | n, [] => some n
  | .file _, _ :: _ => none
  | .folder entries, name :: place =>
    match entries.lookup name with
    | some n => n.find? place
    | none => none

/-- Puts a new node at a place. The folder above it must be there; if it is not, the tree stays as
it is. -/
def put : Node → Place → Node → Node
  | _, [], new => new
  | .file bytes, _ :: _, _ => .file bytes
  | .folder entries, [name], new => .folder (setEntry name new entries)
  | .folder entries, name :: next :: place, new =>
    match entries.lookup name with
    | some n => .folder (setEntry name (n.put (next :: place) new) entries)
    | none => .folder entries

mutual

def contents (here : Place) : Node → List (Place × Node)
  | .file _ => []
  | .folder entries => entryContents here entries

def entryContents (here : Place) : List (String × Node) → List (Place × Node)
  | [] => []
  | (name, n) :: es => (here ++ [name], n) :: contents (here ++ [name]) n ++ entryContents here es

end

/-- Files alike have the same content, and any two folders are alike. -/
def isLike : Node → Node → Bool
  | .file a, .file b => a == b
  | .folder _, .folder _ => true
  | _, _ => false

/-- The nodes of a tree that another tree did not have alike at the same place. A folder comes
before what is in it. -/
def changes (before after : Node) : List (Place × Node) :=
  (after.contents []).filter fun p => !(before.find? p.1).any p.2.isLike

end Node

end FirmataSketch.Disk
