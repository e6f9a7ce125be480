/-! Path names: an anchor and the parts between slashes. -/

namespace FirmataSketch.Disk

/-- What a path name is relative to. Two slashes at the start are kept apart from one; more than two
count as one. -/
inductive Anchor where
  | here
  | root
  | doubleRoot
  deriving DecidableEq, Repr

def Anchor.text : Anchor → String
  | .here => ""
  | .root => "/"
  | .doubleRoot => "//"

/-- No part is empty or a single dot; two dots stand for the folder above. -/
structure PathName where
  anchor : Anchor
  parts : List String
  deriving DecidableEq, Repr

def splitSlashes : List Char → List (List Char)
  | [] => [[]]
  | c :: cs =>
    if c = '/' then [] :: splitSlashes cs
    else match splitSlashes cs with
      | [] => [[c]]
      | p :: ps => (c :: p) :: ps

namespace PathName

def anchorOf (cs : List Char) : Anchor :=
  match (cs.takeWhile (· == '/')).length with
  | 0 => .here
  | 2 => .doubleRoot
  | _ => .root

def ofText (s : String) : PathName :=
  ⟨anchorOf s.toList,
    ((splitSlashes s.toList).map String.ofList).filter fun p => p != "" && p != "."⟩

def text (p : PathName) : String :=
  match p.anchor, p.parts with
  | .here, [] => "."
  | anchor, parts => anchor.text ++ String.intercalate "/" parts

/-- The second name is taken relative to the first, unless it has an anchor of its own. -/
def join (p q : PathName) : PathName :=
  if q.anchor = .here then ⟨p.anchor, p.parts ++ q.parts⟩ else q

def child (p : PathName) (name : String) : PathName := ⟨p.anchor, p.parts ++ [name]⟩

def parent (p : PathName) : PathName := ⟨p.anchor, p.parts.dropLast⟩

/-- The system opens no file and no folder under a name with a null character in it. -/
def hasNull (p : PathName) : Bool := p.parts.any fun part => part.toList.contains (Char.ofNat 0)

def collapse (parts : List String) : List String :=
  parts.foldl (fun above p => if p = ".." then above.dropLast else above ++ [p]) []

def absolute (folder : List String) (p : PathName) : PathName :=
  match p.anchor with
  | .here => ⟨.root, collapse (folder ++ p.parts)⟩
  | _ => ⟨.root, collapse p.parts⟩

end PathName

/-- A file name without its last extension; a dot at the start begins no extension. -/
def stem (name : String) : String :=
  let tail := name.toList.reverse.takeWhile (· != '.')
  let head := name.toList.take (name.length - tail.length - 1)
  if tail.isEmpty ∨ head.isEmpty then name else String.ofList head

end FirmataSketch.Disk
