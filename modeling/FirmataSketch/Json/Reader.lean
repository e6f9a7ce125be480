import FirmataSketch.Json.Scalar

/-! Reading JSON documents. -/

namespace FirmataSketch.Json

/-- Of fields with the same name the first gives the place and the last the value. -/
def recordOf (members : List (String × Value)) : Value :=
  .record (members.foldl (fun fs m => Value.setField m.1 m.2 fs) [])

/-- So many lists and records may lie in each other. -/
def maxDepth : Nat := 990

mutual

/-- One value. The fuel bounds the steps; twice the number of characters is enough. `depth` is the
number of lists and records that may still lie in each other. -/
def value : Nat → Nat → Cursor → Except Stop (Value × Cursor)
  | 0, _, c => .error (.at .value c.offset)
  | fuel + 1, depth, c =>
    match c.rest with
    | '"' :: rest => do
      let (cs, c) ← stringFrom c.offset (c.offset + 1) rest
      return (.text (String.ofList cs), c)
    | '[' :: _ => match depth with
      | 0 => .error (.tooDeep .list)
      | depth + 1 =>
        let c := (c.drop 1).skipSpace
        if c.rest.head? == some ']' then .ok (.list [], c.drop 1)
        else do
          let (items, c) ← items fuel depth c
          return (.list items, c)
    | '\x7b' :: _ => match depth with
      | 0 => .error (.tooDeep .record)
      | depth + 1 =>
        let c := (c.drop 1).skipSpace
        if c.rest.head? == some '\x7d' then .ok (.record [], c.drop 1)
        else do
          let (members, c) ← members fuel depth c
          return (recordOf members, c)
    | _ =>
      match named? c with
      | some r => .ok r
      | none => number c

def items : Nat → Nat → Cursor → Except Stop (List Value × Cursor)
  | 0, _, c => .error (.at .value c.offset)
  | fuel + 1, depth, c => do
    let (v, c) ← value fuel depth c
    let c := c.skipSpace
    match c.rest with
    | ']' :: _ => return ([v], c.drop 1)
    | ',' :: _ =>
      let (vs, c) ← items fuel depth (c.drop 1).skipSpace
      return (v :: vs, c)
    | _ => .error (.at .comma c.offset)

def members : Nat → Nat → Cursor → Except Stop (List (String × Value) × Cursor)
  | 0, _, c => .error (.at .value c.offset)
  | fuel + 1, depth, c =>
    match c.rest with
    | '"' :: rest => do
      let (name, c) ← stringFrom c.offset (c.offset + 1) rest
      let c := c.skipSpace
      match c.rest with
      | ':' :: _ =>
        let (v, c) ← value fuel depth (c.drop 1).skipSpace
        let m := (String.ofList name, v)
        let c := c.skipSpace
        match c.rest with
        | '\x7d' :: _ => return ([m], c.drop 1)
        | ',' :: _ =>
          let (ms, c) ← members fuel depth (c.drop 1).skipSpace
          return (m :: ms, c)
        | _ => .error (.at .comma c.offset)
      | _ => .error (.at .colon c.offset)
    | _ => .error (.at .name c.offset)

end

/-- A document is one value with spaces around it. -/
def document (text : List Char) : Except Stop Value :=
  if text.head? == some (Char.ofNat 0xfeff) then .error (.at .byteOrderMark 0)
  else do
    let (v, c) ← value (2 * text.length + 2) maxDepth (Cursor.skipSpace ⟨0, text⟩)
    let c := c.skipSpace
    if c.rest.isEmpty then return v else .error (.at .extra c.offset)

def read (text : List Char) : Except Refusal Value :=
  match document text with
  | .ok v => .ok v
  | .error (.at reason offset) => .error (.fault (Fault.locate text reason offset))
  | .error (.tooManyDigits n) => .error (.tooManyDigits n)
  | .error (.tooDeep c) => .error (.tooDeep c)

end FirmataSketch.Json
