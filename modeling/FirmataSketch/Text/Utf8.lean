import FirmataSketch.Text.Quoted

/-! Decoding UTF-8, with the place and the reason of the first fault, and encoding it. -/

namespace FirmataSketch.Text.Utf8

inductive Reason where
  | start
  | continuation
  | truncated
  deriving DecidableEq, Repr

/-- The bytes that cannot be decoded, the first of which stands at `position`. -/
structure Fault where
  reason : Reason
  position : Nat
  first : UInt8
  more : List UInt8 := []
  deriving DecidableEq, Repr

def Reason.message : Reason → String
  | .start => "invalid start byte"
  | .continuation => "invalid continuation byte"
  | .truncated => "unexpected end of data"

def Fault.message (f : Fault) : String :=
  let place := match f.more with
    | [] => "byte 0x" ++ String.ofList (hexDigits 2 f.first.toNat) ++ " in position " ++
        decimal f.position
    | more => "bytes in position " ++ decimal f.position ++ "-" ++
        decimal (f.position + more.length)
  "'utf-8' codec can't decode " ++ place ++ ": " ++ f.reason.message

def isContinuation (b : UInt8) : Bool := 0x80 ≤ b && b < 0xc0

/-- Whether a byte may follow the given first byte of a longer sequence; this excludes overlong
forms, surrogates and code points past the last one. -/
def isSecond (first b : UInt8) : Bool :=
  isContinuation b &&
    (if first == 0xe0 then 0xa0 ≤ b else if first == 0xed then b < 0xa0
     else if first == 0xf0 then 0x90 ≤ b else if first == 0xf4 then b < 0x90 else true)

/-- The code point of a lead byte's payload followed by continuation bytes. -/
def assemble (lead : Nat) (more : List UInt8) : Char :=
  Char.ofNat (more.foldl (fun n b => 64 * n + b.toNat % 64) lead)

def decodeFrom (position : Nat) : List UInt8 → Except Fault (List Char)
  | [] => .ok []
  | a :: rest =>
    if a < 0x80 then return Char.ofNat a.toNat :: (← decodeFrom (position + 1) rest)
    else if a < 0xc2 ∨ 0xf5 ≤ a then .error ⟨.start, position, a, []⟩
    else match rest with
      | [] => .error ⟨.truncated, position, a, []⟩
      | b :: rest =>
        if !isSecond a b then .error ⟨.continuation, position, a, []⟩
        else if a < 0xe0 then
          return assemble (a.toNat - 0xc0) [b] :: (← decodeFrom (position + 2) rest)
        else match rest with
          | [] => .error ⟨.truncated, position, a, [b]⟩
          | c :: rest =>
            if !isContinuation c then .error ⟨.continuation, position, a, [b]⟩
            else if a < 0xf0 then
              return assemble (a.toNat - 0xe0) [b, c] :: (← decodeFrom (position + 3) rest)
            else match rest with
              | [] => .error ⟨.truncated, position, a, [b, c]⟩
              | d :: rest =>
                if !isContinuation d then .error ⟨.continuation, position, a, [b, c]⟩
                else
                  return assemble (a.toNat - 0xf0) [b, c, d] ::
                    (← decodeFrom (position + 4) rest)

def decode (bytes : ByteArray) : Except Fault (List Char) := decodeFrom 0 bytes.toList

/-- The surrogates without partners that cannot be encoded, the first of which stands at
`position`. -/
structure Unencodable where
  position : Nat
  first : Char
  /-- How many more follow the first one. -/
  more : Nat
  deriving DecidableEq, Repr

def Unencodable.message (u : Unencodable) : String :=
  let place :=
    if u.more = 0 then "character '" ++ String.ofList (escapeCode (surrogateCode u.first)) ++
      "' in position " ++ decimal u.position
    else "characters in position " ++ decimal u.position ++ "-" ++ decimal (u.position + u.more)
  "'utf-8' codec can't encode " ++ place ++ ": surrogates not allowed"

/-- The first character of a text that is refused, with the surrogates right after it. -/
def unencodable? (refused isLone : Char → Bool) (s : String) : Option Unencodable :=
  match s.toList.dropWhile (!refused ·) with
  | [] => none
  | c :: cs => some ⟨(s.toList.takeWhile (!refused ·)).length, c, (cs.takeWhile isLone).length⟩

def encode (s : String) (spelling : Spelling := .document) : Except Unencodable ByteArray :=
  match unencodable? spelling.isLone spelling.isLone s with
  | none => .ok s.toUTF8
  | some u => .error u

/-- What the system has no form for in a path name. -/
def unencodableInPath? (s : String) (spelling : Spelling) : Option Unencodable :=
  unencodable? (fun c => spelling.isLone c && !spelling.isEscapedByte c) spelling.isLone s

end FirmataSketch.Text.Utf8
