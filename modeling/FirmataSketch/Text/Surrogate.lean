/-! Surrogates without partners. A text can have them if a document spells them, but they are no
characters: the characters of a private range, from U+10D800 to U+10DFFF, stand for them. -/

namespace FirmataSketch.Text

/-- Where the characters that stand for surrogates begin, less the first surrogate. -/
def surrogateShift : Nat := 0x100000

/-- The character for a surrogate with the given code. -/
def surrogate (code : Nat) : Char := Char.ofNat (code + surrogateShift)

def isSurrogate (c : Char) : Bool := 0x10d800 ≤ c.toNat && c.toNat ≤ 0x10dfff

def surrogateCode (c : Char) : Nat := c.toNat - surrogateShift

/-- Where a text comes from: a document may spell surrogates, and then the characters of the private
range stand for them. In a plain text they stand for themselves. -/
inductive Spelling where
  | plain
  | document
  deriving DecidableEq, Repr

namespace Spelling

/-- Whether a character stands for a surrogate without a partner. -/
def isLone : Spelling → Char → Bool
  | .plain, _ => false
  | .document, c => isSurrogate c

/-- A byte that is no UTF-8 comes back from the system as a surrogate, and goes to it as the byte. -/
def isEscapedByte (s : Spelling) (c : Char) : Bool :=
  s.isLone c && 0xdc80 ≤ surrogateCode c && surrogateCode c ≤ 0xdcff

end Spelling

/-- All that is in a text are characters. -/
def IsEncodable (s : String) (spelling : Spelling := .document) : Prop :=
  ∀ c ∈ s.toList, spelling.isLone c = false

instance (s : String) (spelling : Spelling) : Decidable (IsEncodable s spelling) :=
  List.decidableBAll (fun c => spelling.isLone c = false) s.toList

end FirmataSketch.Text
