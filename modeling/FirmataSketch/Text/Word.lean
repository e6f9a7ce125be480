/-! Words: the names that a sketch, a class and an instance may have. -/

namespace FirmataSketch.Text

def isWordStart (c : Char) : Bool := c.isAlpha || c == '_'

def isWordPart (c : Char) : Bool := c.isAlphanum || c == '_'

/-- A word has one or more ASCII letters, digits and underscores and does not start with a digit. -/
def isWord : List Char → Bool
  | [] => false
  | c :: cs => isWordStart c && cs.all isWordPart

/-- Accepts a word, and a word with one line end after it. -/
def acceptsWord (s : String) : Bool :=
  isWord s.toList || (s.toList.getLast? == some '\n' && isWord s.toList.dropLast)

end FirmataSketch.Text
