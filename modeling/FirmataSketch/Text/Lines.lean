/-! Lines and columns of text. -/

namespace FirmataSketch.Text

def unlines (ls : List String) : String := String.join (ls.map (· ++ "\n"))

/-- Turns each of the three line ends (carriage return and line feed, or either alone) into a line
feed. -/
def normalizeLineEnds : List Char → List Char
  | [] => []
  | '\r' :: '\n' :: cs => '\n' :: normalizeLineEnds cs
  | '\r' :: cs => '\n' :: normalizeLineEnds cs
  | c :: cs => c :: normalizeLineEnds cs

/-- Fills a column with spaces on the right; a longer text stays whole. -/
def padRight (width : Nat) (s : String) : String :=
  s ++ String.ofList (List.replicate (width - s.length) ' ')

end FirmataSketch.Text
