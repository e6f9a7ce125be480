import FirmataSketch.Web.Answer

/-! The framework around the routes. It reads the bodies of requests, brings their fields to their types
and writes the answers. -/

namespace FirmataSketch

/-- No text in a value has a surrogate, no number is infinite or overlong, and lists and records lie
in each other no deeper than so many levels. -/
def Value.isPlain (spelling : Text.Spelling) : Nat → Value → Bool
  | _, .null => true
  | _, .bool _ => true
  | _, .int n => Text.isShort n
  | _, .real x => x.isFinite
  | _, .text s => decide (Text.IsEncodable s spelling)
  | 0, .list _ => false
  | 0, .record _ => false
  | levels + 1, .list items => items.all (isPlain spelling levels)
  | levels + 1, .record fields => fields.all fun f =>
      decide (Text.IsEncodable f.1 spelling) && isPlain spelling levels f.2

namespace Web

/-- The characters that the head of an answer may show. -/
def isVisible (c : Char) : Bool := 0x20 ≤ c.toNat && c.toNat < 0x7f

/-- Whether an answer is one that has a form as it stands. Complaints are told with the values that
they are about, which are those of the body. -/
def Answer.isPlain (spelling : Text.Spelling) (levels : Nat) : Answer → Bool
  | .record body => body.isPlain spelling levels
  | .attachment filename content =>
    filename.toList.all isVisible && decide (Text.IsEncodable content spelling)
  | .refused detail => decide (Text.IsEncodable detail spelling)
  | .malformed _ => true

/-- What the routes rely on: plain bodies are read, and plain answers to them are written. -/
structure Framework where
  rules : Rules
  /-- How the texts of bodies are spelled. -/
  spelling : Text.Spelling
  /-- How deep the lists and records of a body may lie in each other. -/
  levels : Nat
  reads : List (String × Value) → Bool
  /-- Whether an answer to a body with the given fields is written. -/
  writes : List (String × Value) → Answer → Bool
  reads_of_isPlain : ∀ fields, (Value.record fields).isPlain spelling levels = true →
    reads fields = true
  writes_of_isPlain : ∀ fields answer, (Value.record fields).isPlain spelling levels = true →
    answer.isPlain spelling levels = true → writes fields answer = true

/-- A framework with the usual rules that reads and writes everything. -/
def Framework.bare : Framework where
  rules := .usual
  spelling := .document
  levels := Json.maxDepth
  reads _ := true
  writes _ _ := true
  reads_of_isPlain _ _ := rfl
  writes_of_isPlain _ _ _ _ := rfl

/-- What comes back for a request. -/
inductive Reply where
  /-- The framework does not read the body, and tells so by itself. -/
  | unread
  | sent (answer : Answer)
  /-- There is an answer, but the framework does not write it. -/
  | unsent

def Framework.send (f : Framework) (fields : List (String × Value)) (answer : Answer) : Reply :=
  if f.writes fields answer then .sent answer else .unsent

end Web

end FirmataSketch
