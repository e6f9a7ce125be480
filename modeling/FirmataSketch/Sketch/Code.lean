import FirmataSketch.Text.Lines

/-! The code of a sketch: the few statements and top-level items that sketches are made of, and
their lines. -/

namespace FirmataSketch.Sketch

/-- Asks an object a question, or its opposite. -/
structure Test where
  target : String
  query : String
  negated : Bool := false
  deriving DecidableEq, Repr

def Test.text (t : Test) : String :=
  (if t.negated then "!" else "") ++ t.target ++ "." ++ t.query ++ "()"

inductive Stmt where
  | blank
  | call (target action : String) (args : List String)
  | invoke (function : String)
  | stop
  | loopWhile (test : Test) (body : List Stmt)
  | when (test : Test) (body : List Stmt)
  /-- Goes through the pins; the pin is called `i`. -/
  | eachPin (body : List Stmt)
  | pinKinds (analog digital : List Stmt)

def indented (depth : Nat) (s : String) : String :=
  String.ofList (List.replicate (2 * depth) ' ') ++ s

namespace Stmt

mutual

def lines (depth : Nat) : Stmt → List String
  | .blank => [""]
  | .call target action args =>
    [indented depth (target ++ "." ++ action ++ "(" ++ String.intercalate ", " args ++ ");")]
  | .invoke function => [indented depth (function ++ "();")]
  | .stop => [indented depth "break;"]
  | .loopWhile test body =>
    indented depth ("while(" ++ test.text ++ ") \x7b") :: (linesAll (depth + 1) body ++
      [indented depth "\x7d"])
  | .when test body =>
    indented depth ("if (" ++ test.text ++ ") \x7b") :: (linesAll (depth + 1) body ++
      [indented depth "\x7d"])
  | .eachPin body =>
    indented depth "for (byte i = 0; i < TOTAL_PINS; i++) \x7b" :: (linesAll (depth + 1) body ++
      [indented depth "\x7d"])
  | .pinKinds analog digital =>
    indented depth "if (IS_PIN_ANALOG(i)) \x7b" :: (linesAll (depth + 1) analog ++
      indented depth "\x7d else if (IS_PIN_DIGITAL(i)) \x7b" :: (linesAll (depth + 1) digital ++
        [indented depth "\x7d"]))

def linesAll (depth : Nat) : List Stmt → List String
  | [] => []
  | s :: ss => lines depth s ++ linesAll depth ss

end

end Stmt

inductive Item where
  | blank
  | comment (lines : List String)
  | include (header : String)
  | declare (className instanceName : String)
  | define (function : String) (body : List Stmt)

def Item.lines : Item → List String
  | .blank => [""]
  | .comment ls => "/*" :: (ls.map (" * " ++ ·) ++ [" */"])
  | .include header => ["#include <" ++ header ++ ">"]
  | .declare className instanceName => [className ++ " " ++ instanceName ++ ";"]
  | .define function body =>
    ("void " ++ function ++ "()") :: "\x7b" :: (Stmt.linesAll 1 body ++ ["\x7d"])

abbrev Block := List Item

def Block.lines (b : Block) : List String := b.flatMap Item.lines

def Block.text (b : Block) : String := Text.unlines b.lines

end FirmataSketch.Sketch
