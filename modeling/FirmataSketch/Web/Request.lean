import FirmataSketch.Selection.Basic
import FirmataSketch.Text.Lenient

/-! Requests for a sketch: the fields of a body, brought to their types. -/

namespace FirmataSketch.Web

open Number (Binary64)

inductive Location where
  | field (name : String)
  | item (name : String) (index : Nat)
  deriving DecidableEq, Repr

inductive Mismatch where
  | notText
  | notList
  | notInteger
  | noIntegerText
  | hasFraction
  | outOfRange
  | notFinite
  deriving DecidableEq, Repr

def Mismatch.name : Mismatch → String
  | .notText => "string_type"
  | .notList => "list_type"
  | .notInteger => "int_type"
  | .noIntegerText => "int_parsing"
  | .hasFraction => "int_from_float"
  | .outOfRange => "int_parsing_size"
  | .notFinite => "finite_number"

structure Complaint where
  location : Location
  mismatch : Mismatch
  deriving DecidableEq, Repr

structure Request where
  filename : String
  baud : Int
  features : List String
  deriving DecidableEq, Repr

/-- A real number counts as the integer that it is if 64 bits hold it. -/
def integerOfReal (x : Binary64) : Except Mismatch Int :=
  match x with
  | .finite .. => match x.toInt? with
    | none => .error .hasFraction
    | some n => if n.natAbs < Nat.pow 2 63 then .ok n else .error .outOfRange
  | _ => .error .notFinite

def integerOf : Value → Except Mismatch Int
  | .int n => .ok n
  | .bool b => .ok (if b then 1 else 0)
  | .real x => integerOfReal x
  | .text s => (Text.lenient s).mapError fun
    | .overlong => .outOfRange
    | .noInteger => .noIntegerText
  | _ => .error .notInteger

/-- How the values of fields are brought to their types. -/
structure Rules where
  text : Value → Except Mismatch String
  integer : Value → Except Mismatch Int
  items : Value → Except Mismatch (List Value)
  /-- Nothing but a text is taken as one, and it is taken as it is. -/
  text_eq : ∀ v s, text v = .ok s → v = .text s
  text_of_isEncodable : ∀ s, Text.IsEncodable s → text (.text s) = .ok s
  integer_int : ∀ n, integer (.int n) = .ok n
  items_ok_iff : ∀ v items', items v = .ok items' ↔ v = .list items'

/-- The usual rules. They take a text as an integer if it is one in a lenient notation. -/
def Rules.usual : Rules where
  text
    | .text s => .ok s
    | _ => .error .notText
  integer := integerOf
  items
    | .list items => .ok items
    | _ => .error .notList
  text_eq v s h := by
    cases v <;> cases h
    rfl
  text_of_isEncodable _ _ := rfl
  integer_int _ := rfl
  items_ok_iff v items := by cases v <;> simp

/-- What a rule makes of a value, or the complaint about its place in the body. -/
def readAs {α : Type} (rule : Value → Except Mismatch α) (location : Location) (v : Value) :
    Except (List Complaint) α :=
  (rule v).mapError fun m => [⟨location, m⟩]

/-- Both results, or the complaints about the first and then those about the second. -/
def both {α β : Type} : Except (List Complaint) α → Except (List Complaint) β →
    Except (List Complaint) (α × β)
  | .ok a, .ok b => .ok (a, b)
  | .ok _, .error cs => .error cs
  | .error cs, .ok _ => .error cs
  | .error cs, .error ds => .error (cs ++ ds)

def readTextsFrom (rules : Rules) (name : String) (index : Nat) :
    List Value → Except (List Complaint) (List String)
  | [] => .ok []
  | v :: vs =>
    (both (readAs rules.text (.item name index) v) (readTextsFrom rules name (index + 1) vs)).map
      fun p => p.1 :: p.2

def readTexts (rules : Rules) (name : String) (v : Value) : Except (List Complaint) (List String) :=
  (readAs rules.items (.field name) v).bind (readTextsFrom rules name 0)

def fieldWith {α : Type} (fields : List (String × Value)) (name : String) (fallback : α)
    (read : Value → Except (List Complaint) α) : Except (List Complaint) α :=
  match fields.lookup name with
  | none => .ok fallback
  | some v => read v

/-- Reads a request from the fields of its body. All complaints are collected. -/
def Request.ofFields (fields : List (String × Value)) (rules : Rules := .usual) :
    Except (List Complaint) Request :=
  let filename := fieldWith fields "filename" Settings.defaultFilename
    (readAs rules.text (.field "filename"))
  let baud := fieldWith fields "baud" (Settings.defaultBaud : Int)
    (readAs rules.integer (.field "baud"))
  let features := fieldWith fields "features" [] (readTexts rules "features")
  (both (both filename baud) features).map fun p => ⟨p.1.1, p.1.2, p.2⟩

def Request.selection (r : Request) : Except Failure Selection :=
  Selection.make (.list (r.features.map .text)) (.text r.filename) (.int r.baud)

end FirmataSketch.Web
