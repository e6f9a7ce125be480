import FirmataSketch.Proofs.Outcome
import FirmataSketch.Web.Request

/-! Bodies of requests for a sketch. A body either fits a request, which is the only one that it fits, or
has a field that is not of its type; then each such field is complained about. -/

namespace FirmataSketch.Web

open Value (fieldOr)
open Outcome (map_ok)

variable {α β : Type} {fields : List (String × Value)} {r : Request}

/-- What is complained about if there is no result. -/
def told : Except (List Complaint) α → List Complaint
  | .ok _ => []
  | .error cs => cs

theorem told_map (f : α → β) (x : Except (List Complaint) α) : told (x.map f) = told x := by
  cases x <;> rfl

theorem told_both (x : Except (List Complaint) α) (y : Except (List Complaint) β) :
    told (both x y) = told x ++ told y := by
  cases x <;> cases y <;> simp [both, told]

theorem both_ok_iff {x : Except (List Complaint) α} {y : Except (List Complaint) β} {a : α} {b : β} :
    both x y = .ok (a, b) ↔ x = .ok a ∧ y = .ok b := by
  cases x <;> cases y <;> simp [both]

/-- What a rule has against a value at a place in the body. -/
def complaintsAs (rule : Value → Except Mismatch α) (location : Location) (v : Value) :
    List Complaint :=
  match rule v with
  | .ok _ => []
  | .error m => [⟨location, m⟩]

/-- One complaint about each item that is no text, in the order of the items. -/
def textsComplaints (rules : Rules) (name : String) (v : Value) : List Complaint :=
  match rules.items v with
  | .ok items => items.zipIdx.flatMap fun e => complaintsAs rules.text (.item name e.2) e.1
  | .error m => [⟨.field name, m⟩]

/-- A field that is not there is not complained about. -/
def fieldComplaints (fields : List (String × Value)) (name : String)
    (about : Value → List Complaint) : List Complaint :=
  ((fields.lookup name).map about).getD []

def complaints (rules : Rules) (fields : List (String × Value)) : List Complaint :=
  fieldComplaints fields "filename" (complaintsAs rules.text (.field "filename")) ++
    fieldComplaints fields "baud" (complaintsAs rules.integer (.field "baud")) ++
    fieldComplaints fields "features" (textsComplaints rules "features")

/-- The value is a list of texts, which are taken as the given ones. -/
def Rules.TakesTexts (rules : Rules) (v : Value) (names : List String) : Prop :=
  ∃ items, rules.items v = .ok items ∧ items.map rules.text = names.map .ok

/-- One of the fields that are there is not of its type. -/
def Misfit (rules : Rules) (fields : List (String × Value)) : Prop :=
  (∃ v, fields.lookup "filename" = some v ∧ ∀ s, rules.text v ≠ .ok s) ∨
    (∃ v, fields.lookup "baud" = some v ∧ ∀ n, rules.integer v ≠ .ok n) ∨
    ∃ v, fields.lookup "features" = some v ∧ ∀ names, ¬ rules.TakesTexts v names

/-- The request has what the fields hold, and the defaults for those that are missing. -/
structure Request.Fits (r : Request) (rules : Rules) (fields : List (String × Value)) : Prop where
  filename : rules.text (fieldOr fields "filename" (.text Settings.defaultFilename)) = .ok r.filename
  baud : rules.integer (fieldOr fields "baud" (.int Settings.defaultBaud)) = .ok r.baud
  features : rules.TakesTexts (fieldOr fields "features" (.list [])) r.features

section ReadAs

variable {rule : Value → Except Mismatch α} {location : Location} {v : Value}

theorem readAs_ok_iff {a : α} : readAs rule location v = .ok a ↔ rule v = .ok a := by
  rw [readAs]
  cases rule v <;> simp [Except.mapError]

theorem told_readAs : told (readAs rule location v) = complaintsAs rule location v := by
  rw [readAs, complaintsAs]
  cases rule v <;> rfl

end ReadAs

variable {rules : Rules}

theorem readTextsFrom_ok_iff {name : String} {index : Nat} {items : List Value}
    {names : List String} :
    readTextsFrom rules name index items = .ok names ↔ items.map rules.text = names.map .ok := by
  induction items generalizing index names with
  | nil => cases names <;> simp [readTextsFrom]
  | cons v items ih =>
    rw [readTextsFrom]
    constructor
    · intro h
      obtain ⟨⟨s, rest⟩, hboth, rfl⟩ := map_ok h
      rw [both_ok_iff, readAs_ok_iff, ih] at hboth
      rw [List.map_cons, List.map_cons, hboth.1, hboth.2]
    · intro h
      cases names with
      | nil => cases h
      | cons s rest =>
        rw [List.map_cons, List.map_cons, List.cons.injEq] at h
        rw [both_ok_iff.2 ⟨readAs_ok_iff.2 h.1, ih.2 h.2⟩]
        rfl

theorem told_readTextsFrom (name : String) (index : Nat) (items : List Value) :
    told (readTextsFrom rules name index items) =
      (items.zipIdx index).flatMap fun e => complaintsAs rules.text (.item name e.2) e.1 := by
  induction items generalizing index with
  | nil => rfl
  | cons v items ih =>
    rw [readTextsFrom, told_map, told_both, told_readAs, ih, List.zipIdx_cons, List.flatMap_cons]

theorem readTexts_ok_iff {name : String} {v : Value} {names : List String} :
    readTexts rules name v = .ok names ↔ rules.TakesTexts v names := by
  rw [readTexts, readAs, Rules.TakesTexts]
  cases rules.items v with
  | error m => simp [Except.mapError, Except.bind]
  | ok items => simp [Except.mapError, Except.bind, readTextsFrom_ok_iff]

theorem told_readTexts (name : String) (v : Value) :
    told (readTexts rules name v) = textsComplaints rules name v := by
  rw [readTexts, readAs, textsComplaints]
  cases rules.items v with
  | error m => rfl
  | ok items => exact told_readTextsFrom name 0 items

theorem told_fieldWith (fields : List (String × Value)) (name : String) (fallback : α)
    {read : Value → Except (List Complaint) α} {about : Value → List Complaint}
    (h : ∀ v, told (read v) = about v) :
    told (fieldWith fields name fallback read) = fieldComplaints fields name about := by
  rw [fieldWith, fieldComplaints]
  cases fields.lookup name with
  | none => rfl
  | some v => exact h v

section

-- what a field is read as, and the value that stands for its default
variable {name : String} {fallback : α} {read : Value → Except (List Complaint) α}
  {standard : Value} (is : Value → α → Prop)

theorem fieldWith_ok_iff (hread : ∀ v a, read v = .ok a ↔ is v a)
    (hstandard : ∀ a, is standard a ↔ a = fallback) {a : α} :
    fieldWith fields name fallback read = .ok a ↔ is (fieldOr fields name standard) a := by
  rw [fieldWith, fieldOr]
  cases fields.lookup name with
  | none => rw [Option.getD_none, hstandard, Except.ok.injEq, eq_comm]
  | some v => exact hread v a

theorem not_exists_is_iff (hstandard : ∃ a, is standard a) :
    (¬ ∃ a, is (fieldOr fields name standard) a) ↔
      ∃ v, fields.lookup name = some v ∧ ∀ a, ¬ is v a := by
  rw [fieldOr]
  cases fields.lookup name with
  | none => simpa using hstandard
  | some v => simp

end

theorem Rules.takesTexts_nil {names : List String} :
    rules.TakesTexts (.list []) names ↔ names = [] := by
  simp [TakesTexts, rules.items_ok_iff, eq_comm]

theorem ofFields_ok_iff : Request.ofFields fields rules = .ok r ↔ r.Fits rules fields := by
  have hfilename : fieldWith fields "filename" Settings.defaultFilename
      (readAs rules.text (.field "filename")) = .ok r.filename ↔
      rules.text (fieldOr fields "filename" (.text Settings.defaultFilename)) = .ok r.filename :=
    fieldWith_ok_iff (fun v s => rules.text v = .ok s) (fun v s => readAs_ok_iff) fun s => by
      rw [rules.text_of_isEncodable _ (by decide), Except.ok.injEq, eq_comm]
  have hbaud : fieldWith fields "baud" (Settings.defaultBaud : Int)
      (readAs rules.integer (.field "baud")) = .ok r.baud ↔
      rules.integer (fieldOr fields "baud" (.int Settings.defaultBaud)) = .ok r.baud :=
    fieldWith_ok_iff (fun v n => rules.integer v = .ok n) (fun v n => readAs_ok_iff) fun n => by
      rw [rules.integer_int, Except.ok.injEq, eq_comm]
  have hfeatures : fieldWith fields "features" [] (readTexts rules "features") = .ok r.features ↔
      rules.TakesTexts (fieldOr fields "features" (.list [])) r.features :=
    fieldWith_ok_iff rules.TakesTexts (fun v names => readTexts_ok_iff) fun names =>
      Rules.takesTexts_nil
  rw [Request.ofFields]
  constructor
  · intro h
    obtain ⟨⟨⟨s, n⟩, names⟩, hall, rfl⟩ := map_ok h
    rw [both_ok_iff, both_ok_iff] at hall
    exact ⟨hfilename.1 hall.1.1, hbaud.1 hall.1.2, hfeatures.1 hall.2⟩
  · rintro ⟨hs, hn, hnames⟩
    rw [both_ok_iff.2 ⟨both_ok_iff.2 ⟨hfilename.2 hs, hbaud.2 hn⟩, hfeatures.2 hnames⟩]
    rfl

theorem told_ofFields (rules : Rules) (fields : List (String × Value)) :
    told (Request.ofFields fields rules) = complaints rules fields := by
  rw [Request.ofFields, told_map, told_both, told_both,
    told_fieldWith fields _ _ fun _ => told_readAs,
    told_fieldWith fields _ _ fun _ => told_readAs,
    told_fieldWith fields _ _ (told_readTexts "features")]
  rfl

theorem not_exists_fits_iff : (¬ ∃ r : Request, r.Fits rules fields) ↔ Misfit rules fields := by
  have hparts : (∃ r : Request, r.Fits rules fields) ↔
      (∃ s, rules.text (fieldOr fields "filename" (.text Settings.defaultFilename)) = .ok s) ∧
      (∃ n, rules.integer (fieldOr fields "baud" (.int Settings.defaultBaud)) = .ok n) ∧
      ∃ names, rules.TakesTexts (fieldOr fields "features" (.list [])) names := by
    constructor
    · rintro ⟨r, hr⟩
      exact ⟨⟨_, hr.filename⟩, ⟨_, hr.baud⟩, ⟨_, hr.features⟩⟩
    · rintro ⟨⟨s, hs⟩, ⟨n, hn⟩, ⟨names, hnames⟩⟩
      exact ⟨⟨s, n, names⟩, hs, hn, hnames⟩
  rw [hparts, not_and_or, not_and_or]
  exact or_congr
    (not_exists_is_iff (fun v s => rules.text v = .ok s) ⟨_, rules.text_of_isEncodable _ (by decide)⟩)
    (or_congr (not_exists_is_iff (fun v n => rules.integer v = .ok n) ⟨_, rules.integer_int _⟩)
      (not_exists_is_iff rules.TakesTexts ⟨[], Rules.takesTexts_nil.2 rfl⟩))

theorem Request.Fits.unique {r' : Request} (h : r.Fits rules fields) (h' : r'.Fits rules fields) :
    r' = r := by
  rw [← ofFields_ok_iff] at h h'
  exact Except.ok.inj (h'.symm.trans h)

theorem ofFields_of_misfit (h : Misfit rules fields) :
    Request.ofFields fields rules = .error (complaints rules fields) := by
  cases hr : Request.ofFields fields rules with
  | ok r => exact absurd ⟨r, ofFields_ok_iff.1 hr⟩ (not_exists_fits_iff.2 h)
  | error cs => rw [← told_ofFields, hr, told]

example : complaints .usual
    [("features", .list [.int 1, .text "Led", .null]), ("baud", .text "fast")] =
    [⟨.field "baud", .noIntegerText⟩, ⟨.item "features" 0, .notText⟩,
      ⟨.item "features" 2, .notText⟩] := by
  decide

end FirmataSketch.Web
