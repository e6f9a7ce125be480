import FirmataSketch.Proofs.Outcome
import FirmataSketch.Selection.Basic
import FirmataSketch.Web.Request

/-! Selections that are made of a file name, a baud and names of features: directly, from the record
in a file, and from the body of a request. They are the same selection or the same fault. -/

namespace FirmataSketch

open Outcome (bind_ok bind_error mapError_ok mapError_error)

variable {features : List String} {filename : String} {baud : Int} {s : Selection}

namespace Selection

theorem eq_of_textOf? {v : Value} {name : String} (h : textOf? v = some name) : v = .text name := by
  cases v <;> cases h
  rfl

theorem mapM_textOf? (features : List String) :
    (features.map Value.text).mapM textOf? = some features := by
  induction features with
  | nil => rfl
  | cons name features ih =>
    rw [List.map_cons, List.mapM_cons, ih]
    rfl

theorem featureNames_texts (features : List String) :
    featureNames (.list (features.map .text)) = .ok features := by
  have hnames := mapM_textOf? features
  unfold featureNames
  simp only [Value.elements, hnames]

theorem validateFilename_ok {v : Value} {name : String} (h : validateFilename v = .ok name) :
    v = .text name ∧ Text.acceptsWord name = true := by
  unfold validateFilename at h
  split at h
  · split at h
    next hword =>
      cases h
      exact ⟨rfl, hword⟩
    next => cases h
  · cases h

theorem validateBaud_ok {v : Value} {n : Nat} (h : validateBaud v = .ok n) : v = .int n := by
  unfold validateBaud at h
  split at h
  next m =>
    split at h
    · cases h
    next hpositive =>
      split at h
      · cases h
        rw [Int.toNat_of_nonneg (by omega)]
      · cases h
  next => cases h

/-- What keeps a selection from being made is told by the command line if it is the builder's own. -/
theorem make_error {features filename baud : Value} {e : Failure}
    (h : make features filename baud = .error e) : e.isReported = e.isOwn := by
  rcases bind_error h with hnames | ⟨names, -, hnamed⟩
  · unfold featureNames at hnames
    split at hnames
    · cases hnames
      rfl
    · split at hnames
      · cases hnames
        rfl
      · split at hnames
        · cases hnames
        · cases hnames
          rfl
  · obtain ⟨f, -, rfl⟩ := mapError_error hnamed
    rfl

theorem named_ok {filename baud : Value} (h : named features filename baud = .ok s) :
    s.features = features ∧ Text.acceptsWord s.filename = true := by
  obtain ⟨name, hname, h⟩ := bind_ok h
  obtain ⟨rate, -, h⟩ := bind_ok h
  cases h
  exact ⟨rfl, (validateFilename_ok hname).2⟩

theorem make_named (features : List String) (filename baud : Value) :
    make (.list (features.map .text)) filename baud =
      (named features filename baud).mapError .selection := by
  unfold make
  rw [featureNames_texts]
  rfl

theorem acceptsWord_of_make {features filename baud : Value}
    (h : make features filename baud = .ok s) : Text.acceptsWord s.filename = true := by
  obtain ⟨names, -, h⟩ := bind_ok h
  exact (named_ok (mapError_ok h)).2

/-- The parts of a selection are those that it was made of, with the defaults for what is missing. -/
structure Parts (s : Selection) (features : List String) (filename baud : Value) : Prop where
  features : s.features = features
  filename : orDefault (.text Settings.defaultFilename) filename = .text s.filename
  baud : orDefault (.int Settings.defaultBaud) baud = .int s.baud

theorem parts_of_named {filename baud : Value} (h : named features filename baud = .ok s) :
    Parts s features filename baud := by
  obtain ⟨name, hname, h⟩ := bind_ok h
  obtain ⟨rate, hrate, h⟩ := bind_ok h
  cases h
  exact ⟨rfl, (validateFilename_ok hname).1, validateBaud_ok hrate⟩

theorem eq_texts_of_mapM {items : List Value} (h : items.mapM textOf? = some features) :
    items = features.map .text := by
  induction items generalizing features with
  | nil =>
    cases h
    rfl
  | cons v items ih =>
    rw [List.mapM_cons, Option.bind_eq_bind, Option.bind_eq_some_iff] at h
    obtain ⟨name, hname, h⟩ := h
    rw [Option.bind_eq_bind, Option.bind_eq_some_iff] at h
    obtain ⟨names, hnames, h⟩ := h
    cases h
    rw [List.map_cons, eq_of_textOf? hname, ih hnames]

theorem ofValue_ok {v : Value} (h : ofValue v = .ok s) :
    ∃ fields baud, v = .record fields ∧
      baudOf (Value.fieldOr fields "connectionType" .null) = .ok baud ∧
      Value.fieldOr fields "selectedFeatures" (.list []) = .list (s.features.map .text) ∧
      named s.features (Value.fieldOr fields "filename" .null) baud = .ok s := by
  unfold ofValue at h
  split at h
  next fields =>
    obtain ⟨baud, hbaud, h⟩ := bind_ok h
    split at h
    next items hitems =>
      split at h
      next names hnames =>
        have hfeatures : s.features = names := (parts_of_named h).features
        refine ⟨fields, baud, rfl, hbaud, ?_, hfeatures ▸ h⟩
        rw [hitems, hfeatures, eq_texts_of_mapM hnames]
      next => cases h
    next => cases h
  next => cases h

theorem acceptsWord_of_ofValue {v : Value} (h : ofValue v = .ok s) :
    Text.acceptsWord s.filename = true := by
  obtain ⟨fields, baud, -, -, -, h⟩ := ofValue_ok h
  exact (named_ok h).2

/-- The record in a selection file, with any values as the file name and the baud. -/
def payload (features : List String) (filename baud : Value) : Value :=
  .record [("filename", filename),
    ("connectionType", .record [("serial", .record [("baud", baud)])]),
    ("selectedFeatures", .list (features.map .text))]

theorem ofValue_payload (features : List String) (filename baud : Value) :
    ofValue (payload features filename baud) = named features filename baud := by
  have hnames := mapM_textOf? features
  have hbaud : baudOf (.record [("serial", .record [("baud", baud)])]) = .ok baud := rfl
  unfold payload ofValue ofFields
  simp [Value.fieldOr, List.lookup_cons, hbaud, hnames, bind, Except.bind]

def ofParts (features : List String) (filename : String) (baud : Int) : Except Fault Selection :=
  named features (.text filename) (.int baud)

theorem make_texts (features : List String) (filename : String) (baud : Int) :
    make (.list (features.map .text)) (.text filename) (.int baud) =
      (ofParts features filename baud).mapError .selection :=
  make_named features (.text filename) (.int baud)

/-- The record of a selection file with the three parts. -/
def document (features : List String) (filename : String) (baud : Int) : Value :=
  .record [("filename", .text filename),
    ("connectionType", .record [("serial", .record [("baud", .int baud)])]),
    ("selectedFeatures", .list (features.map .text))]

theorem ofParts_ok (h : ofParts features filename baud = .ok s) :
    Text.acceptsWord filename = true ∧ s.filename = filename ∧ s.features = features := by
  obtain ⟨filename', hfilename, h⟩ := bind_ok h
  obtain ⟨baud', -, h⟩ := bind_ok h
  cases h
  obtain ⟨hname, hword⟩ := validateFilename_ok hfilename
  cases hname
  exact ⟨hword, rfl, rfl⟩

end Selection

namespace Web

/-- The fields of a request body with the three parts. -/
def fieldsOf (features : List String) (filename : String) (baud : Int) : List (String × Value) :=
  [("filename", .text filename), ("baud", .int baud), ("features", .list (features.map .text))]

theorem selection_request (features : List String) (filename : String) (baud : Int) :
    Request.selection ⟨filename, baud, features⟩ =
      (Selection.ofParts features filename baud).mapError .selection :=
  Selection.make_texts features filename baud

end Web

end FirmataSketch
