import FirmataSketch.Proofs.Selection.Made

/-! Normal form: the record that a selection is written as is read as that selection. Reading and
writing a record fills in what is missing and drops what is not known, and doing so again changes
nothing. -/

namespace FirmataSketch.Selection

open Value (fieldOr)
open Outcome (bind_ok mapError_ok)

variable {s : Selection} {features : List String} {filename baud : Value}

/-- A selection that was made from its parts or read from a record. -/
inductive Accepted (s : Selection) : Prop
  | made {features filename baud : Value} (h : make features filename baud = .ok s)
  | read {v : Value} (h : ofValue v = .ok s)

/-- What a record of a selection comes to when it is read and written. -/
def normalize (v : Value) : Except Fault Value := (ofValue v).map toValue

/-- The record with the given fields, and a baud from its connection, with the defaults for what is
missing and without other fields. The features are as they were. -/
def normalForm (fields : List (String × Value)) (baud : Value) : Value :=
  .record [("filename", orDefault (.text Settings.defaultFilename) (fieldOr fields "filename" .null)),
    ("connectionType", .record [("serial", .record
      [("baud", orDefault (.int Settings.defaultBaud) baud)])]),
    ("selectedFeatures", fieldOr fields "selectedFeatures" (.list []))]

/-- The parts of a selection pass the checks once more. -/
theorem named_parts (h : named features filename baud = .ok s) :
    named s.features (.text s.filename) (.int s.baud) = .ok s := by
  obtain ⟨hfeatures, hfilename, hbaud⟩ := parts_of_named h
  unfold named at h ⊢
  rw [hfilename, hbaud] at h
  rw [hfeatures]
  exact h

theorem Accepted.exists_named (h : Accepted s) :
    ∃ features filename baud, named features filename baud = .ok s := by
  cases h with
  | made h =>
    obtain ⟨names, -, h⟩ := bind_ok h
    exact ⟨names, _, _, mapError_ok h⟩
  | read h =>
    obtain ⟨fields, baud, -, -, -, h⟩ := ofValue_ok h
    exact ⟨_, _, _, h⟩

theorem Accepted.ofValue_toValue (h : Accepted s) : ofValue s.toValue = .ok s := by
  obtain ⟨features, filename, baud, h⟩ := h.exists_named
  have hpayload : s.toValue = payload s.features (.text s.filename) (.int s.baud) := rfl
  rw [hpayload, ofValue_payload, named_parts h]

theorem toValue_eq_normalForm {v : Value} (h : ofValue v = .ok s) :
    ∃ fields baud, v = .record fields ∧ baudOf (fieldOr fields "connectionType" .null) = .ok baud ∧
      s.toValue = normalForm fields baud := by
  obtain ⟨fields, baud, hv, hbaud, hfeatures, h⟩ := ofValue_ok h
  obtain ⟨-, hname, hrate⟩ := parts_of_named h
  refine ⟨fields, baud, hv, hbaud, ?_⟩
  rw [normalForm, hname, hrate, hfeatures]
  rfl

/-- The defaults pass the checks. -/
theorem named_defaults (features : List String) : named features .null .null =
    .ok ⟨Settings.defaultFilename, Settings.defaultBaud, features⟩ := by
  have hname : validateFilename (.text Settings.defaultFilename) = .ok Settings.defaultFilename := by
    rw [validateFilename, if_pos (by decide)]
  have hbaud : validateBaud (.int Settings.defaultBaud) = .ok Settings.defaultBaud := rfl
  unfold named
  simp only [orDefault, hname, hbaud]
  rfl

/-- Every selection is read from the record that it is written as. A record that is read has a normal
form, which has the missing parts filled in and no other fields, which reads as the same selection and
is its own normal form. -/
theorem toValue_inverse :
    (∀ s, Accepted s → ofValue s.toValue = .ok s) ∧
    ∀ v s, ofValue v = .ok s → ∃ w, normalize v = .ok w ∧ ofValue w = .ok s ∧ normalize w = .ok w ∧
      ∃ fields baud, v = .record fields ∧
        baudOf (fieldOr fields "connectionType" .null) = .ok baud ∧ w = normalForm fields baud := by
  refine ⟨fun s h => h.ofValue_toValue, fun v s h => ?_⟩
  have hread : ofValue s.toValue = .ok s := (Accepted.read h).ofValue_toValue
  refine ⟨s.toValue, ?_, hread, ?_, toValue_eq_normalForm h⟩
  · rw [normalize, h]
    rfl
  · rw [normalize, hread]
    rfl

/-- A record with a field that is not known, without a name, and with a connection that says nothing. -/
def sparse : List (String × Value) :=
  [("board", .text "uno"), ("connectionType", .record [("serial", .null)]),
    ("selectedFeatures", .list (["Led", "Fan", "Led"].map .text))]

theorem ofValue_sparse : ofValue (.record sparse) =
    .ok ⟨Settings.defaultFilename, Settings.defaultBaud, ["Led", "Fan", "Led"]⟩ :=
  named_defaults ["Led", "Fan", "Led"]

theorem toValue_inverse_sparse :
    normalize (.record sparse) = .ok (normalForm sparse .null) ∧
      normalize (normalForm sparse .null) = .ok (normalForm sparse .null) ∧
      ofValue (normalForm sparse .null) = ofValue (.record sparse) := by
  obtain ⟨w, hw, hread, hfixed, fields, baud, hfields, hbaud, rfl⟩ :=
    toValue_inverse.2 (.record sparse) _ ofValue_sparse
  cases hfields
  cases hbaud
  exact ⟨hw, hfixed, hread.trans ofValue_sparse.symm⟩

end FirmataSketch.Selection
