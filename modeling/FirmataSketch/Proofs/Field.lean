import FirmataSketch.Value.Basic

/-! Fields of records: what is known of a field that may be missing, and of the value that is taken in
its place. -/

namespace FirmataSketch.Value

variable {fields : List (String × Value)} {name : String} {v w fallback : Value}

/-- The value is a record, and has such a field. -/
def Has (v : Value) (name : String) (w : Value) : Prop :=
  ∃ fields, v = .record fields ∧ fields.lookup name = some w

theorem has_record : (record fields).Has name w ↔ fields.lookup name = some w := by
  simp [Has]

theorem has_single : (record [(name, v)]).Has name w ↔ w = v := by
  simp [has_record, eq_comm]

theorem not_has_null : ¬ Value.null.Has name w := fun ⟨_, hrecord, _⟩ => nomatch hrecord

theorem not_has_of_absent (h : v.isPresent = false) : ¬ v.Has name w := by
  rintro ⟨fields, rfl, hw⟩
  rw [isPresent, Bool.not_eq_false', List.isEmpty_iff] at h
  rw [h] at hw
  cases hw

theorem fieldOr_of_has (h : (record fields).Has name w) : fieldOr fields name fallback = w := by
  rw [fieldOr, has_record.1 h, Option.getD_some]

theorem has_fieldOr (h : fieldOr fields name fallback ≠ fallback) :
    (record fields).Has name (fieldOr fields name fallback) := by
  rw [has_record]
  rw [fieldOr] at h ⊢
  cases hlookup : fields.lookup name with
  | none =>
    rw [hlookup] at h
    exact absurd rfl h
  | some w => rfl

/-- What holds of the fallback holds of a field, if that is there, exactly if it holds of what is taken
for the field. -/
theorem forall_has_iff {p : Value → Prop} (hfallback : p fallback) :
    (∀ w, (record fields).Has name w → p w) ↔ p (fieldOr fields name fallback) := by
  simp only [has_record, fieldOr]
  cases fields.lookup name with
  | none => simpa using hfallback
  | some w => simp

end FirmataSketch.Value
