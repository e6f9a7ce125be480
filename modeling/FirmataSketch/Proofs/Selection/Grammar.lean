import FirmataSketch.Proofs.Field
import FirmataSketch.Proofs.Selection.Made
import FirmataSketch.Proofs.Text.Word
import Mathlib.Order.Bounds.Basic
import Mathlib.Order.WellFounded

/-! The grammar of selections: a value is read as one exactly if each of its parts is as it should be.
Otherwise the first part that is not, in the order of the checks, is the one that is told. -/

namespace FirmataSketch.Selection

open Outcome (exists_error)
open Text (IsName)
open Value (fieldOr has_single not_has_null not_has_of_absent forall_has_iff)

variable {v w c : Value} {fields : List (String × Value)} {features : List String}

/-- The values that are taken as names of sketches. -/
def TakesName (v : Value) : Prop := ∃ w, IsName w ∧ (v = .text w ∨ v = .text (w ++ "\n"))

/-- The values that are taken as rates of a connection. -/
def TakesRate (v : Value) : Prop := ∃ rate ∈ Settings.allowedBaudRates, v = .int rate

theorem exists_validateFilename_iff : (∃ name, validateFilename v = .ok name) ↔ TakesName v := by
  constructor
  · rintro ⟨name, h⟩
    obtain ⟨rfl, hword⟩ := validateFilename_ok h
    rcases Text.acceptsWord_iff.1 hword with hname | ⟨w, hw, rfl⟩
    · exact ⟨name, hname, .inl rfl⟩
    · exact ⟨w, hw, .inr rfl⟩
  · rintro ⟨w, hw, rfl | rfl⟩
    · exact ⟨w, if_pos (Text.acceptsWord_iff.2 (.inl hw))⟩
    · exact ⟨w ++ "\n", if_pos (Text.acceptsWord_iff.2 (.inr ⟨w, hw, rfl⟩))⟩

theorem exists_validateBaud_iff : (∃ rate, validateBaud v = .ok rate) ↔ TakesRate v := by
  have hpositive : ∀ rate ∈ Settings.allowedBaudRates, 0 < rate := by decide
  constructor
  · rintro ⟨rate, h⟩
    obtain rfl := validateBaud_ok h
    refine ⟨rate, ?_, rfl⟩
    by_contra hnot
    simp only [validateBaud, Int.toNat_natCast, List.contains_iff_mem, hnot, if_false] at h
    split at h <;> cases h
  · rintro ⟨rate, hrate, rfl⟩
    have hlt := hpositive rate hrate
    have hnot : ¬ (rate : Int) ≤ 0 := by omega
    have hallowed : Settings.allowedBaudRates.contains rate = true := List.contains_iff_mem.2 hrate
    exact ⟨rate, by simp only [validateBaud, hnot, if_false, Int.toNat_natCast, hallowed, if_true]⟩

/-- The parts of the value that a selection is read from, in the order of the checks. -/
inductive Part where
  | whole
  | connection
  | serial
  | features
  | featureNames
  | filename
  | baud
  deriving DecidableEq, Repr

namespace Part

instance : LinearOrder Part := LinearOrder.lift' Part.ctorIdx fun a b h => by
  rw [← Part.ofNat_ctorIdx a, h, Part.ofNat_ctorIdx]

instance : WellFoundedLT Part := ⟨InvImage.wf Part.ctorIdx Nat.lt_wfRel.wf⟩

/-- The name under which a part is told. -/
def field : Part → String
  | .whole => "selection"
  | .connection => "connectionType"
  | .serial => "connectionType.serial"
  | .features => "selectedFeatures"
  | .featureNames => "selectedFeatures"
  | .filename => "filename"
  | .baud => "baud"

/-- The part is as it should be. It may be missing, and so may what it is a part of; a value at `serial`
that counts as absent has no parts. -/
def Fits (v : Value) : Part → Prop
  | .whole => ∃ fields, v = .record fields
  | .connection => ∀ c, v.Has "connectionType" c → c = .null ∨ ∃ s, c = .record [("serial", s)]
  | .serial => ∀ c, v.Has "connectionType" c → ∀ s, c.Has "serial" s →
      s.isPresent = false ∨ ∃ fields, s = .record fields
  | .features => ∀ w, v.Has "selectedFeatures" w → ∃ items, w = .list items
  | .featureNames => ∀ w, v.Has "selectedFeatures" w → ∀ items, w = .list items →
      ∀ item ∈ items, ∃ name, item = .text name
  | .filename => ∀ w, v.Has "filename" w → w = .null ∨ TakesName w
  | .baud => ∀ c, v.Has "connectionType" c → ∀ s, c.Has "serial" s → ∀ w, s.Has "baud" w →
      w = .null ∨ TakesRate w

end Part

/-- The parts that are not as they should be. -/
def amiss (v : Value) : Set Part := {p | ¬ p.Fits v}

section Record

theorem baudOf_of_not_connection (h : ¬ Part.connection.Fits (.record fields)) :
    baudOf (fieldOr fields "connectionType" .null) = .error .otherConnection := by
  rw [Part.Fits, forall_has_iff (.inl rfl)] at h
  unfold baudOf
  split
  next hnull => exact absurd (.inl hnull) h
  next serial hserial => exact absurd (.inr ⟨serial, hserial⟩) h
  next => rfl

theorem fits_serial_iff : Part.serial.Fits (.record fields) ↔
    ∀ s, (fieldOr fields "connectionType" .null).Has "serial" s →
      s.isPresent = false ∨ ∃ fields, s = .record fields :=
  forall_has_iff fun _ h => absurd h not_has_null

theorem fits_baud_iff : Part.baud.Fits (.record fields) ↔
    ∀ s, (fieldOr fields "connectionType" .null).Has "serial" s → ∀ w, s.Has "baud" w →
      w = .null ∨ TakesRate w :=
  forall_has_iff fun _ h => absurd h not_has_null

theorem fits_featureNames_iff : Part.featureNames.Fits (.record fields) ↔
    ∀ items, fieldOr fields "selectedFeatures" (.list []) = .list items →
      ∀ item ∈ items, ∃ name, item = .text name :=
  forall_has_iff fun items h => by
    cases h
    simp

theorem baudOf_of_not_serial (hc : Part.connection.Fits (.record fields))
    (h : ¬ Part.serial.Fits (.record fields)) :
    baudOf (fieldOr fields "connectionType" .null) = .error .serialNotRecord := by
  rw [fits_serial_iff] at h
  rcases (forall_has_iff (.inl rfl)).1 hc with hnull | ⟨serial, hserial⟩
  · rw [hnull] at h
    exact absurd (fun s hs => absurd hs not_has_null) h
  · rw [hserial] at h ⊢
    simp only [has_single, forall_eq, not_or, Bool.not_eq_false, not_exists] at h
    rw [baudOf, if_pos h.1]
    exact h.2

/-- A connection that is as it should be gives a baud, which is as it should be if that of its serial
part is. -/
theorem baudOf_of_fits (hc : Part.connection.Fits (.record fields))
    (hs : Part.serial.Fits (.record fields)) :
    ∃ baud, baudOf (fieldOr fields "connectionType" .null) = .ok baud ∧
      (Part.baud.Fits (.record fields) ↔ baud = .null ∨ TakesRate baud) := by
  rw [fits_baud_iff]
  rw [fits_serial_iff] at hs
  rcases (forall_has_iff (.inl rfl)).1 hc with hnull | ⟨serial, hserial⟩
  · rw [hnull]
    exact ⟨.null, rfl, by simp [not_has_null]⟩
  · rw [hserial] at hs ⊢
    simp only [has_single, forall_eq] at hs ⊢
    by_cases hpresent : serial.isPresent = true
    · obtain ⟨inner, rfl⟩ := hs.resolve_left (by simp [hpresent])
      exact ⟨fieldOr inner "baud" .null, by rw [baudOf, if_pos hpresent], forall_has_iff (.inl rfl)⟩
    · have habsent : serial.isPresent = false := Bool.eq_false_iff.2 hpresent
      refine ⟨.null, by simp [baudOf, habsent], ?_⟩
      exact ⟨fun _ => .inl rfl, fun _ w hw => absurd hw (not_has_of_absent habsent)⟩

end Record

/-- The texts among the items of a list, if they are all texts. -/
theorem exists_names_iff {items : List Value} : (∃ names, items.mapM textOf? = some names) ↔
    ∀ item ∈ items, ∃ name, item = .text name := by
  constructor
  · rintro ⟨names, h⟩ item hitem
    rw [eq_texts_of_mapM h] at hitem
    obtain ⟨name, -, rfl⟩ := List.mem_map.1 hitem
    exact ⟨name, rfl⟩
  · intro h
    induction items with
    | nil => exact ⟨[], rfl⟩
    | cons item items ih =>
      rw [List.forall_mem_cons] at h
      obtain ⟨⟨name, rfl⟩, hitems⟩ := h
      obtain ⟨names, hnames⟩ := ih hitems
      exact ⟨name :: names, by rw [List.mapM_cons, hnames]; rfl⟩

/-- A value is left to the default or checked. -/
theorem exists_default_iff {α : Type} {check : Value → Except Fault α} (takes : Value → Prop)
    (hcheck : ∀ v, (∃ a, check v = .ok a) ↔ takes v) {fallback : Value} (hfallback : takes fallback) :
    (∃ a, check (orDefault fallback w) = .ok a) ↔ w = .null ∨ takes w := by
  rw [hcheck]
  cases w with
  | null => simp [orDefault, hfallback]
  | _ => simp [orDefault]

theorem exists_filename_iff : (∃ name, validateFilename
    (orDefault (.text Settings.defaultFilename) w) = .ok name) ↔ w = .null ∨ TakesName w :=
  exists_default_iff TakesName (fun _ => exists_validateFilename_iff)
    ⟨Settings.defaultFilename, Text.isWord_iff_isName.1 (by decide), .inl rfl⟩

theorem exists_baud_iff : (∃ rate, validateBaud
    (orDefault (.int Settings.defaultBaud) w) = .ok rate) ↔ w = .null ∨ TakesRate w :=
  exists_default_iff TakesRate (fun _ => exists_validateBaud_iff)
    ⟨Settings.defaultBaud, by decide, rfl⟩

theorem field_of_validateFilename {f : Fault} (h : validateFilename v = .error f) :
    f.field = "filename" := by
  unfold validateFilename at h
  split at h
  · split at h
    · cases h
    · cases h
      rfl
  · cases h
    rfl

theorem field_of_validateBaud {f : Fault} (h : validateBaud v = .error f) : f.field = "baud" := by
  unfold validateBaud at h
  split at h
  · split at h
    · cases h
      rfl
    · split at h
      · cases h
      · cases h
        rfl
  · cases h
    rfl

section Record

variable (hc : Part.connection.Fits (.record fields)) (hs : Part.serial.Fits (.record fields))

include hc hs

theorem ofFields_of_not_features (h : ¬ Part.features.Fits (.record fields)) :
    ofFields fields = .error .featuresNotNames := by
  obtain ⟨baud, hbaud, -⟩ := baudOf_of_fits hc hs
  rw [Part.Fits, forall_has_iff ⟨[], rfl⟩] at h
  rw [ofFields, hbaud]
  simp only [bind, Except.bind]
  split
  next items hitems => exact absurd ⟨items, hitems⟩ h
  next => rfl

variable (hfeatures : Part.features.Fits (.record fields))

include hfeatures

theorem ofFields_of_not_names (h : ¬ Part.featureNames.Fits (.record fields)) :
    ofFields fields = .error .featuresNotNames := by
  obtain ⟨baud, hbaud, -⟩ := baudOf_of_fits hc hs
  obtain ⟨items, hitems⟩ := (forall_has_iff ⟨[], rfl⟩).1 hfeatures
  rw [fits_featureNames_iff, hitems] at h
  have hnone : items.mapM textOf? = none := by
    rw [Option.eq_none_iff_forall_ne_some]
    intro names hnames
    refine h fun items' hsame => ?_
    cases hsame
    exact exists_names_iff.1 ⟨names, hnames⟩
  rw [ofFields, hbaud, hitems]
  simp only [bind, Except.bind, hnone]

variable (hnames : Part.featureNames.Fits (.record fields))

include hnames

/-- Once the connection and the features are as they should be, the file name and the baud are left. -/
theorem ofFields_eq_named : ∃ names baud,
    ofFields fields = named names (fieldOr fields "filename" .null) baud ∧
      (Part.baud.Fits (.record fields) ↔ baud = .null ∨ TakesRate baud) := by
  obtain ⟨baud, hbaud, hrate⟩ := baudOf_of_fits hc hs
  obtain ⟨items, hitems⟩ := (forall_has_iff ⟨[], rfl⟩).1 hfeatures
  obtain ⟨names, hmap⟩ := exists_names_iff.2 (fits_featureNames_iff.1 hnames items hitems)
  refine ⟨names, baud, ?_, hrate⟩
  rw [ofFields, hbaud, hitems]
  simp only [bind, Except.bind, hmap]

theorem ofFields_of_not_filename (h : ¬ Part.filename.Fits (.record fields)) :
    ∃ f, ofFields fields = .error f ∧ f.field = "filename" := by
  obtain ⟨names, baud, hnamed, -⟩ := ofFields_eq_named hc hs hfeatures hnames
  rw [Part.Fits, forall_has_iff (.inl rfl), ← exists_filename_iff] at h
  obtain ⟨f, hf⟩ := exists_error h
  exact ⟨f, by rw [hnamed, named, hf]; rfl, field_of_validateFilename hf⟩

variable (hfilename : Part.filename.Fits (.record fields))

include hfilename

theorem ofFields_of_not_baud (h : ¬ Part.baud.Fits (.record fields)) :
    ∃ f, ofFields fields = .error f ∧ f.field = "baud" := by
  obtain ⟨names, baud, hnamed, hrate⟩ := ofFields_eq_named hc hs hfeatures hnames
  obtain ⟨name, hname⟩ := exists_filename_iff.2 ((forall_has_iff (.inl rfl)).1 hfilename)
  rw [hrate, ← exists_baud_iff] at h
  obtain ⟨f, hf⟩ := exists_error h
  exact ⟨f, by rw [hnamed, named, hname, hf]; rfl, field_of_validateBaud hf⟩

theorem exists_ofFields (hbaud : Part.baud.Fits (.record fields)) :
    ∃ s, ofFields fields = .ok s := by
  obtain ⟨names, baud, hnamed, hrate⟩ := ofFields_eq_named hc hs hfeatures hnames
  obtain ⟨name, hname⟩ := exists_filename_iff.2 ((forall_has_iff (.inl rfl)).1 hfilename)
  obtain ⟨rate, hrate⟩ := exists_baud_iff.2 (hrate.1 hbaud)
  exact ⟨⟨name, rate, names⟩, by rw [hnamed, named, hname, hrate]; rfl⟩

end Record

theorem exists_ofValue_of_fits (h : ∀ p : Part, p.Fits v) : ∃ s, ofValue v = .ok s := by
  obtain ⟨fields, rfl⟩ := h .whole
  exact exists_ofFields (h .connection) (h .serial) (h .features) (h .featureNames) (h .filename)
    (h .baud)

/-- The first part that is not as it should be is told. -/
theorem ofValue_of_isLeast {p : Part} (hp : IsLeast (amiss v) p) :
    ∃ f, ofValue v = .error f ∧ f.field = p.field := by
  have hbefore {q : Part} (hq : q < p) : q.Fits v := by_contra fun h => not_le.2 hq (hp.2 h)
  have hnot : ¬ p.Fits v := hp.1
  by_cases hwhole : p = .whole
  · subst hwhole
    refine ⟨.notRecord, ?_, rfl⟩
    unfold ofValue
    split
    next fields => exact absurd ⟨fields, rfl⟩ hnot
    next => rfl
  · obtain ⟨fields, rfl⟩ := hbefore (q := .whole) (by revert hwhole; cases p <;> decide)
    cases p with
    | whole => exact absurd rfl hwhole
    | connection => exact ⟨_, by rw [ofValue, ofFields, baudOf_of_not_connection hnot]; rfl, rfl⟩
    | serial =>
      have hc := hbefore (q := .connection) (by decide)
      exact ⟨_, by rw [ofValue, ofFields, baudOf_of_not_serial hc hnot]; rfl, rfl⟩
    | features =>
      exact ⟨_, ofFields_of_not_features (hbefore (by decide)) (hbefore (by decide)) hnot, rfl⟩
    | featureNames =>
      exact ⟨_, ofFields_of_not_names (hbefore (by decide)) (hbefore (by decide))
        (hbefore (by decide)) hnot, rfl⟩
    | filename =>
      exact ofFields_of_not_filename (hbefore (by decide)) (hbefore (by decide)) (hbefore (by decide))
        (hbefore (by decide)) hnot
    | baud =>
      exact ofFields_of_not_baud (hbefore (by decide)) (hbefore (by decide)) (hbefore (by decide))
        (hbefore (by decide)) (hbefore (by decide)) hnot

theorem exists_isLeast_amiss (h : ¬ ∀ p : Part, p.Fits v) : ∃ p, IsLeast (amiss v) p := by
  have hsome : (amiss v).Nonempty := not_forall.1 h
  obtain ⟨p, hp, hmin⟩ := wellFounded_lt.has_min _ hsome
  exact ⟨p, hp, fun q hq => not_lt.1 (hmin q hq)⟩

/-- A value is read as a selection exactly if all its parts are as they should be. Otherwise it is refused
under the name of the first part that is not. -/
theorem ofValue_grammar (v : Value) :
    ((∃ s, ofValue v = .ok s) ↔ ∀ p : Part, p.Fits v) ∧
    ∀ f, ofValue v = .error f → ∃ p, IsLeast (amiss v) p ∧ f.field = p.field := by
  refine ⟨⟨fun ⟨s, hs⟩ => ?_, exists_ofValue_of_fits⟩, fun f hf => ?_⟩
  · by_contra h
    obtain ⟨p, hp⟩ := exists_isLeast_amiss h
    obtain ⟨f, hf, -⟩ := ofValue_of_isLeast hp
    cases hs.symm.trans hf
  · have hnot : ¬ ∀ p : Part, p.Fits v := by
      intro h
      obtain ⟨s, hs⟩ := exists_ofValue_of_fits h
      cases hf.symm.trans hs
    obtain ⟨p, hp⟩ := exists_isLeast_amiss hnot
    obtain ⟨f', hf', hfield⟩ := ofValue_of_isLeast hp
    cases hf.symm.trans hf'
    exact ⟨p, hp, hfield⟩

/-- A name that starts with a digit, and a truth value as the baud. -/
def twiceAmiss : Value :=
  .record [("connectionType", .record [("serial", .record [("baud", .bool true)])]),
    ("filename", .text "1A")]

/-- The name is told, though the baud is read before it. -/
theorem ofValue_grammar_twiceAmiss :
    ofValue twiceAmiss = .error (.badFilename (.text "1A")) ∧ IsLeast (amiss twiceAmiss) .filename ∧
      Part.baud ∈ amiss twiceAmiss := by
  have hrefused : ofValue twiceAmiss = .error (.badFilename (.text "1A")) := rfl
  obtain ⟨p, hp, hfield⟩ := (ofValue_grammar twiceAmiss).2 _ hrefused
  have hpart : p = .filename := by
    revert hfield
    cases p <;> decide
  refine ⟨hrefused, hpart ▸ hp, fun hbaud => ?_⟩
  have hnot := hbaud _ ⟨_, rfl, rfl⟩ _ ⟨_, rfl, rfl⟩ _ ⟨_, rfl, rfl⟩
  rcases hnot with hnull | ⟨rate, -, hrate⟩
  · cases hnull
  · cases hrate

end FirmataSketch.Selection
