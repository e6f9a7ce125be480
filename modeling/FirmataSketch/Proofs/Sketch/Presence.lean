import FirmataSketch.Proofs.Sketch.PlanLines

/-! Fixed lines: when a sketch has the lines that serve reporting and those that serve analog
output. No block knows of the others; they agree because they look at the same plan. -/

namespace FirmataSketch

open Text (IsLine isLine_append append_ne_append append_ne_of_start)

namespace Feature

open Sketch (analogWriteHeader reportingHeader)

/-- A feature that cannot be taken for a fixed part of a sketch. -/
structure IsOrdinary (f : Feature) : Prop where
  instanceText_ne : f.instanceText ≠ Sketch.reporting
  headers_ne : ∀ header ∈ f.header :: f.dependencies.map Dependency.header,
    header ≠ analogWriteHeader ∧ header ≠ reportingHeader

instance (f : Feature) : Decidable f.IsOrdinary :=
  decidable_of_iff (f.instanceText ≠ Sketch.reporting ∧
      ∀ header ∈ f.header :: f.dependencies.map Dependency.header,
        header ≠ analogWriteHeader ∧ header ≠ reportingHeader)
    ⟨fun h => ⟨h.1, h.2⟩, fun h => ⟨h.1, h.2⟩⟩

end Feature

namespace Plan

open Sketch

variable {p : Plan}

theorem Consistent.reportingEnabled_iff (h : p.Consistent) :
    p.reportingEnabled = true ↔ ∃ f ∈ p.features, f.reporting = true := by
  rw [reportingEnabled, h.reporting_eq, Bool.not_eq_true', List.isEmpty_eq_false_iff_exists_mem]
  simp only [List.mem_filter]

theorem Consistent.any_reporting (h : p.Consistent) :
    p.features.any (·.reporting) = p.reportingEnabled := by
  rw [Bool.eq_iff_iff, List.any_eq_true, h.reportingEnabled_iff]

theorem Consistent.analogWrite_iff (h : p.Consistent) :
    p.analogWrite = true ↔ ∃ f ∈ p.features,
      f.capability = some .analogOutput ∨ f.capability = some .servo := by
  rw [analogWrite, Bool.or_eq_true, h.has_iff, h.has_iff]
  simp only [and_or_left, exists_or]

theorem include_not_mem_featureBlock {f : Feature} {header : String}
    (h : ∀ header' ∈ f.header :: f.dependencies.map Dependency.header, header' ≠ header) :
    .include header ∉ featureBlock f f.dependencies := by
  intro hi
  simp only [featureBlock, List.mem_append, List.mem_map, List.mem_cons, List.not_mem_nil,
    or_false, reduceCtorEq, Item.include.injEq] at hi
  rcases hi with ⟨d, hd, hheader⟩ | hheader
  · exact h _ (List.mem_cons_of_mem _ (List.mem_map_of_mem hd)) hheader
  · exact h _ List.mem_cons_self hheader.symm

theorem mem_shared (p : Plan) (i : Item) :
    i ∈ p.shared ↔
      (p.analogWrite = true ∧ i ∈ [.include analogWriteHeader, .blank]) ∨
      (p.reportingEnabled = true ∧
        i ∈ [.include reportingHeader, .declare reportingClass Sketch.reporting, .blank]) := by
  unfold shared
  cases p.analogWrite <;> cases p.reportingEnabled <;> simp [or_assoc]

def isRegistration (l : String) : Bool := registerOpen.toList.isPrefixOf l.toList

theorem isRegistration_append (s : String) : isRegistration (registerOpen ++ s) = true := by
  rw [isRegistration, String.toList_append, List.isPrefixOf_iff_prefix]
  exact List.prefix_append _ _

theorem isRegistration_registerLine (instanceName : String) :
    isRegistration (registerLine instanceName) = true := by
  rw [registerLine, String.append_assoc]
  exact isRegistration_append _

theorem registrations_setup (p : Plan) (baud : Option Value) :
    (p.setup baud).lines.filter isRegistration =
      p.features.map (fun f => registerLine f.instanceText) ++
        if p.reportingEnabled then [registerLine Sketch.reporting] else [] := by
  have hfeatures : (p.features.map fun f => registerLine f.instanceText).filter isRegistration =
      p.features.map fun f => registerLine f.instanceText := by
    rw [List.filter_eq_self]
    intro l hl
    obtain ⟨f, hf, rfl⟩ := List.mem_map.1 hl
    exact isRegistration_registerLine f.instanceText
  have hbegin (b : Value) : isRegistration ("  Firmata.begin(" ++ b.display ++ ");") = false := by
    -- neither start continues the other, so no baud makes a registration of this line
    have hopen : ¬ "  Firmata.begin(".toList <+: registerOpen.toList := by decide
    have hlen : "  Firmata.begin(".toList.length ≤ registerOpen.toList.length := by decide
    rw [isRegistration, Bool.eq_false_iff, Ne, List.isPrefixOf_iff_prefix]
    intro hprefix
    rw [String.append_assoc, String.toList_append] at hprefix
    exact hopen (List.prefix_of_prefix_length_le (List.prefix_append _ _) hprefix hlen)
  have hfirst : ["void setup()", "\x7b",
      "  Firmata.setFirmwareVersion(FIRMATA_MAJOR_VERSION, FIRMATA_MINOR_VERSION);", ""].filter
      isRegistration = [] := by decide
  have hanalog : (if p.analogWrite then
      ["  Firmata.attach(ANALOG_MESSAGE, analogWriteCallback);", ""] else []).filter
      isRegistration = [] := by
    cases p.analogWrite <;> decide
  have hreporting : (if p.reportingEnabled then
      ["  firmataExt.addFeature(reporting);", ""] else []).filter isRegistration =
      if p.reportingEnabled then [registerLine Sketch.reporting] else [] := by
    cases p.reportingEnabled <;> decide
  have hreset : ["  Firmata.attach(SYSTEM_RESET, systemResetCallback);", ""].filter
      isRegistration = [] := by decide
  have hlast : ["  systemResetCallback();", "\x7d", ""].filter isRegistration = [] := by
    decide
  rw [lines_setup]
  simp only [List.filter_append, hfirst, hanalog, hfeatures, hreporting, hreset, hlast]
  cases baud with
  | none => simp
  | some b =>
    have hempty : isRegistration "" = false := by decide
    simp [hbegin, hempty]

theorem registerLine_inj {x y : String} : registerLine x = registerLine y ↔ x = y := by
  simp only [registerLine, ← String.toList_inj, String.toList_append,
    List.append_cancel_left_eq, List.append_cancel_right_eq]

theorem last_registration_iff (hf : ∀ f ∈ p.features, f.IsOrdinary) (baud : Option Value) :
    ((p.setup baud).lines.filter isRegistration).getLast? = some (registerLine Sketch.reporting) ↔
      p.reportingEnabled = true := by
  rw [registrations_setup]
  cases p.reportingEnabled with
  | true => simp
  | false =>
    simp only [Bool.false_eq_true, if_false, List.append_nil, iff_false]
    intro h
    obtain ⟨f, hmem, hline⟩ := List.mem_map.1 (List.mem_of_getLast? h)
    exact (hf f hmem).instanceText_ne (registerLine_inj.1 hline)

theorem attach_mem_setup_iff (p : Plan) (baud : Option Value) :
    "  Firmata.attach(ANALOG_MESSAGE, analogWriteCallback);" ∈ (p.setup baud).lines ↔
      p.analogWrite = true := by
  -- lines with an open text in them differ from this one already in how they start
  have hregister (x : String) :
      "  Firmata.attach(ANALOG_MESSAGE, analogWriteCallback);" ≠ registerLine x := by
    rw [registerLine, String.append_assoc]
    exact (append_ne_of_start (by decide)).symm
  have hbegin (b : Value) : "  Firmata.attach(ANALOG_MESSAGE, analogWriteCallback);" ≠
      "  Firmata.begin(" ++ b.display ++ ");" := by
    rw [String.append_assoc]
    exact (append_ne_of_start (by decide)).symm
  rw [lines_setup]
  simp only [List.mem_append, or_assoc]
  constructor
  · rintro (h | h | h | h | h | h | h)
    · exact absurd h (by decide)
    · by_contra hp
      rw [if_neg hp] at h
      cases h
    · obtain ⟨f, _, hline⟩ := List.mem_map.1 h
      exact absurd hline.symm (hregister f.instanceText)
    · split at h
      · exact absurd h (by decide)
      · cases h
    · exact absurd h (by decide)
    · cases baud with
      | none => cases h
      | some b =>
        rcases List.mem_cons.1 h with h | h
        · exact absurd h (hbegin b)
        · exact absurd h (by decide)
    · exact absurd h (by decide)
  · intro hp
    refine .inr (.inl ?_)
    rw [if_pos hp]
    exact List.mem_cons_self

theorem guard_mem_loop_iff (p : Plan) :
    "  if (reporting.elapsed()) \x7b" ∈ Block.lines [.define "loop" p.loopCode] ↔
      p.reportingEnabled = true := by
  have hact (depth : Nat) (action : String) (f : Feature) :
      "  if (reporting.elapsed()) \x7b" ≠ f.actLine depth action := by
    -- a call ends in a semicolon and the guard in a brace, whatever the instance is called
    have hends : "  if (reporting.elapsed()) \x7b" = "  if (reporting.elapsed()" ++ ") \x7b" := by
      decide
    rw [Feature.actLine, indented_append, hends]
    exact append_ne_append (by decide) (by decide)
  have hacts (depth : Nat) (action : String) (fs : List Feature) :
      "  if (reporting.elapsed()) \x7b" ∉ fs.map (Feature.actLine depth action) := by
    intro h
    obtain ⟨f, _, hline⟩ := List.mem_map.1 h
    exact hact depth action f hline.symm
  rw [lines_loopCode]
  simp only [List.mem_append, or_assoc]
  constructor
  · rintro (h | h | h | h | h | h | h)
    · exact absurd h (by decide)
    · cases hp : p.provider? .digitalInput with
      | none => rw [hp] at h; cases h
      | some f =>
        rw [hp] at h
        rcases List.mem_cons.1 h with h | h
        · exact absurd h (hact 1 "report" f)
        · exact absurd h (by decide)
    · unfold drainLines at h
      cases hp : p.provider? .scheduler with
      | none =>
        rw [hp] at h
        exact absurd h (by decide)
      | some f =>
        rw [hp] at h
        rcases List.mem_append.1 h with h | h
        · exact absurd h (by decide)
        · rcases List.mem_cons.1 h with h | h
          · exact absurd h (hact 2 "runTasks" f)
          · exact absurd h (by decide)
    · exact absurd h (by decide)
    · by_contra hp
      rw [if_neg hp] at h
      cases h
    · exact absurd h (hacts 1 "update" p.update)
    · exact absurd h (by decide)
  · intro hp
    refine .inr (.inr (.inr (.inr (.inl ?_))))
    rw [if_pos hp]
    exact List.mem_cons_self

end Plan

end FirmataSketch
