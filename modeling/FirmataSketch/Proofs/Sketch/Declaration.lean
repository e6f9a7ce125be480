import FirmataSketch.Proofs.Catalog.ShippedIndex
import FirmataSketch.Proofs.Sketch.Instances
import FirmataSketch.Proofs.Sketch.Presence
import Mathlib.Data.List.TFAE

/-! Declarations come before uses. Whatever instance the functions of a sketch use is declared in
its head, and the parts that serve reporting or analog output are there together or not at all. -/

namespace FirmataSketch

open Text (IsLine)

namespace Sketch

/-- The headers and the instances, which stand before the functions. -/
def head (s : Sketch) : Block := s.includes ++ s.shared

def code (s : Sketch) : Block := s.reset ++ s.setup ++ s.loop

theorem text_eq (s : Sketch) : s.text = s.banner.text ++ s.head.text ++ s.code.text := by
  simp only [text, lines, head, code, Text.unlines_append, Block.lines_append, Block.text,
    String.append_assoc]

namespace IsOf

variable {s : Sketch} {p : Plan} {d : Draft} {m : Clock.Moment}

theorem declared_includes (h : s.IsOf p d m) :
    s.includes.declared = p.features.map Feature.instanceText ++ [registry] := by
  obtain ⟨blocks, included', hblocks, hincludes⟩ := h.includes
  rw [hincludes, Block.declared_append, Plan.declared_featureBlocks hblocks]
  rfl

theorem declared_head (h : s.IsOf p d m) : s.head.declared = p.instances := by
  rw [head, Block.declared_append, h.declared_includes, h.shared, Plan.declared_shared]
  rfl

theorem used_code (h : s.IsOf p d m) (hp : p.Consistent) {x : String} (hx : x ∈ s.code.used) :
    x ∈ p.instances := by
  have hloop := h.loop
  rw [hp.loop_eq, Except.ok.injEq] at hloop
  rw [code, Block.used_append, Block.used_append, List.mem_append, List.mem_append, h.reset,
    h.setup, ← hloop] at hx
  rcases hx with (hx | hx) | hx
  · exact Plan.used_reset hx
  · exact p.used_setup_subset d.baud hx
  · exact hp.used_loop hx

theorem mem_head (h : s.IsOf p d m) {i : Item} (hi : i ∈ s.head) :
    (∃ f ∈ p.features, i ∈ Plan.featureBlock f f.dependencies) ∨ i ∈ Plan.registryBlock ∨
      i ∈ p.shared := by
  obtain ⟨blocks, included', hblocks, hincludes⟩ := h.includes
  rw [head, hincludes, h.shared, List.mem_append, List.mem_append, or_assoc] at hi
  exact hi.imp_left (Plan.mem_featureBlocks hblocks)

theorem isHead (h : s.IsOf p d m) : ∀ i ∈ s.head, i.IsHead := by
  intro i hi
  rcases h.mem_head hi with ⟨f, hf, hi⟩ | hi | hi
  · rw [Plan.featureBlock, List.mem_append, List.mem_map] at hi
    rcases hi with ⟨d, hd, rfl⟩ | hi
    · trivial
    · simp only [List.mem_cons, List.not_mem_nil, or_false] at hi
      rcases hi with rfl | rfl | rfl <;> trivial
  · simp only [Plan.registryBlock, List.mem_cons, List.not_mem_nil, or_false] at hi
    rcases hi with rfl | rfl | rfl <;> trivial
  · simp only [Plan.mem_shared, List.mem_cons, List.not_mem_nil, or_false] at hi
    rcases hi with ⟨_, rfl | rfl⟩ | ⟨_, rfl | rfl | rfl⟩ <;> trivial

/-- What no feature brings in itself is in the head only if it is shared. -/
theorem mem_head_iff_mem_shared (h : s.IsOf p d m) {i : Item}
    (hf : ∀ f ∈ p.features, i ∉ Plan.featureBlock f f.dependencies)
    (hr : i ∉ Plan.registryBlock) : i ∈ s.head ↔ i ∈ p.shared := by
  constructor
  · intro hi
    rcases h.mem_head hi with ⟨f, hmem, hi⟩ | hi | hi
    · exact absurd hi (hf f hmem)
    · exact absurd hi hr
    · exact hi
  · intro hi
    rw [head, h.shared]
    exact List.mem_append_right _ hi

theorem include_mem_head_iff (h : s.IsOf p d m) {header : String}
    (hf : ∀ f ∈ p.features, ∀ header' ∈ f.header :: f.dependencies.map Dependency.header,
      header' ≠ header) (hr : header ≠ registryHeader) :
    "#include <" ++ header ++ ">" ∈ s.head.lines ↔ .include header ∈ p.shared := by
  have hregistry : .include header ∉ Plan.registryBlock := by simp [Plan.registryBlock, hr]
  rw [Block.include_mem_lines h.isHead]
  exact h.mem_head_iff_mem_shared
    (fun f hmem => Plan.include_not_mem_featureBlock (hf f hmem)) hregistry

theorem include_analogWrite_iff (h : s.IsOf p d m) (hf : ∀ f ∈ p.features, f.IsOrdinary) :
    "#include <utility/AnalogWrite.h>" ∈ s.head.lines ↔ p.analogWrite = true := by
  have hline : "#include <utility/AnalogWrite.h>" = "#include <" ++ analogWriteHeader ++ ">" := by
    decide
  have hshared := h.include_mem_head_iff
    (fun f hmem header hh => ((hf f hmem).headers_ne header hh).1) (by decide)
  rw [hline, hshared, Plan.mem_shared]
  simp [analogWriteHeader, reportingHeader]

theorem include_reporting_iff (h : s.IsOf p d m) (hf : ∀ f ∈ p.features, f.IsOrdinary) :
    "#include <utility/FirmataReporting.h>" ∈ s.head.lines ↔ p.reportingEnabled = true := by
  have hline : "#include <utility/FirmataReporting.h>" = "#include <" ++ reportingHeader ++ ">" := by
    decide
  have hshared := h.include_mem_head_iff
    (fun f hmem header hh => ((hf f hmem).headers_ne header hh).2) (by decide)
  rw [hline, hshared, Plan.mem_shared]
  simp [analogWriteHeader, reportingHeader]

theorem declare_reporting_iff (h : s.IsOf p d m) (hf : ∀ f ∈ p.features, f.IsOrdinary) :
    "FirmataReporting reporting;" ∈ s.head.lines ↔ p.reportingEnabled = true := by
  have hline : "FirmataReporting reporting;" = reportingClass ++ " " ++ reporting ++ ";" := by
    decide
  have hfeatures : ∀ f ∈ p.features,
      .declare reportingClass reporting ∉ Plan.featureBlock f f.dependencies := fun f hmem => by
    have hne := (hf f hmem).instanceText_ne
    simp [Plan.featureBlock, hne.symm]
  have hregistry : .declare reportingClass reporting ∉ Plan.registryBlock := by
    simp [Plan.registryBlock, reportingClass, registryClass]
  rw [hline, Block.declare_mem_lines h.isHead (by decide) (by decide),
    h.mem_head_iff_mem_shared hfeatures hregistry, Plan.mem_shared]
  simp

theorem isLine_head (h : s.IsOf p d m) (hf : ∀ f ∈ p.features, ∀ t ∈ f.texts, IsLine t) :
    ∀ l ∈ s.head.lines, IsLine l := by
  intro l hl
  obtain ⟨i, hi, hl⟩ := List.mem_flatMap.1 hl
  rcases h.mem_head hi with ⟨f, hmem, hi⟩ | hi | hi
  · exact Plan.isLine_featureBlock (hf f hmem) l (List.mem_flatMap.2 ⟨i, hi, hl⟩)
  · have hl' : l ∈ Plan.registryBlock.lines := List.mem_flatMap.2 ⟨i, hi, hl⟩
    exact Text.isLine_of_all (by decide) hl'
  · have hl' : l ∈ p.shared.lines := List.mem_flatMap.2 ⟨i, hi, hl⟩
    refine Text.isLine_of_all ?_ hl'
    unfold Plan.shared
    cases p.analogWrite <;> cases p.reportingEnabled <;> decide

theorem tfae_reporting (h : s.IsOf p d m) (hp : p.Consistent)
    (hf : ∀ f ∈ p.features, f.IsOrdinary ∧ ∀ t ∈ f.texts, IsLine t)
    (hb : ∀ b ∈ d.baud, IsLine b.display) :
    [∃ f ∈ p.features, f.reporting = true,
      "#include <utility/FirmataReporting.h>" ∈ Text.lines s.head.text,
      "FirmataReporting reporting;" ∈ Text.lines s.head.text,
      ((Text.lines s.setup.text).filter Plan.isRegistration).getLast? =
        some "  firmataExt.addFeature(reporting);",
      "  if (reporting.elapsed()) \x7b" ∈ Text.lines s.loop.text].TFAE := by
  have hordinary : ∀ f ∈ p.features, f.IsOrdinary := fun f hmem => (hf f hmem).1
  have htexts : ∀ f ∈ p.features, ∀ t ∈ f.texts, IsLine t := fun f hmem => (hf f hmem).2
  have hloop := h.loop
  rw [hp.loop_eq, Except.ok.injEq] at hloop
  have hlast : "  firmataExt.addFeature(reporting);" = Plan.registerLine reporting := by
    decide
  rw [Block.lines_text (h.isLine_head htexts), h.setup,
    Block.lines_text (Plan.isLine_setup htexts hb), ← hloop, Block.lines_text (hp.isLine_loop htexts),
    hlast]
  -- every part says what the plan says, so all of them say the same
  refine List.tfae_of_forall (p.reportingEnabled = true) _ fun part hpart => ?_
  simp only [List.mem_cons, List.not_mem_nil, or_false] at hpart
  rcases hpart with rfl | rfl | rfl | rfl | rfl
  · exact hp.reportingEnabled_iff.symm
  · exact h.include_reporting_iff hordinary
  · exact h.declare_reporting_iff hordinary
  · exact Plan.last_registration_iff hordinary d.baud
  · exact p.guard_mem_loop_iff

theorem tfae_analogWrite (h : s.IsOf p d m) (hp : p.Consistent)
    (hf : ∀ f ∈ p.features, f.IsOrdinary ∧ ∀ t ∈ f.texts, IsLine t)
    (hb : ∀ b ∈ d.baud, IsLine b.display) :
    [∃ f ∈ p.features, f.capability = some .analogOutput ∨ f.capability = some .servo,
      "#include <utility/AnalogWrite.h>" ∈ Text.lines s.head.text,
      "  Firmata.attach(ANALOG_MESSAGE, analogWriteCallback);" ∈ Text.lines s.setup.text].TFAE := by
  have hordinary : ∀ f ∈ p.features, f.IsOrdinary := fun f hmem => (hf f hmem).1
  have htexts : ∀ f ∈ p.features, ∀ t ∈ f.texts, IsLine t := fun f hmem => (hf f hmem).2
  rw [Block.lines_text (h.isLine_head htexts), h.setup,
    Block.lines_text (Plan.isLine_setup htexts hb)]
  refine List.tfae_of_forall (p.analogWrite = true) _ fun part hpart => ?_
  simp only [List.mem_cons, List.not_mem_nil, or_false] at hpart
  rcases hpart with rfl | rfl | rfl
  · exact hp.analogWrite_iff.symm
  · exact h.include_analogWrite_iff hordinary
  · exact p.attach_mem_setup_iff d.baud

end IsOf

end Sketch

open Sketch (registry reporting)

/-- What the functions of a sketch use is declared before them; the features are declared and
registered in the same order. Lines in the text that serve reporting, or analog output, come with
the features that ask for it and never alone. -/
theorem Draft.declared_before_use {d : Draft} {index : Index} {clock : Clock}
    {time : Option Clock.Time} {s : Sketch} (h : (d.sketch index clock time).result = .ok s) :
    s.text = s.banner.text ++ s.head.text ++ s.code.text ∧
    (∀ x ∈ s.code.used, ∃ c, c ++ " " ++ x ++ ";" ∈ s.head.lines) ∧
    ∃ fs, List.Forall₂ index.Finds d.features fs ∧
      s.includes.declared = fs.map Feature.instanceText ++ [registry] ∧
      s.setup.registered = fs.map Feature.instanceText ++
        (if fs.any (·.reporting) then [reporting] else []) ∧
      ((∀ f ∈ fs, f.IsOrdinary ∧ ∀ t ∈ f.texts, IsLine t) → (∀ b ∈ d.baud, IsLine b.display) →
        [∃ f ∈ fs, f.reporting = true,
          "#include <utility/FirmataReporting.h>" ∈ Text.lines s.head.text,
          "FirmataReporting reporting;" ∈ Text.lines s.head.text,
          ((Text.lines s.setup.text).filter Plan.isRegistration).getLast? =
            some "  firmataExt.addFeature(reporting);",
          "  if (reporting.elapsed()) \x7b" ∈ Text.lines s.loop.text].TFAE ∧
        [∃ f ∈ fs, f.capability = some .analogOutput ∨ f.capability = some .servo,
          "#include <utility/AnalogWrite.h>" ∈ Text.lines s.head.text,
          "  Firmata.attach(ANALOG_MESSAGE, analogWriteCallback);" ∈
            Text.lines s.setup.text].TFAE) := by
  obtain ⟨p, m, hp, -, hs⟩ := sketch_ok h
  have hc := Plan.resolve_consistent hp
  refine ⟨s.text_eq, fun x hx => ?_, p.features, Plan.resolve_finds hp, hs.declared_includes, ?_,
    fun hf hb => ⟨hs.tfae_reporting hc hf hb, hs.tfae_analogWrite hc hf hb⟩⟩
  · have hdeclared := hs.used_code hc hx
    rw [← hs.declared_head, Sketch.Block.mem_declared] at hdeclared
    obtain ⟨c, hi⟩ := hdeclared
    exact ⟨c, List.mem_flatMap.2 ⟨_, hi, List.mem_singleton_self _⟩⟩
  · rw [hs.setup, Plan.registered_setup, hc.any_reporting]

/-- The servo asks for analog output and the bus for reporting. -/
theorem Draft.declared_before_use_shipped :
    ∃ s, (Draft.sketch ⟨.text "Lamp", some (.int 57600), [.text "ServoFirmata", .text "I2CFirmata"]⟩
        (Catalog.shippedIndex ⟨.root, []⟩) ⟨.moment .epoch, .utc⟩ none).result = .ok s ∧
      s.includes.declared = ["servo", "i2c", "firmataExt"] ∧
      s.setup.registered = ["servo", "i2c", "reporting"] ∧
      "FirmataReporting reporting;" ∈ Text.lines s.head.text ∧
      "  if (reporting.elapsed()) \x7b" ∈ Text.lines s.loop.text ∧
      "  Firmata.attach(ANALOG_MESSAGE, analogWriteCallback);" ∈ Text.lines s.setup.text := by
  -- the text itself is never computed; what is in it follows from the theorem
  obtain ⟨s, hs⟩ : ∃ s, (Draft.sketch
      ⟨.text "Lamp", some (.int 57600), [.text "ServoFirmata", .text "I2CFirmata"]⟩
      (Catalog.shippedIndex ⟨.root, []⟩) ⟨.moment .epoch, .utc⟩ none).result = .ok s := ⟨_, rfl⟩
  obtain ⟨-, -, fs, hfs, hdeclared, hregistered, hparts⟩ := declared_before_use hs
  have hfs' : fs = _ := (Index.finds_unique _).forall₂ hfs
    (.cons ⟨_, rfl, rfl⟩ (.cons ⟨_, rfl, rfl⟩ .nil))
  subst hfs'
  have hbaud : ∀ b ∈ some (Value.int 57600), IsLine b.display := by decide
  obtain ⟨hreporting, hanalog⟩ := hparts (by decide) hbaud
  have hdeclaration := hreporting.out 0 2
  have hguard := hreporting.out 0 4
  have hattach := hanalog.out 0 2
  exact ⟨s, hs, hdeclared, hregistered, hdeclaration.1 ⟨_, .tail _ (.head _), rfl⟩,
    hguard.1 ⟨_, .tail _ (.head _), rfl⟩, hattach.1 ⟨_, .head _, .inr rfl⟩⟩

end FirmataSketch
