import FirmataSketch.Proofs.Catalog.ShippedIndex
import FirmataSketch.Proofs.Sketch.Presence
import Mathlib.Data.List.Flatten

/-! Growth: what happens to a sketch when features are put after those that it has. Every line stays,
and the lines stay in order, block by block: what a new feature brings in is only put between them. -/

namespace FirmataSketch

theorem sublist_ite {α : Type} {b c : Bool} {l l' : List α} (h : b = true → c = true)
    (hl : l.Sublist l') : (if b then l else []).Sublist (if c then l' else []) := by
  cases b with
  | false => exact List.nil_sublist _
  | true =>
    rw [h rfl]
    exact hl

namespace Plan

open Sketch

variable {index : Index} {p q : Plan} {xs ys : List Value}

theorem resolve_append (h : resolve index (xs ++ ys) = .ok q) :
    ∃ p, resolve index xs = .ok p ∧ p.features <+: q.features := by
  obtain ⟨hnodup, hfound⟩ := exists_resolve_iff.1 ⟨q, h⟩
  rw [List.map_append] at hnodup
  obtain ⟨p, hp⟩ := exists_resolve_iff.2
    ⟨hnodup.sublist (List.sublist_append_left _ _),
      fun name hname => hfound name (List.mem_append_left ys hname)⟩
  have hfirst := List.forall₂_take xs.length (resolve_finds h)
  rw [List.take_left] at hfirst
  refine ⟨p, hp, ?_⟩
  rw [index.finds_unique.forall₂ (resolve_finds hp) hfirst]
  exact List.take_prefix _ _

/-- The second plan has the features of the first one and then perhaps others. -/
structure Grows (p q : Plan) : Prop where
  features : p.features <+: q.features
  has : ∀ c, p.has c = true → q.has c = true
  reporting : p.reporting.Sublist q.reporting
  update : p.update.Sublist q.update

theorem Consistent.grows (hp : p.Consistent) (hq : q.Consistent) (h : p.features <+: q.features) :
    p.Grows q := by
  refine ⟨h, fun c hc => ?_, ?_, ?_⟩
  · obtain ⟨f, hf, hcapability⟩ := (hp.has_iff c).1 hc
    exact (hq.has_iff c).2 ⟨f, h.subset hf, hcapability⟩
  · rw [hp.reporting_eq, hq.reporting_eq]
    exact h.sublist.filter _
  · rw [hp.update_eq, hq.update_eq]
    exact h.sublist.filter _

namespace Grows

theorem analogWrite (h : p.Grows q) (ha : p.analogWrite = true) : q.analogWrite = true := by
  rw [Plan.analogWrite, Bool.or_eq_true] at ha ⊢
  exact ha.imp (h.has _) (h.has _)

theorem reportingEnabled (h : p.Grows q) (hr : p.reportingEnabled = true) :
    q.reportingEnabled = true := by
  rw [Plan.reportingEnabled, Bool.not_eq_true', List.isEmpty_eq_false_iff] at hr ⊢
  exact fun hnil => hr (List.sublist_nil.1 (hnil ▸ h.reporting))

theorem provider? (h : p.Grows q) {c : Capability} {f : Feature} (hf : p.provider? c = some f) :
    q.provider? c = some f := h.features.find?_eq_some hf

end Grows

/-- The lines of the callback that resets the pins and the features. -/
theorem lines_resetBlock (p : Plan) :
    p.resetBlock.lines =
      ["void systemResetCallback()", "\x7b", "  for (byte i = 0; i < TOTAL_PINS; i++) \x7b",
        "    if (IS_PIN_ANALOG(i)) \x7b"] ++
      (if p.has .analogInput then ["      Firmata.setPinMode(i, ANALOG);"] else []) ++
      ["    \x7d else if (IS_PIN_DIGITAL(i)) \x7b"] ++
      (if p.has .digitalOutput then ["      Firmata.setPinMode(i, OUTPUT);"] else []) ++
      ["    \x7d", "  \x7d", "  firmataExt.reset();", "\x7d", ""] := by
  unfold resetBlock
  cases p.has .analogInput <;> cases p.has .digitalOutput <;> decide

namespace Grows

theorem shared (h : p.Grows q) : p.shared.Sublist q.shared :=
  (sublist_ite h.analogWrite (.refl _)).append (sublist_ite h.reportingEnabled (.refl _))

theorem resetBlock (h : p.Grows q) : p.resetBlock.lines.Sublist q.resetBlock.lines := by
  have hanalog := sublist_ite (h.has .analogInput) (.refl ["      Firmata.setPinMode(i, ANALOG);"])
  have hdigital := sublist_ite (h.has .digitalOutput) (.refl ["      Firmata.setPinMode(i, OUTPUT);"])
  rw [lines_resetBlock, lines_resetBlock]
  exact ((((List.Sublist.refl _).append hanalog).append (.refl _)).append hdigital).append (.refl _)

theorem setup (h : p.Grows q) (baud : Option Value) :
    (p.setup baud).lines.Sublist (q.setup baud).lines := by
  have hanalog := sublist_ite h.analogWrite
    (.refl ["  Firmata.attach(ANALOG_MESSAGE, analogWriteCallback);", ""])
  have hfeatures := h.features.sublist.map fun f => registerLine f.instanceText
  have hreporting := sublist_ite h.reportingEnabled
    (.refl ["  firmataExt.addFeature(reporting);", ""])
  rw [lines_setup, lines_setup]
  exact ((((((List.Sublist.refl _).append hanalog).append hfeatures).append hreporting).append
    (.refl _)).append (.refl _)).append (.refl _)

theorem drainLines (h : p.Grows q) : p.drainLines.Sublist q.drainLines := by
  unfold Plan.drainLines
  cases hp : p.provider? .scheduler with
  | some f => rw [h.provider? hp]
  | none =>
    cases hq : q.provider? .scheduler with
    | none => exact .refl _
    | some f =>
      -- the loop gets a way out before its brace, and the tasks come after it
      have hwhile : ["  while(Firmata.available()) \x7b", "    Firmata.processInput();",
          "  \x7d"].Sublist ["  while(Firmata.available()) \x7b", "    Firmata.processInput();",
          "    if (!Firmata.isParsingMessage()) \x7b", "      break;", "    \x7d", "  \x7d",
          "  if (!Firmata.isParsingMessage()) \x7b"] := by decide
      exact hwhile.trans (List.sublist_append_left _ _)

theorem digitalLines (h : p.Grows q) :
    (match p.provider? .digitalInput with
      | some f => [f.actLine 1 "report", ""]
      | none => []).Sublist
    (match q.provider? .digitalInput with
      | some f => [f.actLine 1 "report", ""]
      | none => []) := by
  cases hp : p.provider? .digitalInput with
  | some f => rw [h.provider? hp]
  | none => exact List.nil_sublist _

theorem loop (h : p.Grows q) :
    (Block.lines [.define "loop" p.loopCode]).Sublist (Block.lines [.define "loop" q.loopCode]) := by
  have hreports : ("  if (reporting.elapsed()) \x7b" ::
      (p.reporting.map (Feature.actLine 2 "report") ++ ["  \x7d", ""])).Sublist
      ("  if (reporting.elapsed()) \x7b" ::
        (q.reporting.map (Feature.actLine 2 "report") ++ ["  \x7d", ""])) :=
    ((h.reporting.map _).append (.refl _)).cons_cons _
  have hreporting := sublist_ite h.reportingEnabled hreports
  have hupdates := h.update.map (Feature.actLine 1 "update")
  rw [lines_loopCode, lines_loopCode]
  exact ((((((List.Sublist.refl _).append h.digitalLines).append h.drainLines).append (.refl _)).append
    hreporting).append hupdates).append (.refl _)

end Grows

end Plan

namespace Sketch

/-- The lines of a sketch as they can be read from its text. A line into which a name brings a line
end is read as several. -/
theorem lines_text (s : Sketch) :
    Text.lines s.text = s.lines.flatMap fun l => Text.lines (l ++ "\n") :=
  Text.lines_unlines_eq_flatMap s.lines

theorem IsOf.lines_sublist {s t : Sketch} {p q : Plan} {d e : Draft} {m : Clock.Moment}
    (hs : s.IsOf p d m) (ht : t.IsOf q e m) (hp : p.Consistent) (hq : q.Consistent)
    (h : p.Grows q) (hincluded : p.included = q.included) (hname : d.filename = e.filename)
    (hbaud : d.baud = e.baud) : s.lines.Sublist t.lines := by
  have hbanner : s.banner = t.banner := by rw [hs.banner, ht.banner, hname]
  have hincludes : s.includes.Sublist t.includes := by
    obtain ⟨blocks, included, hblocks, hof⟩ := hs.includes
    obtain ⟨blocks', included', hblocks', hof'⟩ := ht.includes
    obtain ⟨fs, hfs⟩ := h.features
    rw [← hfs, ← hincluded] at hblocks'
    obtain ⟨first, middle, rest, hfirst, -, rfl⟩ := Plan.featureBlocks_append hblocks'
    rw [hblocks, Prod.mk.injEq, Except.ok.injEq] at hfirst
    rw [hof, hof', hfirst.1]
    exact (List.sublist_append_left _ _).append (.refl _)
  have hshared : s.shared.Sublist t.shared := by
    rw [hs.shared, ht.shared]
    exact h.shared
  have hreset : s.reset.lines.Sublist t.reset.lines := by
    rw [hs.reset, ht.reset]
    exact h.resetBlock
  have hsetup : s.setup.lines.Sublist t.setup.lines := by
    rw [hs.setup, ht.setup, hbaud]
    exact h.setup e.baud
  have hloop : s.loop.lines.Sublist t.loop.lines := by
    rw [Except.ok.inj (hs.loop.symm.trans hp.loop_eq), Except.ok.inj (ht.loop.symm.trans hq.loop_eq)]
    exact h.loop
  unfold lines
  rw [hbanner]
  exact (((((List.Sublist.refl _).append (hincludes.flatMap _)).append (hshared.flatMap _)).append
    hreset).append hsetup).append hloop

end Sketch

/-- A selection can be cut off after any of its features, and what is appended to it again takes no
line away from the sketch and moves none. -/
theorem Draft.lines_sublist_of_append {name : Value} {baud : Option Value} {xs ys : List Value}
    {index : Index} {clock : Clock} {time : Option Clock.Time} {t : Sketch}
    (h : (Draft.sketch ⟨name, baud, xs ++ ys⟩ index clock time).result = .ok t) :
    ∃ s, (Draft.sketch ⟨name, baud, xs⟩ index clock time).result = .ok s ∧
      (Text.lines s.text).Sublist (Text.lines t.text) := by
  obtain ⟨q, m, hq, hm, ht⟩ := sketch_ok h
  obtain ⟨p, hp, hprefix⟩ := Plan.resolve_append hq
  have hpc := Plan.resolve_consistent hp
  have hqc := Plan.resolve_consistent hq
  have hincluded : p.included = q.included :=
    (Plan.resolve_included hp).trans (Plan.resolve_included hq).symm
  obtain ⟨blocks, after, hblocks⟩ : ∃ blocks after,
      Plan.featureBlocks p.included p.features = (.ok blocks, after) := by
    obtain ⟨blocks, after, hblocks, -⟩ := ht.includes
    obtain ⟨fs, hfs⟩ := hprefix
    rw [← hfs, ← hincluded] at hblocks
    obtain ⟨first, middle, rest, hfirst, -⟩ := Plan.featureBlocks_append hblocks
    exact ⟨first, middle, hfirst⟩
  obtain ⟨s, hs⟩ := Sketch.ofPlan_of_featureBlocks hpc hblocks name baud m
  have hs' : (Draft.sketch ⟨name, baud, xs⟩ index clock time).result = .ok s :=
    sketch_of_ofPlan hp hm hs
  have hof : s.IsOf p ⟨name, baud, xs⟩ m := Sketch.isOf_of_ofPlan hs
  refine ⟨s, hs', ?_⟩
  rw [s.lines_text, t.lines_text]
  exact (hof.lines_sublist ht hpc hqc (hpc.grows hqc hprefix) hincluded rfl rfl).flatMap _

/-- The servo is joined by the first scheduler, the first digital input, the first feature with
reports and one more library. -/
theorem Draft.lines_sublist_of_append_shipped :
    ∃ s t, (Draft.sketch ⟨.text "Lamp", some (.int 57600), [.text "ServoFirmata"]⟩
        (Catalog.shippedIndex ⟨.root, []⟩) ⟨.moment .epoch, .utc⟩ none).result = .ok s ∧
      (Draft.sketch ⟨.text "Lamp", some (.int 57600), [.text "ServoFirmata"] ++
          [.text "FirmataScheduler", .text "DigitalInputFirmata", .text "I2CFirmata"]⟩
        (Catalog.shippedIndex ⟨.root, []⟩) ⟨.moment .epoch, .utc⟩ none).result = .ok t ∧
      (Text.lines s.text).Sublist (Text.lines t.text) := by
  obtain ⟨t, ht⟩ : ∃ t, (Draft.sketch ⟨.text "Lamp", some (.int 57600), [.text "ServoFirmata"] ++
      [.text "FirmataScheduler", .text "DigitalInputFirmata", .text "I2CFirmata"]⟩
      (Catalog.shippedIndex ⟨.root, []⟩) ⟨.moment .epoch, .utc⟩ none).result = .ok t := ⟨_, rfl⟩
  obtain ⟨s, hs, hsublist⟩ := lines_sublist_of_append ht
  exact ⟨s, t, hs, ht, hsublist⟩

end FirmataSketch
