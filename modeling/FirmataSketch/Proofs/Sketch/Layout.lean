import FirmataSketch.Proofs.Messages
import FirmataSketch.Proofs.Sketch.Banner
import FirmataSketch.Proofs.Sketch.Drawing
import FirmataSketch.Proofs.Sketch.NeededHeaders
import Mathlib.Data.List.Chain

/-! Layout: where the blank lines of a sketch are. Each part is put together from groups of lines that
do not start with a blank line and have no two of them in a row, and putting such groups together gives
such a group again; so nothing has to be known of which groups there are. -/

namespace FirmataSketch

open Text (IsLine isLine_append)

namespace Text

/-- The first line is not blank, and no two lines in a row are. -/
structure IsSpaced (ls : List String) : Prop where
  start : ls.head? ≠ some ""
  apart : ls.IsChain fun l l' => l ≠ "" ∨ l' ≠ ""

/-- The last line is blank, the one before it is not. -/
def IsClosed (ls : List String) : Prop := ∃ before l, l ≠ "" ∧ ls = before ++ [l, ""]

/-- The lines of a text that stands between other texts, apart from them by one blank line at its end. -/
structure IsSection (ls : List String) : Prop extends IsSpaced ls where
  closed : IsClosed ls

variable {ls ls' : List String}

instance (ls : List String) : Decidable (IsSpaced ls) :=
  decidable_of_iff (_ ∧ _) ⟨fun h => ⟨h.1, h.2⟩, fun h => ⟨h.1, h.2⟩⟩

namespace IsSpaced

theorem nil : IsSpaced [] := ⟨nofun, .nil⟩

theorem append (h : IsSpaced ls) (h' : IsSpaced ls') : IsSpaced (ls ++ ls') := by
  constructor
  · rw [List.head?_append]
    cases hhead : ls.head? with
    | none => exact h'.start
    | some l =>
      rw [Option.some_or, ← hhead]
      exact h.start
  · refine List.isChain_append.2 ⟨h.apart, h'.apart, fun l _ l' hl' => .inr ?_⟩
    rintro rfl
    exact h'.start hl'

theorem of_ne (h : ∀ l ∈ ls, l ≠ "") : IsSpaced ls := by
  induction ls with
  | nil => exact nil
  | cons l ls ih =>
    obtain ⟨hl, hls⟩ := List.forall_mem_cons.1 h
    refine ⟨by simpa using hl, ?_⟩
    exact List.isChain_cons.2 ⟨fun _ _ => .inl hl, (ih hls).apart⟩

theorem map {α : Type} {line : α → String} (h : ∀ a, line a ≠ "") (xs : List α) :
    IsSpaced (xs.map line) := of_ne (List.forall_mem_map.2 fun a _ => h a)

theorem flatMap {α : Type} {f : α → List String} {xs : List α} (h : ∀ a ∈ xs, IsSpaced (f a)) :
    IsSpaced (xs.flatMap f) := by
  induction xs with
  | nil => exact nil
  | cons a xs ih =>
    obtain ⟨ha, hxs⟩ := List.forall_mem_cons.1 h
    exact ha.append (ih hxs)

theorem ite {b : Bool} (h : IsSpaced ls) : IsSpaced (if b then ls else []) := by
  split
  · exact h
  · exact nil

end IsSpaced

theorem IsClosed.append_left (h : IsClosed ls') (ls : List String) : IsClosed (ls ++ ls') := by
  obtain ⟨before, l, hl, rfl⟩ := h
  exact ⟨ls ++ before, l, hl, (List.append_assoc ..).symm⟩

namespace IsSection

theorem of_last (ls : List String) {l : String} (h : ∀ l' ∈ ls, l' ≠ "") (hl : l ≠ "") :
    IsSection (ls ++ [l, ""]) where
  toIsSpaced := (IsSpaced.of_ne h).append ⟨by simpa using hl, by simpa using hl⟩
  closed := ⟨ls, l, hl, rfl⟩

theorem pair {l : String} (hl : l ≠ "") : IsSection [l, ""] := of_last [] (List.forall_mem_nil _) hl

theorem append_left (h : IsSection ls') (hls : IsSpaced ls) : IsSection (ls ++ ls') :=
  ⟨hls.append h.toIsSpaced, h.closed.append_left ls⟩

theorem ne_nil (h : IsSection ls) : ls ≠ [] := by
  obtain ⟨before, l, -, rfl⟩ := h.closed
  simp

end IsSection

end Text

open Text (IsSpaced IsSection)

theorem Feature.actLine_ne_empty (depth : Nat) (action : String) (f : Feature) :
    f.actLine depth action ≠ "" := by
  simp [actLine, Sketch.indented]

namespace Plan

open Sketch

variable {p : Plan}

theorem isSection_passBlock (users : List (Feature × List Dependency)) :
    IsSection (passBlock users).lines := by
  rw [lines_passBlock]
  have hregistry : IsSection ["#include <utility/FirmataExt.h>", "FirmataExt firmataExt;", ""] :=
    .of_last [_] (by decide) (by decide)
  refine hregistry.append_left (.flatMap fun u _ => ?_)
  have hheaders : IsSpaced (u.2.map fun d => "#include <" ++ d.header ++ ">") :=
    .map (fun d => by simp) _
  have hfeature : IsSection ["#include <" ++ u.1.header ++ ">",
      u.1.classText ++ " " ++ u.1.instanceText ++ ";", ""] :=
    .of_last [_] (by simp) (by simp)
  exact hheaders.append hfeature.toIsSpaced

/-- Without a handler for outputs and without reports nothing is shared. -/
theorem shared_cases (p : Plan) :
    (p.analogWrite = false ∧ p.reportingEnabled = false) ∧ p.shared = [] ∨
      (p.analogWrite = true ∨ p.reportingEnabled = true) ∧ IsSection p.shared.lines := by
  have hanalog : IsSection ["#include <utility/AnalogWrite.h>", ""] := .pair (by decide)
  have hreporting : IsSection ["#include <utility/FirmataReporting.h>",
      "FirmataReporting reporting;", ""] := .of_last [_] (by decide) (by decide)
  unfold shared
  cases p.analogWrite with
  | false =>
    cases p.reportingEnabled with
    | false => exact .inl ⟨⟨rfl, rfl⟩, rfl⟩
    | true => exact .inr ⟨.inr rfl, hreporting⟩
  | true =>
    cases p.reportingEnabled with
    | false => exact .inr ⟨.inl rfl, hanalog⟩
    | true => exact .inr ⟨.inl rfl, hreporting.append_left hanalog.toIsSpaced⟩

theorem isSection_resetBlock (p : Plan) : IsSection p.resetBlock.lines := by
  have hopen : IsSpaced ["void systemResetCallback()", "\x7b",
      "  for (byte i = 0; i < TOTAL_PINS; i++) \x7b", "    if (IS_PIN_ANALOG(i)) \x7b"] := by decide
  have hanalog : IsSpaced ["      Firmata.setPinMode(i, ANALOG);"] := by decide
  have helse : IsSpaced ["    \x7d else if (IS_PIN_DIGITAL(i)) \x7b"] := by decide
  have hdigital : IsSpaced ["      Firmata.setPinMode(i, OUTPUT);"] := by decide
  have hclose : IsSection ["    \x7d", "  \x7d", "  firmataExt.reset();", "\x7d", ""] :=
    .of_last [_, _, _] (by decide) (by decide)
  rw [lines_resetBlock]
  exact hclose.append_left (((hopen.append hanalog.ite).append helse).append hdigital.ite)

theorem isSection_setup (p : Plan) (baud : Option Value) : IsSection (p.setup baud).lines := by
  have hversion : IsSpaced ["void setup()", "\x7b",
      "  Firmata.setFirmwareVersion(FIRMATA_MAJOR_VERSION, FIRMATA_MINOR_VERSION);", ""] := by decide
  have hanalog : IsSpaced ["  Firmata.attach(ANALOG_MESSAGE, analogWriteCallback);", ""] := by decide
  have hfeatures : IsSpaced (p.features.map fun f => registerLine f.instanceText) :=
    .map (fun f => by simp [registerLine, registerOpen]) _
  have hreporting : IsSpaced ["  firmataExt.addFeature(reporting);", ""] := by decide
  have hreset : IsSpaced ["  Firmata.attach(SYSTEM_RESET, systemResetCallback);", ""] := by decide
  have hclose : IsSection ["  systemResetCallback();", "\x7d", ""] :=
    .of_last [_] (by decide) (by decide)
  rw [lines_setup]
  refine hclose.append_left
    (((((hversion.append hanalog.ite).append hfeatures).append hreporting.ite).append hreset).append ?_)
  cases baud with
  | none => exact .nil
  | some b => exact (IsSection.pair (by simp)).toIsSpaced

theorem isSpaced_drainLines (p : Plan) : IsSpaced (p.drainLines ++ [""]) := by
  unfold drainLines
  cases p.provider? .scheduler with
  | none => decide
  | some f =>
    have htasks : IsSection [f.actLine 2 "runTasks", "  \x7d", ""] :=
      .of_last [_] (by simp [Feature.actLine_ne_empty]) (by decide)
    rw [List.append_assoc]
    exact .append (by decide) htasks.toIsSpaced

theorem isSpaced_loop (p : Plan) : IsSpaced (Block.lines [.define "loop" p.loopCode]) := by
  have hreports : IsSection (("  if (reporting.elapsed()) \x7b" ::
      p.reporting.map (Feature.actLine 2 "report")) ++ ["  \x7d", ""]) := by
    refine .of_last _ (List.forall_mem_cons.2 ⟨by decide, ?_⟩) (by decide)
    exact List.forall_mem_map.2 fun f _ => f.actLine_ne_empty 2 "report"
  have hupdates : IsSpaced (p.update.map (Feature.actLine 1 "update")) :=
    .map (Feature.actLine_ne_empty 1 "update") _
  rw [lines_loopCode, List.append_assoc _ p.drainLines]
  have hopen : IsSpaced ["void loop()", "\x7b"] := by decide
  have hclose : IsSpaced ["\x7d"] := by decide
  refine ((((hopen.append ?_).append p.isSpaced_drainLines).append hreports.toIsSpaced.ite).append
    hupdates).append hclose
  cases p.provider? .digitalInput with
  | none => exact .nil
  | some f => exact (IsSection.pair (f.actLine_ne_empty 1 "report")).toIsSpaced

end Plan

namespace Sketch

theorem Block.text_ne_empty {b : Block} (h : b.lines ≠ []) : b.text ≠ "" := by
  obtain ⟨l, ls, hlines⟩ := List.exists_cons_of_ne_nil h
  intro hempty
  have hcons : b.text.toList = l.toList ++ '\n' :: (Text.unlines ls).toList := by
    rw [Block.text, hlines, Text.unlines_cons]
  rw [hempty] at hcons
  simp at hcons

end Sketch

/-- Only features that report, or drive an output through the common handler, bring in what is shared. -/
theorem Plan.Consistent.shared_text_ne_empty_iff {p : Plan} (h : p.Consistent) :
    p.shared.text ≠ "" ↔ ∃ f ∈ p.features, f.reporting = true ∨ f.capability = some .analogOutput ∨
      f.capability = some .servo := by
  have hasked : (∃ f ∈ p.features, f.reporting = true ∨ f.capability = some .analogOutput ∨
      f.capability = some .servo) ↔ p.reportingEnabled = true ∨ p.analogWrite = true := by
    rw [h.reportingEnabled_iff, h.analogWrite_iff, ← exists_or]
    simp only [and_or_left]
  rw [hasked]
  rcases p.shared_cases with ⟨⟨hanalog, hreporting⟩, hnil⟩ | ⟨hflags, hsection⟩
  · simp [hnil, hanalog, hreporting, Sketch.Block.text, Sketch.Block.lines, Text.unlines]
  · exact iff_of_true (Sketch.Block.text_ne_empty hsection.ne_nil) hflags.symm

namespace Sketch

variable {s : Sketch} {p : Plan} {d : Draft} {m : Clock.Moment}

/-- The parts before the loop. -/
def sections (s : Sketch) : List Block := [s.banner, s.includes, s.shared, s.reset, s.setup]

theorem lines_eq_flatMap (s : Sketch) : s.lines = (s.sections ++ [s.loop]).flatMap Block.lines := by
  simp [lines, sections]

/-- Where the blank lines of a sketch are. -/
structure IsLaidOut (s : Sketch) : Prop where
  sections : ∀ b ∈ s.sections, b.text ≠ "" → IsSection (Text.lines b.text)
  written : ∀ b ∈ [s.banner, s.includes, s.reset, s.setup] ++ [s.loop], b.text ≠ ""
  loop : ∃ before, s.loop.text = before ++ "\x7d\n"
  start : ∃ after, s.text = s.banner.text ++ after
  spaced : IsSpaced (Text.lines s.text)
  stop : ∃ before, s.text = before ++ "\x7d\n"

theorem isSection_bannerBlock (filename : Value) (m : Clock.Moment) :
    IsSection (bannerBlock filename m).lines := by
  have hinclude : IsSection ["#include <Firmata.h>", ""] := .pair (by decide)
  have hmargin (t : String) : " * " ++ t ≠ "" := by simp
  have hcomment : IsSection (["/*", " * " ++ (filename.display ++ Settings.extension ++
      " generated by FirmataBuilder"), " * " ++ m.stamp] ++ [" */", ""]) := by
    refine .of_last _ ?_ (by decide)
    exact List.forall_mem_cons.2 ⟨by decide, List.forall_mem_cons.2 ⟨hmargin _,
      List.forall_mem_singleton.2 (hmargin _)⟩⟩
  exact hinclude.append_left hcomment.toIsSpaced

namespace IsOf

theorem isLine_banner (h : s.IsOf p d m) (hname : IsLine d.filename.display)
    (hzone : IsLine m.zone.name) : ∀ l ∈ s.banner.lines, IsLine l := by
  have hlines : s.banner.lines = ["/*", " * " ++ (d.filename.display ++ Settings.extension ++
      " generated by FirmataBuilder"), " * " ++ m.stamp, " */", "", "#include <Firmata.h>", ""] := by
    rw [h.banner]
    rfl
  have htitle : IsLine (" * " ++ (d.filename.display ++ Settings.extension ++
      " generated by FirmataBuilder")) := by
    simp only [isLine_append, hname, true_and]
    decide
  have hstamp : IsLine (" * " ++ m.stamp) :=
    isLine_append.2 ⟨by decide, Clock.Moment.isLine_stamp hzone⟩
  rw [hlines]
  simp only [List.forall_mem_cons, htitle, hstamp, true_and]
  decide

theorem loop_eq (h : s.IsOf p d m) (hp : p.Consistent) : s.loop = [.define "loop" p.loopCode] :=
  Except.ok.inj (h.loop.symm.trans hp.loop_eq)

theorem isSection_always (h : s.IsOf p d m) (hincludable : ∀ f ∈ p.features, f.Includable) :
    ∀ b ∈ [s.banner, s.includes, s.reset, s.setup], IsSection b.lines := by
  have hbanner : IsSection s.banner.lines := h.banner ▸ isSection_bannerBlock d.filename m
  have hincludes : IsSection s.includes.lines :=
    h.includes_eq_passBlock hincludable ▸ Plan.isSection_passBlock _
  have hreset : IsSection s.reset.lines := h.reset ▸ p.isSection_resetBlock
  have hsetup : IsSection s.setup.lines := h.setup ▸ p.isSection_setup d.baud
  simp only [List.forall_mem_cons, List.not_mem_nil, false_imp_iff, implies_true, and_true]
  exact ⟨hbanner, hincludes, hreset, hsetup⟩

theorem isSection_of_mem (h : s.IsOf p d m) (hincludable : ∀ f ∈ p.features, f.Includable) :
    ∀ b ∈ s.sections, b = [] ∨ IsSection b.lines := by
  intro b hb
  by_cases hshared : b = s.shared
  · rw [hshared, h.shared]
    exact p.shared_cases.imp And.right And.right
  · refine .inr (h.isSection_always hincludable b ?_)
    simp only [sections, List.mem_cons, List.not_mem_nil, or_false, hshared, false_or] at hb ⊢
    exact hb

/-- The parts of a sketch, put together from texts without line ends, have only single lines. -/
theorem isLine_lines (h : s.IsOf p d m) (hp : p.Consistent)
    (hf : ∀ f ∈ p.features, ∀ t ∈ f.texts, IsLine t) (hname : IsLine d.filename.display)
    (hbaud : ∀ b ∈ d.baud, IsLine b.display) (hzone : IsLine m.zone.name) :
    ∀ b ∈ s.sections ++ [s.loop], ∀ l ∈ b.lines, IsLine l := by
  have hhead := h.isLine_head hf
  rw [head, Block.lines_append, List.forall_mem_append] at hhead
  have hreset : ∀ l ∈ s.reset.lines, IsLine l := by
    rw [h.reset]
    unfold Plan.resetBlock
    cases p.has .analogInput <;> cases p.has .digitalOutput <;> decide
  have hsetup : ∀ l ∈ s.setup.lines, IsLine l := h.setup ▸ Plan.isLine_setup hf hbaud
  have hloop : ∀ l ∈ s.loop.lines, IsLine l := h.loop_eq hp ▸ hp.isLine_loop hf
  simp only [sections, List.cons_append, List.nil_append, List.forall_mem_cons, List.not_mem_nil,
    false_imp_iff, implies_true, and_true]
  exact ⟨h.isLine_banner hname hzone, hhead.1, hhead.2, hreset, hsetup, hloop⟩

/-- A sketch whose lines are single lines is laid out. -/
theorem isLaidOut (h : s.IsOf p d m) (hp : p.Consistent) (hincludable : ∀ f ∈ p.features, f.Includable)
    (hlines : ∀ b ∈ s.sections ++ [s.loop], ∀ l ∈ b.lines, IsLine l) : s.IsLaidOut := by
  have hsections := h.isSection_of_mem hincludable
  have hloop : IsSpaced s.loop.lines := h.loop_eq hp ▸ p.isSpaced_loop
  obtain ⟨before, hend⟩ : ∃ before, s.loop.lines = before ++ ["\x7d"] := by
    rw [h.loop_eq hp, Plan.lines_loopCode]
    exact ⟨_, rfl⟩
  have hbrace : Text.unlines ["\x7d"] = "\x7d\n" := by decide
  constructor
  case sections =>
    intro b hb htext
    rw [Block.lines_text (hlines b (List.mem_append_left _ hb))]
    exact (hsections b hb).resolve_left fun hnil => htext (hnil ▸ rfl)
  case written =>
    have hloopFilled : s.loop.lines ≠ [] := by simp [hend]
    refine List.forall_mem_append.2 ⟨fun b hb => ?_, List.forall_mem_singleton.2 ?_⟩
    · exact Block.text_ne_empty (h.isSection_always hincludable b hb).ne_nil
    · exact Block.text_ne_empty hloopFilled
  case loop => exact ⟨Text.unlines before, by rw [Block.text, hend, Text.unlines_append, hbrace]⟩
  case start => exact ⟨s.head.text ++ s.code.text, by rw [s.text_eq, String.append_assoc]⟩
  case spaced =>
    have hsingle : Text.lines s.text = s.lines := by
      refine Text.lines_unlines fun l hl => ?_
      rw [lines_eq_flatMap] at hl
      obtain ⟨b, hb, hl⟩ := List.mem_flatMap.1 hl
      exact hlines b hb l hl
    rw [hsingle, lines_eq_flatMap]
    refine .flatMap (List.forall_mem_append.2 ⟨fun b hb => ?_, List.forall_mem_singleton.2 hloop⟩)
    rcases hsections b hb with rfl | hsection
    · exact .nil
    · exact hsection.toIsSpaced
  case stop =>
    rw [text, lines, hend, ← List.append_assoc, Text.unlines_append, hbrace]
    exact ⟨_, rfl⟩

end IsOf

end Sketch

end FirmataSketch
