import FirmataSketch.Proofs.Sketch.Assembly
import FirmataSketch.Proofs.Sketch.BlockLines
import FirmataSketch.Proofs.Sketch.LoopCode

/-! Lines of plans: the lines that the blocks of a plan have. They are the lines of the generated
text if the texts of the features are single lines. -/

namespace FirmataSketch

open Text (IsLine isLine_append isLine_of_all isLine_spaces)

namespace Feature

open Sketch

/-- The texts of a feature that stand in the code. -/
def texts (f : Feature) : List String :=
  f.classText :: f.instanceText :: f.header :: f.dependencies.map Dependency.header

def actLine (depth : Nat) (action : String) (f : Feature) : String :=
  indented depth (f.instanceText ++ "." ++ action ++ "();")

theorem isLine_actLine {f : Feature} (h : ∀ t ∈ f.texts, IsLine t) {action : String}
    (ha : IsLine action) (depth : Nat) : IsLine (f.actLine depth action) := by
  have hinstance : IsLine f.instanceText := h _ (by simp [texts])
  simp only [actLine, indented, isLine_append]
  exact ⟨isLine_spaces _, ⟨⟨hinstance, by decide⟩, ha⟩, by decide⟩

end Feature

namespace Plan

open Sketch

theorem mem_featureBlocks {included included' : List Value} {fs : List Feature} {b : Block}
    (h : featureBlocks included fs = (.ok b, included')) {i : Item} (hi : i ∈ b) :
    ∃ f ∈ fs, i ∈ featureBlock f f.dependencies := by
  obtain ⟨freshes, hsub, rfl⟩ := featureBlocks_ok h
  clear h
  induction hsub with
  | nil => cases hi
  | @cons f fresh fs freshes hfresh hsub ih =>
    rw [List.zipWith_cons_cons, List.flatten_cons, List.mem_append] at hi
    rcases hi with hi | hi
    · refine ⟨f, List.mem_cons_self, ?_⟩
      rw [featureBlock, List.mem_append] at hi ⊢
      exact hi.imp_left fun hd => (hfresh.map _).subset hd
    · obtain ⟨g, hg, hi⟩ := ih hi
      exact ⟨g, List.mem_cons_of_mem f hg, hi⟩

theorem lines_featureBlock (f : Feature) (fresh : List Dependency) :
    (featureBlock f fresh).lines =
      fresh.map (fun d => "#include <" ++ d.header ++ ">") ++
        ["#include <" ++ f.header ++ ">", f.classText ++ " " ++ f.instanceText ++ ";", ""] := by
  have hheaders : Block.lines (fresh.map fun d => .include d.header) =
      fresh.map fun d => "#include <" ++ d.header ++ ">" := by
    rw [Block.lines, List.flatMap_map]
    exact List.flatMap_pure_eq_map _ _
  rw [featureBlock, Block.lines_append, hheaders]
  rfl

theorem isLine_featureBlock {f : Feature} (h : ∀ t ∈ f.texts, IsLine t) :
    ∀ l ∈ (featureBlock f f.dependencies).lines, IsLine l := by
  intro l hl
  have hclass : IsLine f.classText := h _ (by simp [Feature.texts])
  have hinstance : IsLine f.instanceText := h _ (by simp [Feature.texts])
  have hheader : IsLine f.header := h _ (by simp [Feature.texts])
  have hheaders : ∀ d ∈ f.dependencies, IsLine d.header := by
    intro d hd
    exact h _ (by simp [Feature.texts, List.mem_map_of_mem hd])
  simp only [lines_featureBlock, List.mem_append, List.mem_map, List.mem_cons, List.not_mem_nil,
    or_false] at hl
  rcases hl with ⟨d, hd, rfl⟩ | rfl | rfl | rfl
  · exact isLine_append.2 ⟨isLine_append.2 ⟨by decide, hheaders d hd⟩, by decide⟩
  · exact isLine_append.2 ⟨isLine_append.2 ⟨by decide, hheader⟩, by decide⟩
  · simp only [isLine_append]
    exact ⟨⟨⟨hclass, by decide⟩, hinstance⟩, by decide⟩
  · decide

/-- What a line that registers an instance starts with. -/
def registerOpen : String := "  firmataExt.addFeature("

def registerLine (instanceName : String) : String := registerOpen ++ instanceName ++ ");"

theorem lines_register (instanceName : String) :
    (register instanceName).lines 1 = [registerLine instanceName] := by
  have hopen : indented 1 (registry ++ "." ++ "addFeature" ++ "(") = registerOpen := by
    decide
  rw [register, Stmt.lines, String.intercalate_singleton, indented_append, indented_append, hopen,
    registerLine]

theorem lines_act (depth : Nat) (action : String) (f : Feature) :
    (Stmt.call f.instanceText action []).lines depth = [f.actLine depth action] := by
  have hclose (s : String) : s ++ "(" ++ String.intercalate ", " [] ++ ");" = s ++ "();" := by
    rw [String.intercalate_nil, String.append_empty, String.append_assoc]
    rfl
  rw [Stmt.lines, hclose, Feature.actLine]

theorem lines_setup (p : Plan) (baud : Option Value) :
    (p.setup baud).lines =
      ["void setup()", "\x7b",
        "  Firmata.setFirmwareVersion(FIRMATA_MAJOR_VERSION, FIRMATA_MINOR_VERSION);", ""] ++
      (if p.analogWrite then ["  Firmata.attach(ANALOG_MESSAGE, analogWriteCallback);", ""]
        else []) ++
      p.features.map (fun f => registerLine f.instanceText) ++
      (if p.reportingEnabled then ["  firmataExt.addFeature(reporting);", ""] else []) ++
      ["  Firmata.attach(SYSTEM_RESET, systemResetCallback);", ""] ++
      (match baud with
        | some b => ["  Firmata.begin(" ++ b.display ++ ");", ""]
        | none => []) ++
      ["  systemResetCallback();", "\x7d", ""] := by
  -- statements without open texts are written out by computation, the others by rewriting
  have hversion : Stmt.linesAll 1
      [.call protocol "setFirmwareVersion" ["FIRMATA_MAJOR_VERSION", "FIRMATA_MINOR_VERSION"],
        .blank] =
      ["  Firmata.setFirmwareVersion(FIRMATA_MAJOR_VERSION, FIRMATA_MINOR_VERSION);", ""] := by
    decide
  have hanalog : Stmt.linesAll 1
      [.call protocol "attach" ["ANALOG_MESSAGE", "analogWriteCallback"], .blank] =
      ["  Firmata.attach(ANALOG_MESSAGE, analogWriteCallback);", ""] := by decide
  have hfeatures := Stmt.linesAll_map (fun f : Feature => lines_register f.instanceText) p.features
  have hreporting : Stmt.linesAll 1 [register Sketch.reporting, .blank] =
      ["  firmataExt.addFeature(reporting);", ""] := by decide
  have hreset : Stmt.linesAll 1
      [.call protocol "attach" ["SYSTEM_RESET", resetCallback], .blank] =
      ["  Firmata.attach(SYSTEM_RESET, systemResetCallback);", ""] := by decide
  have hbegin (b : Value) : Stmt.linesAll 1 [.call protocol "begin" [b.display], .blank] =
      ["  Firmata.begin(" ++ b.display ++ ");", ""] := by
    have hopen : indented 1 (protocol ++ "." ++ "begin" ++ "(") = "  Firmata.begin(" := by
      decide
    rw [Stmt.linesAll, Stmt.lines, String.intercalate_singleton, indented_append, indented_append,
      hopen]
    rfl
  have hlast : Stmt.linesAll 1 [.invoke resetCallback] = ["  systemResetCallback();"] := by
    decide
  have hnil : Stmt.linesAll 1 [] = [] := rfl
  unfold setup
  simp only [Block.lines, List.flatMap_cons, List.flatMap_nil, Item.lines, Stmt.linesAll_append,
    hversion, hfeatures, hreset, hlast, apply_ite (Stmt.linesAll 1), hanalog, hreporting, hnil]
  cases baud with
  | none => simp [hnil]
  | some b => simp [hbegin]

/-- A line inside a function. Functions have no result, so their first lines begin otherwise. -/
def IsInner (l : String) : Prop := IsLine l ∧ l.toList.head? ≠ some 'v'

instance (l : String) : Decidable (IsInner l) := inferInstanceAs (Decidable (_ ∧ _))

theorem isInner_of_all {ls : List String} (h : (ls.all fun l => decide (IsInner l)) = true)
    {l : String} (hl : l ∈ ls) : IsInner l := of_decide_eq_true (List.all_eq_true.1 h l hl)

/-- After its first line the set-up has fixed lines and registers the features. -/
theorem lines_setup_cases (p : Plan) {baud : Option Value} (hb : ∀ b ∈ baud, IsLine b.display) :
    ∃ body, (p.setup baud).lines = "void setup()" :: body ∧
      ∀ l ∈ body, IsInner l ∨ ∃ f ∈ p.features, l = registerLine f.instanceText := by
  rw [lines_setup]
  simp only [List.append_assoc]
  rw [List.cons_append]
  refine ⟨_, rfl, fun l hl => ?_⟩
  simp only [List.mem_append] at hl
  rcases hl with hl | hl | hl | hl | hl | hl | hl
  · exact .inl (isInner_of_all (by decide) hl)
  · split at hl
    · exact .inl (isInner_of_all (by decide) hl)
    · cases hl
  · obtain ⟨f, hmem, rfl⟩ := List.mem_map.1 hl
    exact .inr ⟨f, hmem, rfl⟩
  · split at hl
    · exact .inl (isInner_of_all (by decide) hl)
    · cases hl
  · exact .inl (isInner_of_all (by decide) hl)
  · cases baud with
    | none => cases hl
    | some b =>
      rcases List.mem_cons.1 hl with rfl | hl
      · refine .inl ⟨?_, ?_⟩
        · exact isLine_append.2 ⟨isLine_append.2 ⟨by decide, hb b rfl⟩, by decide⟩
        · simp
      · exact .inl (isInner_of_all (by decide) hl)
  · exact .inl (isInner_of_all (by decide) hl)

theorem isLine_setup {p : Plan} (hf : ∀ f ∈ p.features, ∀ t ∈ f.texts, IsLine t)
    {baud : Option Value} (hb : ∀ b ∈ baud, IsLine b.display) :
    ∀ l ∈ (p.setup baud).lines, IsLine l := by
  obtain ⟨body, hlines, hbody⟩ := p.lines_setup_cases hb
  rw [hlines, List.forall_mem_cons]
  refine ⟨by decide, fun l hl => ?_⟩
  rcases hbody l hl with hinner | ⟨f, hmem, rfl⟩
  · exact hinner.1
  · have hinstance : IsLine f.instanceText := hf f hmem _ (by simp [Feature.texts])
    exact isLine_append.2 ⟨isLine_append.2 ⟨by decide, hinstance⟩, by decide⟩

def drainLines (p : Plan) : List String :=
  match p.provider? .scheduler with
  | none => ["  while(Firmata.available()) \x7b", "    Firmata.processInput();", "  \x7d"]
  | some f =>
    ["  while(Firmata.available()) \x7b", "    Firmata.processInput();",
      "    if (!Firmata.isParsingMessage()) \x7b", "      break;", "    \x7d", "  \x7d",
      "  if (!Firmata.isParsingMessage()) \x7b"] ++ [f.actLine 2 "runTasks", "  \x7d"]

theorem linesAll_drainCode (p : Plan) : Stmt.linesAll 1 p.drainCode = p.drainLines := by
  unfold drainCode drainLines
  cases p.provider? .scheduler with
  | none => decide
  | some f =>
    have hwhile : Stmt.lines 1 (.loopWhile available
        [.call protocol "processInput" [], .when betweenMessages [.stop]]) =
        ["  while(Firmata.available()) \x7b", "    Firmata.processInput();",
          "    if (!Firmata.isParsingMessage()) \x7b", "      break;", "    \x7d", "  \x7d"] := by
      decide
    have hopen : indented 1 ("if (" ++ betweenMessages.text ++ ") \x7b") =
        "  if (!Firmata.isParsingMessage()) \x7b" := by decide
    have hclose : indented 1 "\x7d" = "  \x7d" := by decide
    have hwhen : Stmt.lines 1 (.when betweenMessages [.call f.instanceText "runTasks" []]) =
        ["  if (!Firmata.isParsingMessage()) \x7b", f.actLine 2 "runTasks", "  \x7d"] := by
      rw [Stmt.lines, Stmt.linesAll, lines_act, hopen, hclose]
      rfl
    rw [Stmt.linesAll, Stmt.linesAll, hwhile, hwhen]
    rfl

theorem lines_loopCode (p : Plan) :
    Block.lines [.define "loop" p.loopCode] =
      ["void loop()", "\x7b"] ++
      (match p.provider? .digitalInput with
        | some f => [f.actLine 1 "report", ""]
        | none => []) ++
      p.drainLines ++ [""] ++
      (if p.reportingEnabled then
        "  if (reporting.elapsed()) \x7b" :: (p.reporting.map (Feature.actLine 2 "report") ++
          ["  \x7d", ""])
        else []) ++
      p.update.map (Feature.actLine 1 "update") ++ ["\x7d"] := by
  have hnil : Stmt.linesAll 1 [] = [] := rfl
  have hblank : Stmt.linesAll 1 [.blank] = [""] := rfl
  have hdigital (f : Feature) : Stmt.linesAll 1 [.call f.instanceText "report" [], .blank] =
      [f.actLine 1 "report", ""] := by
    rw [Stmt.linesAll, lines_act, hblank]
    rfl
  have hopen : indented 1 ("if (" ++ Test.text ⟨Sketch.reporting, "elapsed", false⟩ ++ ") \x7b") =
      "  if (reporting.elapsed()) \x7b" := by decide
  have hclose : indented 1 "\x7d" = "  \x7d" := by decide
  have hreporting : Stmt.linesAll 1 [.when ⟨Sketch.reporting, "elapsed", false⟩
      (p.reporting.map fun f => .call f.instanceText "report" []), .blank] =
      "  if (reporting.elapsed()) \x7b" :: (p.reporting.map (Feature.actLine 2 "report") ++
        ["  \x7d", ""]) := by
    rw [Stmt.linesAll, hblank, Stmt.lines, Stmt.linesAll_map (lines_act 2 "report"), hopen, hclose]
    simp
  have hupdate := Stmt.linesAll_map (lines_act 1 "update") p.update
  unfold loopCode
  simp only [Block.lines, List.flatMap_cons, List.flatMap_nil, Item.lines, Stmt.linesAll_append,
    linesAll_drainCode, hblank, apply_ite (Stmt.linesAll 1), hreporting, hupdate, hnil]
  cases p.provider? .digitalInput with
  | none => simp [hnil]
  | some f => simp [hdigital]

theorem Consistent.lines_loop_cases {p : Plan} (h : p.Consistent) :
    ∃ body, Block.lines [.define "loop" p.loopCode] = "void loop()" :: body ∧
      ∀ l ∈ body, IsInner l ∨ ∃ f ∈ p.features, ∃ depth, ∃ action ∈ ["report", "runTasks", "update"],
        l = f.actLine (depth + 1) action := by
  have hacts {fs : List Feature} (hfs : fs ⊆ p.features) (depth : Nat) {action : String}
      (ha : action ∈ ["report", "runTasks", "update"]) {l : String}
      (hl : l ∈ fs.map (Feature.actLine (depth + 1) action)) :
      ∃ f ∈ p.features, ∃ depth, ∃ action ∈ ["report", "runTasks", "update"],
        l = f.actLine (depth + 1) action := by
    obtain ⟨f, hmem, rfl⟩ := List.mem_map.1 hl
    exact ⟨f, hfs hmem, depth, action, ha, rfl⟩
  rw [lines_loopCode]
  simp only [List.append_assoc]
  rw [List.cons_append]
  refine ⟨_, rfl, fun l hl => ?_⟩
  simp only [List.mem_append] at hl
  rcases hl with hl | hl | hl | hl | hl | hl | hl
  · exact .inl (isInner_of_all (by decide) hl)
  · cases hp : p.provider? .digitalInput with
    | none => rw [hp] at hl; cases hl
    | some f =>
      rw [hp] at hl
      rcases List.mem_cons.1 hl with rfl | hl
      · exact .inr ⟨f, mem_of_provider? hp, 0, "report", by decide, rfl⟩
      · exact .inl (isInner_of_all (by decide) hl)
  · unfold drainLines at hl
    cases hp : p.provider? .scheduler with
    | none =>
      rw [hp] at hl
      exact .inl (isInner_of_all (by decide) hl)
    | some f =>
      rw [hp] at hl
      rcases List.mem_append.1 hl with hl | hl
      · exact .inl (isInner_of_all (by decide) hl)
      · rcases List.mem_cons.1 hl with rfl | hl
        · exact .inr ⟨f, mem_of_provider? hp, 1, "runTasks", by decide, rfl⟩
        · exact .inl (isInner_of_all (by decide) hl)
  · exact .inl (isInner_of_all (by decide) hl)
  · split at hl
    · rcases List.mem_cons.1 hl with rfl | hl
      · exact .inl (by decide)
      · rcases List.mem_append.1 hl with hl | hl
        · exact .inr (hacts h.reporting_subset 1 (by decide) hl)
        · exact .inl (isInner_of_all (by decide) hl)
    · cases hl
  · exact .inr (hacts h.update_subset 0 (by decide) hl)
  · exact .inl (isInner_of_all (by decide) hl)

theorem Consistent.isLine_loop {p : Plan} (h : p.Consistent)
    (hf : ∀ f ∈ p.features, ∀ t ∈ f.texts, IsLine t) :
    ∀ l ∈ Block.lines [.define "loop" p.loopCode], IsLine l := by
  obtain ⟨body, hlines, hbody⟩ := h.lines_loop_cases
  rw [hlines, List.forall_mem_cons]
  refine ⟨by decide, fun l hl => ?_⟩
  rcases hbody l hl with hinner | ⟨f, hmem, depth, action, haction, rfl⟩
  · exact hinner.1
  · exact Feature.isLine_actLine (hf f hmem) (isLine_of_all (by decide) haction) _

end Plan

end FirmataSketch
