import FirmataSketch.Proofs.Command.Invocation
import FirmataSketch.Proofs.Command.Run
import FirmataSketch.Proofs.Command.SelectionFile

/-! The two ways to ask for a sketch on the command line: settings in whatever order, and a selection
file. Settings pass on what they say, but two minus signs as a value are lost on the way. -/

namespace FirmataSketch

open Command (attachedValue)
open Disk (PathName)

variable {features : List String} {filename : String} {baud : Int}

namespace Selection

theorem mapM_attachedValue (features : List String) :
    (features.map attachedValue).mapM textOf? = if "--" ∈ features then none else some features := by
  induction features with
  | nil => rfl
  | cons name features ih =>
    rw [List.map_cons, List.mapM_cons, ih]
    by_cases hname : name = "--"
    · subst hname
      rw [if_pos List.mem_cons_self]
      rfl
    · have hvalue : textOf? (attachedValue name) = some name := by
        rw [attachedValue, if_neg hname]
        rfl
      have hmem : "--" ∈ name :: features ↔ "--" ∈ features := by
        simp [Ne.symm hname]
      rw [hvalue]
      by_cases h : "--" ∈ features
      · rw [if_pos h, if_pos (hmem.2 h)]
        rfl
      · rw [if_neg h, if_neg (mt hmem.1 h)]
        rfl

theorem make_attached (hfeatures : "--" ∉ features) (hfilename : filename ≠ "--") :
    make (.list (features.map attachedValue)) (attachedValue filename) (.int baud) =
      (ofParts features filename baud).mapError .selection := by
  have hmap : features.map attachedValue = features.map .text := by
    refine List.map_congr_left fun name hname => if_neg fun h => hfeatures ?_
    exact h ▸ hname
  have hvalue : attachedValue filename = .text filename := if_neg hfilename
  rw [hmap, hvalue, make_texts]

theorem make_dashes (h : "--" ∈ features ∨ filename = "--") :
    make (.list (features.map attachedValue)) (attachedValue filename) (.int baud) =
      .error (.selection
        (if "--" ∈ features then .featuresNotNames else .badFilename (.list []))) := by
  have hnames : featureNames (.list (features.map attachedValue)) =
      if "--" ∈ features then .error (.selection .featuresNotNames) else .ok features := by
    unfold featureNames
    simp only [Value.elements, mapM_attachedValue]
    by_cases hmem : "--" ∈ features
    · rw [if_pos hmem, if_pos hmem]
    · rw [if_neg hmem, if_neg hmem]
  -- the features are looked at before the file name
  unfold make
  rw [hnames]
  by_cases hmem : "--" ∈ features
  · rw [if_pos hmem, if_pos hmem]
    rfl
  · rw [if_neg hmem, if_neg hmem, h.resolve_left hmem]
    rfl

end Selection

namespace Command

variable {s : Surroundings} {xs : List Setting} {path : String}

theorem run_generate {args : List String} {o : GenerateOptions}
    (h : Invocation.ofArguments args = .ok ⟨false, .generate o⟩) :
    run s args = runGenerate s false o := by
  rw [run, h]
  rfl

theorem run_settings (hne : features ≠ []) (hb : baud.natAbs < 10 ^ Text.maxDigits)
    (hxs : AsksFor xs features filename baud) :
    run s ("generate" :: xs.map Setting.text) =
      outcome s (Selection.make (.list (features.map attachedValue)) (attachedValue filename)
        (.int baud)) := by
  have hmain : ∀ a ∈ xs.map Setting.text,
      a ≠ "--" ∧ ∃ r, readArgument Parser.main.options a = .ok r := by
    rw [List.forall_mem_map]
    exact fun x _ => ⟨x.text_ne, x.readArgument_main⟩
  have hinvocation := ofArguments_generate hmain (generate_run_settings (hxs.readable hb)) rfl
  rw [hxs.options hne] at hinvocation
  rw [run_generate hinvocation]
  exact runGenerate_stdout rfl rfl rfl fun e he => Selection.make_error he

/-- A file of the disk holds the record of a selection, and its path does not look like an option. -/
structure Holds (d : Disk) (path : String) (features : List String) (filename : String)
    (baud : Int) : Prop where
  plain : hasPrefix "-" path = false
  nonempty : path ≠ ""
  noNull : (PathName.ofText path).hasNull = false
  content : ∃ bytes, d.readFile (PathName.ofText path) = .ok bytes ∧
    Catalog.readDocument bytes = .ok (Selection.document features filename baud)

theorem Holds.openSelection (h : Holds s.disk path features filename baud) :
    openSelection s.disk { selection := some path, toStdout := true } =
      (Selection.ofParts features filename baud).mapError .selection := by
  obtain ⟨bytes, hread, hdocument⟩ := h.content
  exact openSelection_of_document h.noNull hread hdocument

theorem run_file (h : Holds s.disk path features filename baud) :
    run s ["generate", "--stdout", "--selection", path] =
      outcome s ((Selection.ofParts features filename baud).mapError .selection) := by
  have hdashes : path ≠ "--" := by
    rintro rfl
    exact absurd h.plain (by decide)
  have hmain : ∀ a ∈ ["--stdout", "--selection", path],
      a ≠ "--" ∧ ∃ r, readArgument Parser.main.options a = .ok r := by
    intro a ha
    simp only [List.mem_cons, List.not_mem_nil, or_false] at ha
    rcases ha with rfl | rfl | rfl
    · exact ⟨by decide, _, rfl⟩
    · exact ⟨by decide, _, rfl⟩
    · exact ⟨hdashes, _, readArgument_plain h.plain⟩
  have hinvocation :=
    ofArguments_generate hmain (generate_run_file h.plain h.nonempty) rfl
  rw [run_generate hinvocation]
  refine runGenerate_stdout rfl rfl h.openSelection fun e he => ?_
  rw [← Selection.make_texts] at he
  exact Selection.make_error he

end Command

end FirmataSketch
