import FirmataSketch.Proofs.Command.Generate
import FirmataSketch.Proofs.Disk.SketchPath
import FirmataSketch.Proofs.Web.Answer
import FirmataSketch.Value.Equality

/-! Front ends: five ways to ask for a sketch from the shipped catalog. Settings on the command line,
a selection file, the two web routes and a writer give the same sketch under the same name, or the
same reason why there is none. Only settings do not pass two minus signs on as a value; no selection
with them has a sketch, but then the reason is another one. -/

namespace FirmataSketch

open Command (Setting AsksFor Holds Surroundings printed stopped outcome)
open Disk (PathName)
open Outcome (bind_ok bind_error mapError_ok mapError_error)

variable {features : List String} {filename : String} {baud : Int} {s : Surroundings}
  {xs : List Setting} {path : String}

/-- What a writer that only records is asked to store. -/
def recorded (home : PathName) (clock : Clock) (features : List String) (filename : String)
    (baud : Int) : Except Failure (Value × String) := do
  let s ← Selection.make (.list (features.map .text)) (.text filename) (.int baud)
  s.draft.handTo (Catalog.shippedIndex home) clock none fun name text => .ok (name, text)

theorem recorded_eq (home : PathName) (clock : Clock) (features : List String) (filename : String)
    (baud : Int) :
    recorded home clock features filename baud =
      (Selection.drawn home clock
        ((Selection.ofParts features filename baud).mapError .selection)).map
          fun p => (.text p.1.filename, p.2.text) := by
  unfold recorded Selection.drawn
  rw [Selection.make_texts]
  cases (Selection.ofParts features filename baud).mapError Failure.selection with
  | error e => rfl
  | ok s =>
    simp only [bind, Except.bind, Draft.handTo, Draft.generate_result]
    cases (s.draft.sketch (Catalog.shippedIndex home) clock none).result <;> rfl

/-- What the ways to ask for a sketch come to. -/
structure Answers where
  settings : Command.Report
  file : Command.Report
  inline : Except Failure Web.Answer
  download : Except Failure Web.Answer
  recorded : Except Failure (Value × String)

/-- Asks for a sketch in all ways: by settings, by the path of a selection file, and by the parts of
a selection. -/
def ask (s : Surroundings) (xs : List Setting) (path : String) (features : List String)
    (filename : String) (baud : Int) : Answers where
  settings := Command.run s ("generate" :: xs.map Setting.text)
  file := Command.run s ["generate", "--stdout", "--selection", path]
  inline := (Web.respond (Catalog.shipped s.home) s.clock (Web.fieldsOf features filename baud)
    .generate).result
  download := (Web.respond (Catalog.shipped s.home) s.clock (Web.fieldsOf features filename baud)
    .download).result
  recorded := recorded s.home s.clock features filename baud

namespace Answers

/-- All ways give one sketch. -/
structure Give (a : Answers) (s : Surroundings) (name : Value) (fullName text : String) :
    Prop where
  settings : a.settings = printed s text
  file : a.file = printed s text
  inline : a.inline =
    .ok (.record (.record [("filename", .text fullName), ("sketch", .text text)]))
  download : a.download = .ok (.attachment fullName text)
  recorded : a.recorded = .ok (name, text)

/-- No way gives a sketch, and all but the settings tell the same reason. The settings do so unless
one of them has two minus signs as its value. -/
structure Refuse (a : Answers) (s : Surroundings) (features : List String) (filename : String)
    (e : Failure) : Prop where
  file : a.file = stopped s e
  inline : a.inline = Web.refusal e
  download : a.download = Web.refusal e
  recorded : a.recorded = .error e
  settings : "--" ∉ features → filename ≠ "--" → a.settings = stopped s e
  dashes : "--" ∈ features ∨ filename = "--" → e.isOwn = true ∧ a.settings = stopped s
    (.selection (if "--" ∈ features then .featuresNotNames else .badFilename (.list [])))

end Answers

/-- A selection and its sketch go by the file name wherever it is put together. -/
structure Selection.GoesBy (selection : Selection) (filename text : String) : Prop where
  made : selection.sketchFilename = filename ++ Settings.extension
  drafted : selection.draft.sketchFilename = filename ++ Settings.extension
  banner : ∃ rest, text = Text.unlines
    ["/*", " * " ++ (filename ++ Settings.extension) ++ " generated by FirmataBuilder"] ++ rest
  stored : ∀ folder, Disk.sketchPath folder (.text filename) =
    folder.child (filename ++ Settings.extension)

namespace Selection

theorem drawn_ok {home : PathName} {clock : Clock} {s : Selection} {sketch : Sketch}
    (h : drawn home clock ((ofParts features filename baud).mapError .selection) = .ok (s, sketch)) :
    ofParts features filename baud = .ok s ∧
      (s.draft.sketch (Catalog.shippedIndex home) clock none).result = .ok sketch := by
  obtain ⟨s', hs', h⟩ := bind_ok h
  obtain ⟨sketch', hsketch, h⟩ := bind_ok h
  cases h
  exact ⟨mapError_ok hs', hsketch⟩

theorem drawn_dashes (home : PathName) (clock : Clock) (baud : Int)
    (h : "--" ∈ features ∨ filename = "--") :
    ∃ e, drawn home clock ((ofParts features filename baud).mapError .selection) = .error e ∧
      e.isOwn = true := by
  cases hs : ofParts features filename baud with
  | error f => exact ⟨.selection f, rfl, rfl⟩
  | ok s =>
    obtain ⟨hword, -, hfeatures⟩ := ofParts_ok hs
    -- minus signs are no word, and no feature of the shipped catalog is called so
    have hfilename : filename ≠ "--" := by
      rintro rfl
      exact absurd hword (by decide)
    have hmissing : (Catalog.shippedIndex home).get? (.text "--") = none := rfl
    have hmem : "--" ∈ s.features := hfeatures ▸ h.resolve_right hfilename
    obtain ⟨e, he, hown⟩ := Plan.resolve_of_missing hmem hmissing
    have hsketch : s.draft.sketch (Catalog.shippedIndex home) clock none = ⟨[], .error e⟩ :=
      Draft.sketch_of_unresolved he
    refine ⟨e, ?_, hown⟩
    unfold drawn
    simp only [Except.mapError, bind, Except.bind, hsketch]

theorem goesBy_of_drawn {home : PathName} {clock : Clock} {s : Selection} {sketch : Sketch}
    (h : drawn home clock ((ofParts features filename baud).mapError .selection) = .ok (s, sketch)) :
    s.GoesBy filename sketch.text := by
  obtain ⟨hmade, hsketch⟩ := drawn_ok h
  obtain ⟨hword, hname, -⟩ := ofParts_ok hmade
  obtain ⟨p, m, -, -, hof⟩ := Draft.sketch_ok hsketch
  have hdraft : s.draft.sketchFilename = filename ++ Settings.extension := by
    rw [← hname]
    rfl
  refine ⟨hdraft, hdraft, ?_, Disk.sketchPath_of_word hword⟩
  rw [← hdraft]
  exact hof.text_start

/-- A clock that can show the time leaves only the builder's own reasons. -/
theorem isOwn_of_drawn_error {home : PathName} {clock : Clock} {m : Clock.Moment} {e : Failure}
    (hm : clock.momentOf none = .ok m)
    (h : drawn home clock ((ofParts features filename baud).mapError .selection) = .error e) :
    e.isOwn = true := by
  rcases bind_error h with hmade | ⟨s, -, h⟩
  · obtain ⟨f, -, rfl⟩ := mapError_error hmade
    rfl
  · rcases bind_error h with hsketch | ⟨sketch, -, h⟩
    · exact Draft.isOwn_of_sketch_error rfl (Catalog.shippedIndex_includable home) hm hsketch
    · cases h

end Selection

section

variable (hne : features ≠ []) (hb : baud.natAbs < 10 ^ Text.maxDigits)
  (hxs : AsksFor xs features filename baud) (hfile : Holds s.disk path features filename baud)

include hne hb hxs hfile

theorem give_of_drawn {selection : Selection} {sketch : Sketch}
    (h : Selection.drawn s.home s.clock
      ((Selection.ofParts features filename baud).mapError .selection) = .ok (selection, sketch)) :
    (ask s xs path features filename baud).Give s (.text filename)
      (filename ++ Settings.extension) sketch.text := by
  have hsettings := Command.run_settings (s := s) hne hb hxs
  -- there is a sketch, so no value was lost on the way
  have hnone : ¬("--" ∈ features ∨ filename = "--") := by
    intro hdashes
    obtain ⟨e, he, -⟩ := Selection.drawn_dashes s.home s.clock baud hdashes
    rw [h] at he
    cases he
  rw [not_or] at hnone
  rw [Selection.make_attached hnone.1 hnone.2, outcome, h] at hsettings
  have hpath := Command.run_file hfile
  rw [outcome, h] at hpath
  obtain ⟨-, hname, -⟩ := Selection.ofParts_ok (Selection.drawn_ok h).1
  have hfull : selection.sketchFilename = filename ++ Settings.extension := by
    rw [Selection.sketchFilename, hname]
  refine ⟨hsettings, hpath, ?_, ?_, ?_⟩
  · rw [← hfull]
    exact (Web.answerSketch_result ..).trans (by rw [h])
  · rw [← hfull]
    exact (Web.answerSketch_result ..).trans (by rw [h])
  · exact (recorded_eq ..).trans (by rw [h, ← hname]; rfl)

theorem refuse_of_drawn {e : Failure}
    (h : Selection.drawn s.home s.clock
      ((Selection.ofParts features filename baud).mapError .selection) = .error e) :
    (ask s xs path features filename baud).Refuse s features filename e := by
  have hsettings := Command.run_settings (s := s) hne hb hxs
  have hpath := Command.run_file hfile
  rw [outcome, h] at hpath
  refine ⟨hpath, ?_, ?_, ?_, fun hfeatures hfilename => ?_, fun hdashes => ?_⟩
  · exact (Web.answerSketch_result ..).trans (by rw [h])
  · exact (Web.answerSketch_result ..).trans (by rw [h])
  · exact (recorded_eq ..).trans (by rw [h]; rfl)
  · rw [Selection.make_attached hfeatures hfilename, outcome, h] at hsettings
    exact hsettings
  · obtain ⟨e', he', hown⟩ := Selection.drawn_dashes s.home s.clock baud hdashes
    rw [h] at he'
    cases he'
    rw [Selection.make_dashes hdashes] at hsettings
    exact ⟨hown, hsettings⟩

end

/-- All ways to ask for a sketch agree. If the clock can show the time, only the builder's own
reasons keep them from giving one. -/
theorem front_ends_agree (hne : features ≠ []) (hb : baud.natAbs < 10 ^ Text.maxDigits)
    (hxs : AsksFor xs features filename baud) (hfile : Holds s.disk path features filename baud) :
    (∃ selection text,
      Selection.make (.list (features.map .text)) (.text filename) (.int baud) = .ok selection ∧
      (ask s xs path features filename baud).Give s (.text filename)
        (filename ++ Settings.extension) text ∧
      selection.GoesBy filename text) ∨
    ∃ e, (ask s xs path features filename baud).Refuse s features filename e ∧
      ∀ m, s.clock.momentOf none = .ok m → e.isOwn = true := by
  -- every way comes to what is drawn from the three parts
  cases h : Selection.drawn s.home s.clock
    ((Selection.ofParts features filename baud).mapError .selection) with
  | ok drawn =>
    obtain ⟨selection, sketch⟩ := drawn
    refine .inl ⟨selection, sketch.text, ?_, ?_, Selection.goesBy_of_drawn h⟩
    · rw [Selection.make_texts, (Selection.drawn_ok h).1]
      rfl
    · exact give_of_drawn hne hb hxs hfile h
  | error e =>
    refine .inr ⟨e, refuse_of_drawn hne hb hxs hfile h, fun m hm => ?_⟩
    exact Selection.isOwn_of_drawn_error hm h

def lampRecord : String :=
  "\x7b\"filename\": \"Lamp\", \"connectionType\": \x7b\"serial\": \x7b\"baud\": 57600\x7d\x7d, " ++
    "\"selectedFeatures\": [\"ServoFirmata\", \"I2CFirmata\"]\x7d"

/-- A disk with one selection file, in 1970. -/
def lampDesk : Surroundings where
  disk := ⟨.folder [("lamp.json", .file lampRecord.toUTF8)], []⟩
  clock := ⟨.moment .epoch, .utc⟩
  home := ⟨.root, []⟩
  output := none

def lampSettings : List Setting :=
  [.feature "ServoFirmata", .baud 57600, .stdout, .feature "I2CFirmata", .filename "Lamp"]

theorem holds_lampRecord :
    Holds lampDesk.disk "lamp.json" ["ServoFirmata", "I2CFirmata"] "Lamp" 57600 := by
  have hdecode : Text.Utf8.decode lampRecord.toUTF8 = .ok lampRecord.toList := by decide +kernel
  have hread : Json.read (Text.normalizeLineEnds lampRecord.toList) =
      .ok (Selection.document ["ServoFirmata", "I2CFirmata"] "Lamp" 57600) :=
    Outcome.ok_of_toOption (by decide +kernel)
  refine ⟨by decide, by decide, by decide, lampRecord.toUTF8, by rfl, ?_⟩
  rw [Catalog.readDocument, hdecode]
  simp only [Except.mapError, bind, Except.bind, hread]

/-- A servo and a bus, asked for in all ways. -/
theorem front_ends_agree_lamp :
    AsksFor lampSettings ["ServoFirmata", "I2CFirmata"] "Lamp" 57600 ∧
    Holds lampDesk.disk "lamp.json" ["ServoFirmata", "I2CFirmata"] "Lamp" 57600 ∧
    ∃ selection text,
      Selection.make (.list [.text "ServoFirmata", .text "I2CFirmata"]) (.text "Lamp")
        (.int 57600) = .ok selection ∧
      (ask lampDesk lampSettings "lamp.json" ["ServoFirmata", "I2CFirmata"] "Lamp" 57600).Give
        lampDesk (.text "Lamp") "Lamp.ino" text ∧
      selection.GoesBy "Lamp" text := by
  have hsettings : AsksFor lampSettings ["ServoFirmata", "I2CFirmata"] "Lamp" 57600 :=
    ⟨rfl, rfl, rfl, .tail _ (.tail _ (.head _))⟩
  refine ⟨hsettings, holds_lampRecord, ?_⟩
  rcases front_ends_agree (by decide) (by decide +kernel) hsettings holds_lampRecord with
    hgive | ⟨e, hrefuse, -⟩
  · exact hgive
  · have hrecorded : ∃ p, recorded lampDesk.home lampDesk.clock ["ServoFirmata", "I2CFirmata"]
        "Lamp" 57600 = .ok p := ⟨_, rfl⟩
    obtain ⟨p, hp⟩ := hrecorded
    have herror := hrefuse.recorded
    rw [ask, hp] at herror
    cases herror

/-- Two minus signs as the name of a feature: the settings and the web give different reasons. -/
theorem reasons_differ_for_dashes :
    AsksFor [.stdout, .feature "--", .filename "A", .baud 9600] ["--"] "A" 9600 ∧
    (Command.run lampDesk ["generate", "--stdout", "--feature=--", "--filename=A",
      "--baud=9600"]).stderr = "Error: selectedFeatures: Must be a list of feature names\n" ∧
    (Web.respond (Catalog.shipped lampDesk.home) lampDesk.clock (Web.fieldsOf ["--"] "A" 9600)
      .generate).result =
        .ok (.refused "Unknown feature '--': not found in the feature catalog") := by
  have hsettings : AsksFor [.stdout, .feature "--", .filename "A", .baud 9600] ["--"] "A" 9600 :=
    ⟨rfl, rfl, rfl, .head _⟩
  have hrun := Command.run_settings (s := lampDesk) (by decide) (by decide +kernel) hsettings
  rw [Selection.make_dashes (.inl (.head _)), outcome] at hrun
  refine ⟨hsettings, ?_, ?_⟩
  · have htext : "Error: " ++ Selection.Fault.featuresNotNames.message ++ "\n" =
        "Error: selectedFeatures: Must be a list of feature names\n" := by decide
    rw [← htext]
    exact congrArg Command.Report.stderr hrun
  · have htext : (Failure.unknownFeature (.text "--")).message =
        "Unknown feature '--': not found in the feature catalog" := by decide
    rw [← htext]
    rfl

end FirmataSketch
