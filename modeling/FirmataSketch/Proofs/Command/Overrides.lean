import FirmataSketch.Proofs.Catalog.Accounting
import FirmataSketch.Proofs.Command.AllOrNothing
import FirmataSketch.Proofs.Command.Invocation
import FirmataSketch.Proofs.Selection.NormalForm
import FirmataSketch.Value.Equality

/-! Overrides: a file name and a baud on the command line take the place of those in the record of a
selection file, as if they had been written there. -/

namespace FirmataSketch

open Disk (PathName lookup_cons_eq)
open Value (fieldOr setField)

namespace Value

variable {fields : List (String × Value)} {name other : String} {v fallback : Value}

theorem lookup_setField (name : String) (v : Value) (fields : List (String × Value)) (other : String) :
    (setField name v fields).lookup other = if other = name then some v else fields.lookup other := by
  induction fields with
  | nil => exact lookup_cons_eq other (name, v) []
  | cons f fields ih =>
    rw [setField]
    by_cases hf : f.1 = name
    · rw [if_pos hf, lookup_cons_eq, lookup_cons_eq, hf]
      split <;> rfl
    · rw [if_neg hf, lookup_cons_eq, lookup_cons_eq, ih]
      by_cases h : other = name
      · have hne : other ≠ f.1 := fun hother => hf (hother.symm.trans h)
        rw [if_pos h, if_pos h, if_neg hne]
      · rw [if_neg h, if_neg h]

theorem fieldOr_setField_self : fieldOr (setField name v fields) name fallback = v := by
  rw [fieldOr, lookup_setField, if_pos rfl, Option.getD_some]

theorem fieldOr_setField_of_ne (h : other ≠ name) :
    fieldOr (setField name v fields) other fallback = fieldOr fields other fallback := by
  rw [fieldOr, lookup_setField, if_neg h, fieldOr]

end Value

namespace Selection

variable {s : Selection} {features : List String}

/-- The record of a connection with a baud. -/
def connection (baud : Int) : Value := .record [("serial", .record [("baud", .int baud)])]

/-- The record of a selection, in which a file name that was given and a baud that was given stand
instead of its own file name and its own connection. -/
def overridden (filename : Option String) (baud : Option Int) : Value → Value
  | .record fields =>
    let fields := filename.elim fields fun x => setField "filename" (.text x) fields
    .record (baud.elim fields fun b => setField "connectionType" (connection b) fields)
  | v => v

/-- A selection depends on its file name and its baud only as far as they are not the defaults. -/
theorem named_congr {filename filename' baud baud' : Value}
    (hfilename : orDefault (.text Settings.defaultFilename) filename =
      orDefault (.text Settings.defaultFilename) filename')
    (hbaud : orDefault (.int Settings.defaultBaud) baud = orDefault (.int Settings.defaultBaud) baud') :
    named features filename baud = named features filename' baud' := by
  unfold named
  rw [hfilename, hbaud]

theorem ofValue_fields {fields : List (String × Value)} {baud : Value}
    (hbaud : baudOf (fieldOr fields "connectionType" .null) = .ok baud)
    (hfeatures : fieldOr fields "selectedFeatures" (.list []) = .list (features.map .text)) :
    ofValue (.record fields) = named features (fieldOr fields "filename" .null) baud := by
  have hnames := mapM_textOf? features
  unfold ofValue ofFields
  simp only [hbaud, hfeatures, hnames, bind, Except.bind]

/-- The selection of a record with overrides is made from the parts of its own selection. -/
theorem ofValue_overridden {v : Value} (h : ofValue v = .ok s) (filename : Option String)
    (baud : Option Int) :
    ofValue (overridden filename baud v) =
      named s.features (.text (filename.getD s.filename)) (.int (baud.getD s.baud)) := by
  obtain ⟨fields, own, rfl, hown, hfeatures, hnamed⟩ := ofValue_ok h
  obtain ⟨-, hname, hrate⟩ := parts_of_named hnamed
  -- first the file name is put in place, then the connection; neither is in the way of the other
  let renamed := filename.elim fields fun x => setField "filename" (.text x) fields
  have hrenamed {other : String} {fallback : Value} (hne : other ≠ "filename") :
      fieldOr renamed other fallback = fieldOr fields other fallback := by
    cases filename with
    | none => rfl
    | some x => exact Value.fieldOr_setField_of_ne hne
  have hfilename : orDefault (.text Settings.defaultFilename) (fieldOr renamed "filename" .null) =
      .text (filename.getD s.filename) := by
    cases filename with
    | none => exact hname
    | some x =>
      have hself : fieldOr renamed "filename" .null = .text x := Value.fieldOr_setField_self
      rw [hself]
      rfl
  have hlist : fieldOr renamed "selectedFeatures" (.list []) = .list (s.features.map .text) :=
    (hrenamed (by decide)).trans hfeatures
  cases baud with
  | none =>
    have hconnection : baudOf (fieldOr renamed "connectionType" .null) = .ok own := by
      rw [hrenamed (by decide)]
      exact hown
    exact (ofValue_fields hconnection hlist).trans (named_congr hfilename hrate)
  | some b =>
    let connected := setField "connectionType" (connection b) renamed
    have hothers {other : String} {fallback : Value} (hne : other ≠ "connectionType") :
        fieldOr connected other fallback = fieldOr renamed other fallback :=
      Value.fieldOr_setField_of_ne hne
    have hconnection : baudOf (fieldOr connected "connectionType" .null) = .ok (.int b) := by
      rw [Value.fieldOr_setField_self]
      rfl
    have hlist' : fieldOr connected "selectedFeatures" (.list []) = .list (s.features.map .text) :=
      (hothers (by decide)).trans hlist
    have hfilename' : orDefault (.text Settings.defaultFilename) (fieldOr connected "filename" .null) =
        .text (filename.getD s.filename) := by
      rw [hothers (by decide)]
      exact hfilename
    exact (ofValue_fields hconnection hlist').trans (named_congr hfilename' rfl)

end Selection

namespace Command

variable {d : Disk} {o : GenerateOptions} {path : String} {v : Value} {s : Selection}
  {xs ys : List Setting}

/-- The last file name among settings, which is the one that counts. -/
def lastFilename (xs : List Setting) : Option String := (xs.filterMap Setting.filename?).getLast?

/-- The last baud among settings. -/
def lastBaud (xs : List Setting) : Option Int := (xs.filterMap Setting.baud?).getLast?

theorem foldl_last {α β : Type} (f : α → β) (as : List α) :
    as.foldl (fun _ a => some (f a)) none = as.getLast?.map f := by
  rcases List.eq_nil_or_concat as with rfl | ⟨before, a, rfl⟩
  · rfl
  · simp

/-- The ways to name a selection file. -/
inductive Naming (path : String) : List String → Prop
  | apart (h : hasPrefix "-" path = false) : Naming path ["--selection", path]
  | attached (h : path ≠ "--") : Naming path ["--selection" ++ "=" ++ path]

/-- The arguments with their readings name a selection file, wherever they stand. -/
structure NamesFile (path : String) (read : List (String × Reading)) : Prop where
  readArgument : ∀ a ∈ read, a.1 ≠ "--" ∧ readArgument Parser.generate.options a.1 = .ok a.2
  main : ∀ a ∈ read, ∃ r, Command.readArgument Parser.main.options a.1 = .ok r
  scan : ∀ rest, scan Parser.generate.options false [] (read ++ rest) =
    (Command.scan Parser.generate.options false [] rest).after [(selectionOption, .text path)] []

theorem Naming.namesFile {named : List String} (h : Naming path named) :
    ∃ read, read.map Prod.fst = named ∧ NamesFile path read := by
  cases h with
  | apart h =>
    have hdashes : path ≠ "--" := by
      rintro rfl
      exact absurd h (by decide)
    refine ⟨[("--selection", .option selectionOption "--selection" none), (path, .plain)], rfl, ?_, ?_,
      fun rest => rfl⟩
    · exact List.forall_mem_cons.2 ⟨⟨by decide, rfl⟩,
        List.forall_mem_singleton.2 ⟨hdashes, readArgument_plain h⟩⟩
    · exact List.forall_mem_cons.2 ⟨⟨_, rfl⟩,
        List.forall_mem_singleton.2 ⟨_, readArgument_plain h⟩⟩
  | attached h =>
    have hvalue : attachedValue path = .text path := if_neg h
    refine ⟨[("--selection" ++ "=" ++ path, .option selectionOption "--selection" (some path))], rfl,
      ?_, ?_, fun rest => ?_⟩
    · refine List.forall_mem_singleton.2 ⟨attached_ne _ _ _ (by decide), ?_⟩
      exact readArgument_attached (by decide) (by decide) (by decide) rfl path
    · refine List.forall_mem_singleton.2 ?_
      exact readArgument_unknown (by decide) (by decide) (by decide) (by decide) rfl (by decide) path
    · rw [← hvalue]
      rfl

theorem readSelectionFile_of_document (hnull : (PathName.ofText path).hasNull = false)
    (hdocument : Catalog.document? d (PathName.ofText path) = some v)
    (hv : Selection.ofValue v = .ok s) : readSelectionFile d (PathName.ofText path) = .ok s := by
  obtain ⟨bytes, hread, hdocument⟩ := Catalog.exists_document hdocument
  unfold readSelectionFile
  rw [hnull, hread]
  simp only [Bool.false_eq_true, if_false, Except.mapError, bind, Except.bind, hdocument, hv]

theorem make_parts (hv : Selection.ofValue v = .ok s) :
    Selection.make (.list (s.features.map .text)) (.text s.filename) (.int s.baud) = .ok s := by
  obtain ⟨features, filename, baud, hnamed⟩ := (Selection.Accepted.read hv).exists_named
  rw [Selection.make_named, Selection.named_parts hnamed]
  rfl

section

variable (hpath : o.selection = some path)
  (hfile : readSelectionFile d (PathName.ofText path) = .ok s)

include hpath hfile

theorem openSelection_overridden (hv : Selection.ofValue v = .ok s) {filename : Option String}
    {baud : Option Int} (hfilename : o.filename = filename.map .text)
    (hbaud : o.baud = baud.map .int) :
    openSelection d o =
      (Selection.ofValue (Selection.overridden filename baud v)).mapError .selection := by
  rw [Selection.ofValue_overridden hv]
  unfold openSelection
  simp only [hpath, hfile, hfilename, hbaud, bind, Except.bind]
  cases filename with
  | none =>
    cases baud with
    | none =>
      -- the selection is taken as it is, which making it anew comes to as well
      have hshortcut := make_parts hv
      rw [Selection.make_named] at hshortcut
      exact hshortcut.symm
    | some b => exact Selection.make_named _ _ _
  | some x => cases baud <;> exact Selection.make_named _ _ _

/-- Two minus signs as a file name are refused as an empty list, before the baud is looked at. -/
theorem openSelection_dashes (hfilename : o.filename = some (attachedValue "--")) :
    openSelection d o = .error (.selection (.badFilename (.list []))) := by
  unfold openSelection
  simp only [hpath, hfile, hfilename, bind, Except.bind]
  exact Selection.make_named _ _ _

end

/-- The options that a selection file and the settings around it come to. -/
def optionsAround (path : String) (xs ys : List Setting) : GenerateOptions :=
  ys.foldl Setting.apply { xs.foldl Setting.apply {} with selection := some path }

theorem optionsAround_selection (path : String) (xs ys : List Setting) :
    (optionsAround path xs ys).selection = some path := by
  have hkeep := Setting.foldl_part GenerateOptions.selection (fun _ => (none : Option Unit))
    (fun b _ => b) (by intro g x; cases x <;> rfl) ys
    { xs.foldl Setting.apply {} with selection := some path }
  rw [List.filterMap_none] at hkeep
  exact hkeep

/-- What is said by the last of some settings, on whichever side of the selection file it stands. -/
theorem optionsAround_last {α : Type} (part : GenerateOptions → Option Value)
    (concern : Setting → Option α) (value : α → Value) (hnone : part {} = none)
    (hfile : ∀ g, part { g with selection := some path } = part g)
    (h : ∀ g x, part (Setting.apply g x) = (concern x).elim (part g) fun a => some (value a)) :
    part (optionsAround path xs ys) = ((xs ++ ys).filterMap concern).getLast?.map value := by
  have hfold := Setting.foldl_part part concern (fun _ a => some (value a)) h
  rw [optionsAround, hfold, hfile, hfold, hnone, ← List.foldl_append, ← List.filterMap_append]
  exact foldl_last value _

theorem optionsAround_filename (path : String) (xs ys : List Setting) :
    (optionsAround path xs ys).filename = (lastFilename (xs ++ ys)).map attachedValue :=
  optionsAround_last GenerateOptions.filename Setting.filename? attachedValue rfl (fun _ => rfl)
    (by intro g x; cases x <;> rfl)

theorem optionsAround_baud (path : String) (xs ys : List Setting) :
    (optionsAround path xs ys).baud = (lastBaud (xs ++ ys)).map .int :=
  optionsAround_last GenerateOptions.baud Setting.baud? .int rfl (fun _ => rfl)
    (by intro g x; cases x <;> rfl)

/-- The command line that names a selection file among settings. -/
def argumentsAround (named : List String) (xs ys : List Setting) : List String :=
  xs.map Setting.text ++ named ++ ys.map Setting.text

theorem main_around {named : List String} (h : Naming path named) (xs ys : List Setting) :
    ∀ a ∈ argumentsAround named xs ys, a ≠ "--" ∧ ∃ r, readArgument Parser.main.options a = .ok r := by
  obtain ⟨read, rfl, hread⟩ := h.namesFile
  have hsettings (xs : List Setting) : ∀ a ∈ xs.map Setting.text,
      a ≠ "--" ∧ ∃ r, readArgument Parser.main.options a = .ok r :=
    List.forall_mem_map.2 fun x _ => ⟨x.text_ne, x.readArgument_main⟩
  have hnamed : ∀ a ∈ read.map Prod.fst, a ≠ "--" ∧ ∃ r, readArgument Parser.main.options a = .ok r :=
    List.forall_mem_map.2 fun a ha => ⟨(hread.readArgument a ha).1, hread.main a ha⟩
  exact List.forall_mem_append.2 ⟨List.forall_mem_append.2 ⟨hsettings xs, hnamed⟩, hsettings ys⟩

/-- A selection file stands for one option between those of the settings. -/
theorem generate_run_around {named : List String} (h : Naming path named) (xs ys : List Setting) :
    ∃ s : Scan, s.extras = [] ∧
      Parser.generate.run false {} (argumentsAround named xs ys) =
        (Parser.generate.applyAll {} (xs.map Setting.occurrence ++
          ([(selectionOption, .text path)] ++ ys.map Setting.occurrence))).map fun o => (o, s) := by
  obtain ⟨read, rfl, hread⟩ := h.namesFile
  have hsettings (xs : List Setting) : ∀ a ∈ xs.map fun x => (x.text, x.reading),
      a.1 ≠ "--" ∧ readArgument Parser.generate.options a.1 = .ok a.2 :=
    List.forall_mem_map.2 fun x _ => ⟨x.text_ne, x.readArgument_text⟩
  let all := xs.map (fun x => (x.text, x.reading)) ++ read ++ ys.map fun x => (x.text, x.reading)
  have hall : readArguments Parser.generate.options (all.map Prod.fst) =
      .ok ⟨all.map fun a => (a.1, a.2), []⟩ :=
    readArguments_map (List.forall_mem_append.2
      ⟨List.forall_mem_append.2 ⟨hsettings xs, hread.readArgument⟩, hsettings ys⟩)
  have hargs : argumentsAround (read.map Prod.fst) xs ys = all.map Prod.fst := by
    simp [argumentsAround, all, Function.comp_def]
  have hpairs : (all.map fun a => (a.1, a.2)) = all := List.map_id all
  have hscan : scan Parser.generate.options false [] all =
      { occurrences := xs.map Setting.occurrence ++
          ([(selectionOption, .text path)] ++ ys.map Setting.occurrence) } := by
    simp only [all]
    rw [List.append_assoc, Setting.scan_append, hread.scan, Setting.scan_readings]
    rfl
  rw [← hargs, hpairs] at hall
  exact ⟨_, rfl, run_of_scan hall hscan rfl⟩

/-- The program reads a selection file and the settings around it, unless a number is too long. -/
theorem ofArguments_around {named : List String} (h : Naming path named) (hne : path ≠ "")
    (hread : Setting.Readable (xs ++ ys)) :
    Invocation.ofArguments ("generate" :: argumentsAround named xs ys) =
      .ok ⟨false, .generate (optionsAround path xs ys)⟩ := by
  obtain ⟨hxs, hys⟩ := Setting.readable_append.1 hread
  obtain ⟨s, hextras, hrun⟩ := generate_run_around h xs ys
  have hpath : pathOf (.text path) = some path := if_neg hne
  have hfile (g : GenerateOptions) : Parser.generate.apply g selectionOption (.text path) =
      .ok { g with selection := some path } := by
    rw [← hpath]
    rfl
  refine ofArguments_generate (main_around h xs ys) (s := s) ?_ hextras
  have happly (g : GenerateOptions) : Parser.generate.applyAll g
      ((selectionOption, .text path) :: ys.map Setting.occurrence) =
      .ok (ys.foldl Setting.apply { g with selection := some path }) := by
    rw [applyAll_cons (by decide) (hfile g), Setting.applyAll_occurrences hys]
  rw [hrun, applyAll_append, Setting.applyAll_occurrences hxs, Except.bind, List.singleton_append,
    happly]
  rfl

/-- A number that is too long is a misstep, whatever the selection file holds. -/
theorem ofArguments_around_unreadable {named : List String} (h : Naming path named)
    (hread : ¬ Setting.Readable (xs ++ ys)) :
    ∃ n, .baud n ∈ xs ++ ys ∧ Invocation.ofArguments ("generate" :: argumentsAround named xs ys) =
      .error (.usage .generate (.badInteger baudOption (Text.decimal n))) := by
  obtain ⟨s, -, hrun⟩ := generate_run_around h xs ys
  rw [applyAll_append] at hrun
  by_cases hxs : Setting.Readable xs
  · have hys : ¬ Setting.Readable ys := fun hys => hread (Setting.readable_append.2 ⟨hxs, hys⟩)
    have hfile (g : GenerateOptions) : ∃ g', Parser.generate.apply g selectionOption (.text path) =
        .ok g' := ⟨_, rfl⟩
    obtain ⟨g, hg⟩ := hfile (xs.foldl Setting.apply {})
    obtain ⟨n, hn, happly⟩ := Setting.applyAll_unreadable hys g
    refine ⟨n, List.mem_append_right xs hn, ofArguments_generate_error (main_around h xs ys) ?_⟩
    rw [hrun, Setting.applyAll_occurrences hxs, Except.bind, List.singleton_append,
      applyAll_cons (by decide) hg, happly]
    rfl
  · obtain ⟨n, hn, happly⟩ := Setting.applyAll_unreadable hxs {}
    refine ⟨n, List.mem_append_left ys hn, ofArguments_generate_error (main_around h xs ys) ?_⟩
    rw [hrun, happly]
    rfl

/-- A file name and a baud beside a selection file come to what they would come to in its record, the
last ones if there are several; features beside it come to nothing. Taking the selection as it is and
making it anew from its parts is the same. Two minus signs as the file name do not reach the selection
as a text, and a baud with too many digits is a misstep before the file is looked at. -/
theorem overrides {named : List String} (hnamed : Naming path named) (hne : path ≠ "")
    (hnull : (PathName.ofText path).hasNull = false)
    (hdocument : Catalog.document? d (PathName.ofText path) = some v)
    (hv : Selection.ofValue v = .ok s) (xs ys : List Setting) :
    Selection.make (.list (s.features.map .text)) (.text s.filename) (.int s.baud) = .ok s ∧
    (Setting.Readable (xs ++ ys) →
      ∃ o, Invocation.ofArguments ("generate" :: argumentsAround named xs ys) =
          .ok ⟨false, .generate o⟩ ∧
        openSelection d o =
          if lastFilename (xs ++ ys) = some "--" then .error (.selection (.badFilename (.list [])))
          else (Selection.ofValue (Selection.overridden (lastFilename (xs ++ ys))
            (lastBaud (xs ++ ys)) v)).mapError .selection) ∧
    (¬ Setting.Readable (xs ++ ys) →
      ∃ n, .baud n ∈ xs ++ ys ∧
        Invocation.ofArguments ("generate" :: argumentsAround named xs ys) =
          .error (.usage .generate (.badInteger baudOption (Text.decimal n)))) := by
  refine ⟨make_parts hv, fun hread => ?_, ofArguments_around_unreadable hnamed⟩
  have hfile := readSelectionFile_of_document hnull hdocument hv
  have hpath := optionsAround_selection path xs ys
  have hfilename := optionsAround_filename path xs ys
  refine ⟨_, ofArguments_around hnamed hne hread, ?_⟩
  by_cases hdashes : lastFilename (xs ++ ys) = some "--"
  · rw [if_pos hdashes]
    rw [hdashes] at hfilename
    exact openSelection_dashes hpath hfile hfilename
  · rw [if_neg hdashes]
    refine openSelection_overridden hpath hfile hv ?_ (optionsAround_baud path xs ys)
    rw [hfilename]
    refine Option.map_congr fun x hx => if_neg ?_
    rintro rfl
    exact hdashes hx

/-- A record that names one feature and leaves the rest to the defaults. -/
def servoRecord : Value := .record [("selectedFeatures", .list (["ServoFirmata"].map .text))]

def servoText : String := "\x7b\"selectedFeatures\": [\"ServoFirmata\"]\x7d"

def servoSite : Surroundings := .holding [("s.json", .file servoText.toUTF8)]

theorem document?_servoSite :
    Catalog.document? servoSite.disk (PathName.ofText "s.json") = some servoRecord := by
  have hfile : servoSite.disk.readFile (PathName.ofText "s.json") = .ok servoText.toUTF8 := rfl
  have hchars : Text.Utf8.decode servoText.toUTF8 = .ok servoText.toList := by decide +kernel
  have hread : Json.read (Text.normalizeLineEnds servoText.toList) = .ok servoRecord :=
    Outcome.ok_of_toOption (by decide +kernel)
  rw [Catalog.document?, hfile, Except.toOption, Option.bind_some, Catalog.readDocument, hchars]
  simp only [Except.mapError, bind, Except.bind, hread, Except.toOption]

theorem ofValue_servoRecord : Selection.ofValue servoRecord =
    .ok ⟨Settings.defaultFilename, Settings.defaultBaud, ["ServoFirmata"]⟩ :=
  Selection.named_defaults ["ServoFirmata"]

/-- The last file name counts and the feature does not; of an empty file name and a baud of zero, the
file name is reported. -/
theorem overrides_servo :
    (∃ o, Invocation.ofArguments ["generate", "--filename=Fan", "--feature=Fan", "--selection", "s.json",
          "--filename=Lamp", "--baud=9600"] = .ok ⟨false, .generate o⟩ ∧
      openSelection servoSite.disk o = .ok ⟨"Lamp", 9600, ["ServoFirmata"]⟩) ∧
    ∃ o, Invocation.ofArguments ["generate", "--baud=0", "--selection=s.json", "--filename="] =
        .ok ⟨false, .generate o⟩ ∧
      openSelection servoSite.disk o = .error (.selection (.badFilename (.text ""))) := by
  constructor
  · obtain ⟨-, hread, -⟩ := overrides (.apart rfl) (by decide) (by decide) document?_servoSite
      ofValue_servoRecord [.filename "Fan", .feature "Fan"] [.filename "Lamp", .baud 9600]
    have hshort : (9600 : Int).natAbs < 10 ^ Text.maxDigits := by decide +kernel
    obtain ⟨o, hargs, hopen⟩ := hread (Setting.readable_of_single rfl hshort)
    have hsame : argumentsAround ["--selection", "s.json"] [.filename "Fan", .feature "Fan"]
        [.filename "Lamp", .baud 9600] = ["--filename=Fan", "--feature=Fan", "--selection", "s.json",
          "--filename=Lamp", "--baud=9600"] := by decide
    have hname : lastFilename ([.filename "Fan", .feature "Fan"] ++ [.filename "Lamp", .baud 9600]) =
        some "Lamp" := rfl
    have hbaud : lastBaud ([.filename "Fan", .feature "Fan"] ++ [.filename "Lamp", .baud 9600]) =
        some 9600 := rfl
    have hmade : Selection.named ["ServoFirmata"] (.text "Lamp") (.int 9600) =
        .ok ⟨"Lamp", 9600, ["ServoFirmata"]⟩ := rfl
    rw [hname, hbaud, if_neg (by decide), Selection.ofValue_overridden ofValue_servoRecord,
      Option.getD_some, Option.getD_some, hmade] at hopen
    exact ⟨o, hsame ▸ hargs, hopen⟩
  · obtain ⟨-, hread, -⟩ := overrides (.attached (by decide)) (by decide) (by decide)
      document?_servoSite ofValue_servoRecord [.baud 0] [.filename ""]
    have hshort : (0 : Int).natAbs < 10 ^ Text.maxDigits := by decide +kernel
    obtain ⟨o, hargs, hopen⟩ := hread (Setting.readable_of_single rfl hshort)
    have hsame : argumentsAround ["--selection" ++ "=" ++ "s.json"] [.baud 0] [.filename ""] =
        ["--baud=0", "--selection=s.json", "--filename="] := by decide
    have hname : lastFilename ([.baud 0] ++ [.filename ""]) = some "" := rfl
    have hbaud : lastBaud ([.baud 0] ++ [.filename ""]) = some 0 := rfl
    have hmade : Selection.named ["ServoFirmata"] (.text "") (.int 0) =
        .error (.badFilename (.text "")) := rfl
    rw [hname, hbaud, if_neg (by decide), Selection.ofValue_overridden ofValue_servoRecord,
      Option.getD_some, Option.getD_some, hmade] at hopen
    exact ⟨o, hsame ▸ hargs, hopen⟩

/-- Two minus signs beside the file are refused for another reason than in its record. -/
theorem override_dashes :
    Catalog.document? servoSite.disk (PathName.ofText "s.json") = some servoRecord ∧
    (∃ s, Selection.ofValue servoRecord = .ok s) ∧
    ∃ o, Invocation.ofArguments ["generate", "--stdout", "--selection", "s.json", "--filename=--"] =
        .ok ⟨false, .generate o⟩ ∧
      ∃ e e', openSelection servoSite.disk o = .error e ∧
        (Selection.ofValue (Selection.overridden (some "--") none servoRecord)).mapError
          Failure.selection = .error e' ∧ e.message ≠ e'.message := by
  have hreadable : Setting.Readable ([.stdout] ++ [.filename "--"]) := by
    intro n hn
    simp at hn
  have hargs : Invocation.ofArguments
      ("generate" :: argumentsAround ["--selection", "s.json"] [.stdout] [.filename "--"]) =
      .ok ⟨false, .generate (optionsAround "s.json" [.stdout] [.filename "--"])⟩ :=
    ofArguments_around (.apart rfl) (by decide) hreadable
  have hfile := readSelectionFile_of_document (by decide) document?_servoSite ofValue_servoRecord
  have hrefused : Selection.ofValue (Selection.overridden (some "--") none servoRecord) =
      .error (.badFilename (.text "--")) := by
    rw [Selection.ofValue_overridden ofValue_servoRecord]
    rfl
  refine ⟨document?_servoSite, ⟨_, ofValue_servoRecord⟩, _, hargs, .selection (.badFilename (.list [])),
    .selection (.badFilename (.text "--")), openSelection_dashes rfl hfile rfl, ?_, by decide +kernel⟩
  rw [hrefused]
  rfl

end Command

end FirmataSketch
