import FirmataSketch.Proofs.Command.Printing
import FirmataSketch.Proofs.Command.SelectionFile
import FirmataSketch.Proofs.Disk.Writing

/-! All or nothing: a command that does not end well has printed nothing and has not touched a file, and
one that does has done exactly one thing. A sketch that cannot be encoded is the exception. -/

namespace FirmataSketch.Command

open Disk (PathName AlikeBut nowhere)
open Text (IsEncodable)
open Outcome (ok_of_toOption)

variable {s : Surroundings} {args : List String} {verbose : Bool} {o : GenerateOptions}
  {selection : Selection} {sketch : Sketch}

theorem acceptsWord_of_drawn (h : (drawn s o).result = .ok (selection, sketch)) :
    Text.acceptsWord selection.filename = true := by
  obtain ⟨index, hprepared, -⟩ := drawn_ok h
  obtain ⟨catalog, -, hselection, -⟩ := prepared_ok hprepared
  exact acceptsWord_of_openSelection hselection

theorem run_of_generate (h : Invocation.ofArguments args = .ok ⟨verbose, .generate o⟩) :
    run s args = runGenerate s verbose o := by
  rw [run, h]
  rfl

/-- The same command prints the sketch if that is wished. -/
theorem run_withStdout (h : Invocation.ofArguments args = .ok ⟨verbose, .generate o⟩)
    (hdrawn : (drawn s o).result = .ok (selection, sketch)) :
    (run s (withStdout args)).ending = .exit 0 ∧ (run s (withStdout args)).stdout = sketch.text := by
  have hsame : (drawn s { o with toStdout := true }).result = .ok (selection, sketch) := hdrawn
  rw [run_of_generate (ofArguments_withStdout h), runGenerate_printed rfl hsame]
  exact ⟨rfl, rfl⟩

theorem run_stored {folder : PathName}
    (hargs : Invocation.ofArguments args = .ok ⟨verbose, .generate o⟩) (hprint : o.toStdout = false)
    (hdrawn : (drawn s o).result = .ok (selection, sketch))
    (hfolder : outputFolder s o.out = .ok folder) :
    ∃ events, run s args = stored verbose events
      (s.disk.writeSketch folder (.text selection.filename) sketch.text) :=
  ⟨_, (run_of_generate hargs).trans (runGenerate_stored hprint hdrawn hfolder)⟩

/-- How a command line that generates a sketch can end. -/
inductive AllOrNothing (s : Surroundings) (args : List String) : Report → Prop
  | nothing {r : Report} (hending : r.ending ≠ .exit 0) (hstdout : r.stdout = "")
      (hfiles : ∀ q bytes,
        r.disk.kindAt q = some (.file bytes) ↔ s.disk.kindAt q = some (.file bytes)) :
      AllOrNothing s args r
  | printed {r : Report} {verbose : Bool} {o : GenerateOptions} {selection : Selection}
      {sketch : Sketch} (hargs : Invocation.ofArguments args = .ok ⟨verbose, .generate o⟩)
      (hprint : o.toStdout = true) (hdrawn : (drawn s o).result = .ok (selection, sketch))
      (hending : r.ending = .exit 0) (hstdout : r.stdout = sketch.text) (hdisk : r.disk = s.disk) :
      AllOrNothing s args r
  | stored {r : Report} {verbose : Bool} {o : GenerateOptions} {selection : Selection}
      {sketch : Sketch} {folder : PathName}
      (hargs : Invocation.ofArguments args = .ok ⟨verbose, .generate o⟩)
      (hprint : o.toStdout = false) (hdrawn : (drawn s o).result = .ok (selection, sketch))
      (hfolder : outputFolder s o.out = .ok folder) (hending : r.ending = .exit 0)
      (hdisk : AlikeBut s.disk r.disk (s.disk.OnWay folder)
        (· = s.disk.sketchPlace folder selection.filename))
      (hprinted : (run s (withStdout args)).ending = .exit 0)
      (hfile : r.disk.kindAt (s.disk.sketchPlace folder selection.filename) =
        some (.file (run s (withStdout args)).stdout.toUTF8)) :
      AllOrNothing s args r
  /-- The sketch has a surrogate in it: the file is emptied, and the failure is let through. -/
  | emptied {r : Report} {verbose : Bool} {o : GenerateOptions} {selection : Selection}
      {sketch : Sketch} {folder : PathName} {u : Text.Utf8.Unencodable}
      (hargs : Invocation.ofArguments args = .ok ⟨verbose, .generate o⟩)
      (hprint : o.toStdout = false) (hdrawn : (drawn s o).result = .ok (selection, sketch))
      (hsketch : ¬ IsEncodable sketch.text) (hfolder : outputFolder s o.out = .ok folder)
      (hending : r.ending = .failure (.notEncodable u)) (hstdout : r.stdout = "")
      (hdisk : AlikeBut s.disk r.disk (s.disk.OnWay folder)
        (· = s.disk.sketchPlace folder selection.filename))
      (hfile : r.disk.kindAt (s.disk.sketchPlace folder selection.filename) = some (.file .empty)) :
      AllOrNothing s args r

theorem allOrNothing_failed {disk : Disk} {made : Disk.Place → Prop} {log : String} {e : Failure}
    (hdisk : AlikeBut s.disk disk made nowhere) : AllOrNothing s args (failed disk log e) := by
  obtain ⟨hstdout, hreport, -⟩ := failed_spec disk log e
  refine .nothing (failed_ending_ne disk log e) hstdout fun q bytes => ?_
  rw [hreport]
  exact hdisk.file_iff (fun hq => hq) bytes

theorem allOrNothing_stored {folder : PathName} {events : List Event}
    (hargs : Invocation.ofArguments args = .ok ⟨verbose, .generate o⟩) (hprint : o.toStdout = false)
    (hdrawn : (drawn s o).result = .ok (selection, sketch))
    (hfolder : outputFolder s o.out = .ok folder) :
    AllOrNothing s args (stored verbose events
      (s.disk.writeSketch folder (.text selection.filename) sketch.text)) := by
  have hsaved := Disk.saved_writeSketch (acceptsWord_of_drawn hdrawn) s.disk folder sketch.text
  obtain ⟨hprinted, htext⟩ := run_withStdout hargs hdrawn
  cases hwrite : s.disk.writeSketch folder (.text selection.filename) sketch.text with
  | mk disk result =>
    rw [hwrite] at hsaved
    cases hsaved with
    | refused hdisk he => exact allOrNothing_failed hdisk
    | @emptied _ u hdisk hfile hcontent =>
      obtain ⟨hstdout, hreport, hending⟩ :=
        failed_spec disk (shown verbose events) (.notEncodable u)
      exact .emptied hargs hprint hdrawn hcontent hfolder hending hstdout (hreport.symm ▸ hdisk)
        (hreport.symm ▸ hfile)
    | saved hdisk hfile hcontent =>
      exact .stored hargs hprint hdrawn hfolder rfl hdisk hprinted (htext.symm ▸ hfile)

/-- A command line that asks for a sketch prints it and leaves the disk as it was, or stores the text
that it would print and makes the folders on the way, or does nothing to the files at all. A sketch
that cannot be encoded empties its file. -/
theorem all_or_nothing (hhelp : ∀ m, Invocation.ofArguments args ≠ .error (.help m))
    (hjob : ∀ i, Invocation.ofArguments args = .ok i → ∃ o, i.job = .generate o) :
    AllOrNothing s args (run s args) := by
  cases hargs : Invocation.ofArguments args with
  | error halt =>
    have hrun : run s args = halt.report s.disk := by
      rw [run, hargs]
    rw [hrun]
    cases halt with
    | help m => exact absurd hargs (hhelp m)
    | usage m misstep =>
      exact .nothing (fun h => nomatch h) rfl fun q bytes => Iff.rfl
  | ok i =>
    obtain ⟨verbose, job⟩ := i
    obtain ⟨o, rfl⟩ := hjob _ hargs
    rw [run_of_generate hargs]
    have hcourse := course_runGenerate s verbose o
    revert hcourse
    generalize runGenerate s verbose o = r
    intro hcourse
    cases hcourse with
    | failed => exact allOrNothing_failed (.refl s.disk nowhere nowhere)
    | printed hprint hdrawn => exact .printed hargs hprint hdrawn rfl rfl rfl
    | stored hprint hdrawn hfolder => exact allOrNothing_stored hargs hprint hdrawn hfolder

/-- A disk with some files and folders in its root, at the beginning of 1970. -/
def Surroundings.holding (entries : List (String × Disk.Node)) : Surroundings where
  disk := ⟨.folder entries, []⟩
  clock := ⟨.moment .epoch, .utc⟩
  home := ⟨.root, []⟩
  output := none

/-- A feature whose header is in a folder with a surrogate in its name, and an older sketch. -/
def surrogateSite : Surroundings := .holding
  [("c", .folder [("led.json", .file ("\x7b\"name\": \"Led\", \"class_name\": \"Led\", " ++
    "\"instance_name\": \"led\", \"path\": \"\\ud800/\"\x7d").toUTF8)]),
   ("o", .folder [("Lamp.ino", .file "old".toUTF8)])]

def surrogateOptions : GenerateOptions where
  features := some [.text "Led"]
  filename := some (.text "Lamp")
  catalog := some "c"
  out := some "o"

theorem drawn_surrogateSite :
    ∃ sketch, (drawn surrogateSite surrogateOptions).result =
      .ok (⟨"Lamp", 57600, ["Led"]⟩, sketch) ∧ ¬ IsEncodable sketch.text := by
  have hfiles : Catalog.featureFiles surrogateSite.disk (PathName.ofText "c") = .ok ["led.json"] :=
    Catalog.featureFiles_of_sorted (by decide) (by decide) (by decide)
  obtain ⟨c, hload, hlook⟩ := Catalog.exists_load_of_parts hfiles (by simp)
    (fun c => c.index.toOption.bind fun index =>
      ((Selection.draft ⟨"Lamp", 57600, ["Led"]⟩).sketch index surrogateSite.clock
        none).result.toOption.map fun sketch =>
          sketch.includes.lines.all fun l => decide (IsEncodable l))
    (a := false) (by decide +kernel)
  simp only [Option.bind_eq_some_iff, Option.map_eq_some_iff] at hlook
  obtain ⟨index, hindex, sketch, hsketch, hsurrogate⟩ := hlook
  have hcatalog : (openCatalog surrogateSite (some "c")).result = .ok c := by
    rw [openCatalog_of_load hload]
  refine ⟨sketch, drawn_of_ok hcatalog rfl (ok_of_toOption hindex) (ok_of_toOption hsketch), ?_⟩
  rw [Sketch.text, Text.isEncodable_unlines_iff]
  intro hencodable
  have hincludes : ∀ l ∈ sketch.includes.lines, IsEncodable l := fun l hl =>
    hencodable l (by simp [Sketch.lines, hl])
  have hall : (sketch.includes.lines.all fun l => decide (IsEncodable l)) = true :=
    List.all_eq_true.2 fun l hl => decide_eq_true (hincludes l hl)
  rw [hsurrogate] at hall
  cases hall

def surrogateArguments : List String :=
  ["generate", "--catalog", "c", "--feature", "Led", "--filename", "Lamp", "--out", "o"]

theorem kindAt_surrogateSite :
    surrogateSite.disk.kindAt ["o", "Lamp.ino"] = some (.file "old".toUTF8) := by
  simp [surrogateSite, Surroundings.holding, Disk.kindAt, Disk.Node.kindAt, Disk.Node.find?, List.lookup_cons,
    Disk.Node.kind]

theorem writeSketch_surrogateSite {content : String} {u : Text.Utf8.Unencodable}
    (hu : Text.Utf8.encode content = .error u) :
    ∃ disk, surrogateSite.disk.writeSketch ⟨.root, ["o"]⟩ (.text "Lamp") content =
      (disk, .error (.notEncodable u)) ∧
      disk.kindAt ["o", "Lamp.ino"] = some (.file .empty) := by
  unfold Disk.writeSketch
  rw [hu]
  exact ⟨_, rfl, rfl⟩

/-- The older sketch is lost when the new one cannot be encoded. -/
theorem all_or_nothing_surrogate :
    AllOrNothing surrogateSite surrogateArguments (run surrogateSite surrogateArguments) ∧
      (run surrogateSite surrogateArguments).ending ≠ .exit 0 ∧
      surrogateSite.disk.kindAt ["o", "Lamp.ino"] = some (.file "old".toUTF8) ∧
      (run surrogateSite surrogateArguments).disk.kindAt ["o", "Lamp.ino"] =
        some (.file .empty) := by
  have hargs : Invocation.ofArguments surrogateArguments =
      .ok ⟨false, .generate surrogateOptions⟩ := rfl
  have hhelp : ∀ m, Invocation.ofArguments surrogateArguments ≠ .error (.help m) := by
    intro m h
    rw [hargs] at h
    cases h
  have hjob : ∀ i, Invocation.ofArguments surrogateArguments = .ok i →
      ∃ o, i.job = .generate o := by
    intro i h
    obtain rfl := Except.ok.inj (hargs.symm.trans h)
    exact ⟨surrogateOptions, rfl⟩
  obtain ⟨sketch, hdrawn, hsketch⟩ := drawn_surrogateSite
  obtain ⟨u, hu⟩ := Text.Utf8.encode_error_of_not hsketch
  obtain ⟨disk, hwrite, hfile⟩ := writeSketch_surrogateSite hu
  have hfolder : outputFolder surrogateSite surrogateOptions.out = .ok ⟨.root, ["o"]⟩ := rfl
  obtain ⟨events, hrun⟩ := run_stored hargs rfl hdrawn hfolder
  have hfailed : run surrogateSite surrogateArguments =
      failed disk (shown false events) (.notEncodable u) := by
    rw [hrun, hwrite, stored]
  obtain ⟨-, hdisk, -⟩ := failed_spec disk (shown false events) (.notEncodable u)
  refine ⟨all_or_nothing hhelp hjob, ?_, kindAt_surrogateSite, ?_⟩
  · rw [hfailed]
    exact failed_ending_ne disk _ _
  · rw [hfailed, hdisk]
    exact hfile

end FirmataSketch.Command
