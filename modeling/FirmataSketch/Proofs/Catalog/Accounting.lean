import FirmataSketch.Proofs.Catalog.Loading
import FirmataSketch.Proofs.Command.Steps
import FirmataSketch.Proofs.Feature.NormalForm

/-! Accounting: every feature file of a folder shows in the catalog, in the order of the names: with
its feature, or with one problem from the first stage of its reading that failed. Nothing else shows,
and the order in which the folder lists its entries does not. -/

namespace FirmataSketch.Catalog

open Disk (PathName)
open Outcome (bind_error mapError_error mapM_ok_iff mapM_congr mapM_error)

/-- The stages in which a feature file is read. -/
inductive Stage where
  | file
  | json
  | parse

def Stage.field : Stage → String
  | .file => "file"
  | .json => "json"
  | .parse => "parse"

/-- The first stage in which the reading of a file fails. -/
def failedStage? (d : Disk) (path : PathName) : Option Stage :=
  match d.readFile path with
  | .error _ => some .file
  | .ok bytes => match readDocument bytes with
    | .error _ => some .json
    | .ok v => match Feature.ofValue path.text v with
      | .error _ => some .parse
      | .ok _ => none

variable {d : Disk} {path folder : PathName} {stem name : String}

/-- What a file adds to a catalog: its feature with what is wrong with that, or one problem of the
first stage that failed. -/
inductive Adds (d : Disk) (path : PathName) (stem : String) : Option Feature × List Problem → Prop
  | feature {f : Feature} {ps : List Problem} (hf : feature? d path = some f)
      (hstage : failedStage? d path = none) (hps : f.problems = .ok ps) : Adds d path stem (some f, ps)
  | problem {p : Problem} {stage : Stage} (hf : feature? d path = none)
      (hstage : failedStage? d path = some stage) (hp : Reports d path stem p)
      (hfield : p.defect.field = stage.field) : Adds d path stem (none, [p])

theorem exists_document {v : Value} (h : document? d path = some v) :
    ∃ bytes, d.readFile path = .ok bytes ∧ readDocument bytes = .ok v := by
  obtain ⟨bytes, hbytes, hv⟩ := Option.bind_eq_some_iff.1 h
  exact ⟨bytes, Outcome.ok_of_toOption hbytes, Outcome.ok_of_toOption hv⟩

theorem exists_ofValue {f : Feature} (h : feature? d path = some f) :
    ∃ v, document? d path = some v ∧ Feature.ofValue path.text v = .ok f := by
  obtain ⟨v, hv, hf⟩ := Option.bind_eq_some_iff.1 h
  exact ⟨v, hv, Outcome.ok_of_toOption hf⟩

theorem failedStage?_of_feature {f : Feature} (h : feature? d path = some f) :
    failedStage? d path = none := by
  obtain ⟨v, hv, hf⟩ := exists_ofValue h
  obtain ⟨bytes, hbytes, hdocument⟩ := exists_document hv
  simp only [failedStage?, hbytes, hdocument, hf]

theorem failedStage?_of_reports {p : Problem} (h : Reports d path stem p) :
    ∃ stage, failedStage? d path = some stage ∧ p.defect.field = stage.field := by
  cases h with
  | unreadable hread => exact ⟨.file, by simp only [failedStage?, hread], rfl⟩
  | notJson hread hbytes => exact ⟨.json, by simp only [failedStage?, hread, hbytes], rfl⟩
  | misshapen hv hm =>
    obtain ⟨bytes, hread, hbytes⟩ := exists_document hv
    exact ⟨.parse, by simp only [failedStage?, hread, hbytes, hm], rfl⟩

theorem adds_of_contribution {part : Option Feature × List Problem}
    (h : contribution d folder name = .ok part) :
    Adds d (folder.child name) (Disk.stem name) part := by
  obtain ⟨hfeature, hproblem⟩ := contribution_spec h
  obtain ⟨feature, ps⟩ := part
  cases feature with
  | none =>
    obtain ⟨p, hp, rfl⟩ := hproblem rfl
    obtain ⟨stage, hstage, hfield⟩ := failedStage?_of_reports hp
    exact .problem hfeature.symm hstage hp hfield
  | some f => exact .feature hfeature.symm (failedStage?_of_feature hfeature.symm) (contribution_ok h)

theorem source_of_feature {f : Feature} (h : feature? d path = some f) : f.source = path.text := by
  obtain ⟨v, -, hf⟩ := exists_ofValue h
  exact Feature.source_of_ofValue hf

/-- What holds of a catalog that was loaded from some feature files. -/
structure Accounts (d : Disk) (folder : PathName) (files : List String) (c : Catalog) : Prop where
  features : c.features = files.filterMap fun name => feature? d (folder.child name)
  sources : ∀ name f, feature? d (folder.child name) = some f → f.source = (folder.child name).text
  problems : ∃ parts between,
    List.Forall₂ (fun name => Adds d (folder.child name) (Disk.stem name)) files parts ∧
      clashes c.features = .ok between ∧ c.problems = parts.flatMap Prod.snd ++ between
  ok_iff : c.isOk = true ↔ c.problems = []
  told : ∀ s text, s.disk = d → PathName.ofText text = folder →
    (Command.openCatalog s (some text)).events.map Event.line =
      c.problems.map fun p => "WARNING firmatabuilder.catalog: Catalog problem: " ++ p.text

variable {files : List String} {c : Catalog}

theorem accounts_of_load (hfiles : featureFiles d folder = .ok files) (hne : files ≠ [])
    (h : load d folder = .ok c) : Accounts d folder files c := by
  obtain ⟨parts, between, hparts, hbetween, hc⟩ := (load_ok_iff_parts hfiles hne).1 h
  refine ⟨?_, fun name f => source_of_feature, ⟨parts, between, ?_, ?_, ?_⟩, List.isEmpty_iff, ?_⟩
  · rw [hc, features_of_parts hparts]
  · exact (mapM_ok_iff.1 hparts).imp fun name part => adds_of_contribution
  · rw [hc, hbetween]
  · rw [hc]
  · rintro s text rfl rfl
    rw [Command.openCatalog_of_load h, List.map_map]
    rfl

/-- What a file ends the loading with is none of the failures that the builder itself raises. -/
theorem contribution_error {e : Failure} (h : contribution d folder name = .error e) :
    e.isOwn = false := by
  rcases bind_error h with h | ⟨read, -, h⟩
  · unfold readFeature at h
    split at h
    · cases h
    · split at h
      · cases h
      next hdocument =>
        cases h
        rcases readDocument_error hdocument with ⟨f, rfl⟩ | ⟨r, rfl⟩ <;> rfl
      · split at h <;> cases h
  · cases read with
    | error p => cases h
    | ok f =>
      rcases bind_error h with h | ⟨ps, -, h⟩
      · obtain ⟨m, -, rfl⟩ := mapError_error h
        rfl
      · cases h

theorem load_error {e : Failure} (hfiles : featureFiles d folder = .ok files) (hne : files ≠ [])
    (h : load d folder = .error e) : e.isOwn = false := by
  rw [load_of_files hfiles hne] at h
  rcases bind_error h with h | ⟨parts, -, h⟩
  · obtain ⟨name, -, h⟩ := mapM_error h
    exact contribution_error h
  · rcases bind_error h with h | ⟨between, -, h⟩
    · obtain ⟨m, -, rfl⟩ := mapError_error h
      rfl
    · cases h

theorem load_of_no_files (hfiles : featureFiles d folder = .ok []) :
    load d folder = .error (.emptyCatalog folder.text) := by
  rw [load, hfiles]
  rfl

theorem emptyCatalog_iff (hfiles : featureFiles d folder = .ok files) :
    (∃ t, load d folder = .error (.emptyCatalog t)) ↔ files = [] := by
  constructor
  · rintro ⟨t, h⟩
    by_contra hne
    cases load_error hfiles hne h
  · rintro rfl
    exact ⟨folder.text, load_of_no_files hfiles⟩

/-- The feature files are those entries of the folder, in the order of the names. -/
theorem featureFiles_spec {entries : List String} (h : d.entryNames folder = .ok entries) :
    ∃ files, featureFiles d folder = .ok files ∧ files.Perm (entries.filter isFeatureFile) ∧
      files.Pairwise (· ≤ ·) := by
  refine ⟨_, by rw [featureFiles, h]; rfl, List.mergeSort_perm _ _, ?_⟩
  have htrans (a b c : String) (hab : decide (a ≤ b) = true) (hbc : decide (b ≤ c) = true) :
      decide (a ≤ c) = true :=
    decide_eq_true (String.le_trans (of_decide_eq_true hab) (of_decide_eq_true hbc))
  have htotal (a b : String) : (decide (a ≤ b) || decide (b ≤ a)) = true := by
    simpa using String.le_total a b
  simpa using List.pairwise_mergeSort htrans htotal (entries.filter isFeatureFile)

/-- The feature files do not depend on the order of the entries, nor on the other entries. -/
theorem featureFiles_congr {d' : Disk} {entries entries' : List String}
    (h : d.entryNames folder = .ok entries) (h' : d'.entryNames folder = .ok entries')
    (hperm : (entries'.filter isFeatureFile).Perm (entries.filter isFeatureFile)) :
    featureFiles d' folder = featureFiles d folder := by
  obtain ⟨files, hfiles, hfilesPerm, hsorted⟩ := featureFiles_spec h
  obtain ⟨files', hfiles', hfilesPerm', hsorted'⟩ := featureFiles_spec h'
  have hsame : files'.Perm files := hfilesPerm'.trans (hperm.trans hfilesPerm.symm)
  rw [hfiles, hfiles', hsame.eq_of_pairwise (fun a b _ _ => String.le_antisymm) hsorted' hsorted]

theorem load_congr {d' : Disk} (hfiles : featureFiles d folder = .ok files)
    (hfiles' : featureFiles d' folder = .ok files)
    (hread : ∀ name ∈ files, d'.readFile (folder.child name) = d.readFile (folder.child name)) :
    load d' folder = load d folder := by
  rw [load, load, hfiles, hfiles']
  have hparts : files.mapM (contribution d' folder) = files.mapM (contribution d folder) :=
    mapM_congr fun name hname => contribution_congr (hread name hname)
  simp only [Except.mapError, bind, Except.bind, hparts]

/-- Of a folder, the feature files count alone, and each of them is accounted for in the order of their
names. There is no catalog for want of a feature file, and for want of nothing else that the builder
itself tells. -/
theorem load_accounts {entries : List String} (hentries : d.entryNames folder = .ok entries) :
    ∃ files, files.Perm (entries.filter isFeatureFile) ∧ files.Pairwise (· ≤ ·) ∧
      ((∃ t, load d folder = .error (.emptyCatalog t)) ↔ files = []) ∧
      (∀ c, load d folder = .ok c → Accounts d folder files c) ∧
      ∀ d' entries', d'.entryNames folder = .ok entries' →
        (entries'.filter isFeatureFile).Perm (entries.filter isFeatureFile) →
        (∀ name ∈ files, d'.readFile (folder.child name) = d.readFile (folder.child name)) →
        load d' folder = load d folder := by
  obtain ⟨files, hfiles, hperm, hsorted⟩ := featureFiles_spec hentries
  refine ⟨files, hperm, hsorted, emptyCatalog_iff hfiles, fun c hc => ?_, ?_⟩
  · refine accounts_of_load hfiles (fun hnone => ?_) hc
    obtain ⟨t, ht⟩ := (emptyCatalog_iff hfiles).2 hnone
    cases ht.symm.trans hc
  · intro d' entries' hentries' hsame hread
    exact load_congr hfiles ((featureFiles_congr hentries hentries' hsame).trans hfiles) hread

/-- A folder that lists a note and the files of two features, the last one first. -/
def notedFiles (fan led : ByteArray) : Disk :=
  ⟨.folder [("notes.txt", .file fan), ("led.json", .file led), ("fan.json", .file fan)], []⟩

/-- The fragment of a feature is told of as such, and neither the note nor the order of the entries makes
a difference. -/
theorem load_accounts_notedFiles :
    ∃ c, load (notedFiles "\x7b".toUTF8 ledFile) ⟨.root, []⟩ = .ok c ∧
      load (twoFiles "\x7b".toUTF8 ledFile) ⟨.root, []⟩ = .ok c ∧
      c.features.length = 1 ∧ c.problems.map (·.defect.field) = ["json"] ∧
      Accounts (notedFiles "\x7b".toUTF8 ledFile) ⟨.root, []⟩ ["fan.json", "led.json"] c := by
  have hentries : (notedFiles "\x7b".toUTF8 ledFile).entryNames ⟨.root, []⟩ =
      .ok ["notes.txt", "led.json", "fan.json"] := rfl
  obtain ⟨files, hperm, hsorted, -, haccounts, hcongr⟩ := load_accounts hentries
  have hfilter : ["notes.txt", "led.json", "fan.json"].filter isFeatureFile =
      ["led.json", "fan.json"] := by decide
  have hswap : ["fan.json", "led.json"].Perm ["led.json", "fan.json"] := List.Perm.swap _ _ _
  rw [hfilter] at hperm hcongr
  obtain rfl : files = ["fan.json", "led.json"] :=
    (hperm.trans hswap.symm).eq_of_pairwise (fun a b _ _ => String.le_antisymm) hsorted
      (by decide)
  have hsame := hcongr (twoFiles "\x7b".toUTF8 ledFile) ["fan.json", "led.json"] rfl
    (by rwa [List.filter_eq_self.2 (by decide)])
    (by simp only [List.forall_mem_cons]; exact ⟨rfl, rfl, fun _ h => nomatch h⟩)
  obtain ⟨c, hload, hlook⟩ := exists_load_of_parts (featureFiles_twoFiles "\x7b".toUTF8 ledFile)
    (by simp) (fun c => some (c.features.length, c.problems.map (·.defect.field))) (a := (1, ["json"]))
    (by decide +kernel)
  obtain ⟨hone, hfield⟩ := Prod.mk.inj (Option.some.inj hlook)
  exact ⟨c, hsame ▸ hload, hload, hone, hfield, haccounts c (hsame ▸ hload)⟩

end FirmataSketch.Catalog
