import FirmataSketch.Proofs.Command.AllOrNothing
import FirmataSketch.Proofs.Sketch.Characters

/-! How commands end on files of any content. A selection file that is not read to its end, and a feature
without a name or an instance, let a failure through; else a command ends with a status. -/

namespace FirmataSketch

open Disk (PathName)
open Outcome (bind_ok exists_of_forall₂)
open Text (IsLine IsEncodable)

/-- The message of a failure shows the name of a feature as it is. -/
def Failure.Names (e : Failure) (name : String) : Prop :=
  e = .unknownFeature (.text name) ∨ e = .repeatedFeature (.text name)

theorem isLine_put_in {before name after : String} (hbefore : IsLine before) (hafter : IsLine after) :
    IsLine (before ++ name ++ after) ↔ IsLine name := by
  rw [Text.isLine_append, Text.isLine_append]
  exact ⟨fun h => h.1.2, fun h => ⟨⟨hbefore, h⟩, hafter⟩⟩

theorem Failure.Names.isLine_message_iff {e : Failure} {name : String} (h : e.Names name) :
    IsLine e.message ↔ ∀ other, e.Names other → IsLine other := by
  have hunknown (name : String) : (unknownFeature (.text name)).message =
      "Unknown feature '" ++ name ++ "': not found in the feature catalog" := rfl
  have hrepeated (name : String) : (repeatedFeature (.text name)).message =
      "Feature '" ++ name ++ "' is selected more than once" := rfl
  have hmessage : IsLine e.message ↔ IsLine name := by
    rcases h with rfl | rfl
    · rw [hunknown]
      exact isLine_put_in (by decide) (by decide)
    · rw [hrepeated]
      exact isLine_put_in (by decide) (by decide)
  have hsame : ∀ other, e.Names other → other = name := by
    rintro other (hother | hother) <;> rcases h with rfl | rfl <;> cases hother <;> rfl
  rw [hmessage]
  exact ⟨fun hline other hother => hsame other hother ▸ hline, fun hall => hall name h⟩

namespace Command

variable {s : Surroundings} {args : List String} {verbose : Bool} {o : GenerateOptions}
  {path : PathName} {e : Failure}

theorem drawn_shipped_error {m : Clock.Moment} (hcatalog : o.catalog = none)
    (hm : s.clock.momentOf none = .ok m) (h : (drawn s o).result = .error e) :
    (drawn s o).events = [] ∧ (openSelection s.disk o = .error e ∨
      (∃ selection, openSelection s.disk o = .ok selection) ∧ ∃ name, e.Names name) := by
  cases hopen : openSelection s.disk o with
  | error e' =>
    rw [drawn_shipped_of_error hcatalog hopen] at h ⊢
    obtain rfl := Except.error.inj h
    exact ⟨rfl, .inl rfl⟩
  | ok selection =>
    rw [drawn_shipped_of_ok hcatalog hopen] at h ⊢
    have hsketch : (selection.draft.sketch (Catalog.shippedIndex s.home) s.clock none).result =
        .error e := (Traced.andThen_error h).resolve_right fun ⟨sketch, _, h⟩ => nomatch h
    have hresolve : Plan.resolve (Catalog.shippedIndex s.home) (selection.features.map .text) =
        .error e := Draft.unresolved_of_sketch_error
      (fun hget => Catalog.shippedIndex_includable s.home hget) hm hsketch
    obtain ⟨name, -, hname⟩ := Plan.resolve_texts_error hresolve
    have hquiet : selection.draft.sketch (Catalog.shippedIndex s.home) s.clock none =
        ⟨[], .error e⟩ := Draft.sketch_of_unresolved hresolve
    rw [hquiet]
    exact ⟨rfl, .inr ⟨⟨selection, rfl⟩, name, hname⟩⟩

/-- A command line that asks for the sketch of a selection file, in surroundings that do not stand in
its way. -/
structure Opening (s : Surroundings) (args : List String) (verbose : Bool) (o : GenerateOptions)
    (path : PathName) : Prop where
  args : Invocation.ofArguments args = .ok ⟨verbose, .generate o⟩
  catalog : o.catalog = none
  selection : ∃ name, o.selection = some name ∧ PathName.ofText name = path
  noNull : path.hasNull = false
  clock : ∃ m, s.clock.momentOf none = .ok m ∧ IsEncodable m.zone.name
  folder : o.toStdout = false → ∃ folder, outputFolder s o.out = .ok folder ∧ folder.hasNull = false

/-- How such a command line ends. -/
inductive Opened (s : Surroundings) (o : GenerateOptions) (path : PathName) : Report → Prop
  | escaped {e : Failure} (hunread : Catalog.Unread s.disk path)
      (h : openSelection s.disk o = .error e) :
      Opened s o path { ending := .failure e, disk := s.disk }
  | refused {e : Failure} (hread : ¬ Catalog.Unread s.disk path) (h : (drawn s o).result = .error e)
      (hline : IsLine e.message ↔ ∀ name, e.Names name → IsLine name) :
      Opened s o path
        { ending := .exit 1, disk := s.disk, stderr := "Error: " ++ e.message ++ "\n" }
  | finished {r : Report} {selection : Selection} {sketch : Sketch} {status : Nat}
      (hread : ¬ Catalog.Unread s.disk path) (h : (drawn s o).result = .ok (selection, sketch))
      (hending : r.ending = .exit status) : Opened s o path r

theorem opened_of_drawn_error {verbose : Bool} (h : Opening s args verbose o path)
    (hdrawn : (drawn s o).result = .error e) : Opened s o path (failed s.disk "" e) := by
  obtain ⟨name, hname, rfl⟩ := h.selection
  obtain ⟨m, hm, -⟩ := h.clock
  have htaken := taken_openSelection (d := s.disk) hname h.noNull
  obtain ⟨-, hopen | ⟨⟨selection, hopen⟩, feature, hfeature⟩⟩ :=
    drawn_shipped_error h.catalog hm hdrawn
  · rw [hopen] at htaken
    cases htaken with
    | told hread hreported hline =>
      have hnamed : IsLine e.message ↔ ∀ name, e.Names name → IsLine name :=
        ⟨fun _ other hother => hother.isLine_message_iff.1 hline other hother, fun _ => hline⟩
      rw [failed, if_pos hreported]
      exact .refused hread hdrawn hnamed
    | silent hunread hreported =>
      rw [failed, if_neg (by simp [hreported])]
      exact .escaped hunread hopen
  · rw [hopen] at htaken
    cases htaken with
    | selection hread hword =>
      have hreported : e.isReported = true := by
        rcases hfeature with rfl | rfl <;> rfl
      rw [failed, if_pos hreported]
      exact .refused hread hdrawn hfeature.isLine_message_iff

theorem opened_of_drawn {r : Report} {selection : Selection} {sketch : Sketch} {status : Nat}
    (h : Opening s args verbose o path) (hdrawn : (drawn s o).result = .ok (selection, sketch))
    (hending : r.ending = .exit status) : Opened s o path r := by
  obtain ⟨name, hname, rfl⟩ := h.selection
  obtain ⟨index, hprepared, -⟩ := drawn_ok hdrawn
  obtain ⟨-, -, hopen, -⟩ := prepared_ok hprepared
  have htaken := taken_openSelection (d := s.disk) hname h.noNull
  rw [hopen] at htaken
  cases htaken with
  | selection hread hword => exact .finished hread hdrawn hending

theorem isEncodable_drawn {selection : Selection} {sketch : Sketch}
    (h : Opening s args verbose o path) (hdrawn : (drawn s o).result = .ok (selection, sketch)) :
    IsEncodable sketch.text := by
  obtain ⟨m, hm, hzone⟩ := h.clock
  obtain ⟨index, hprepared, hsketch⟩ := drawn_ok hdrawn
  obtain ⟨catalog, hcatalog, -, hindex⟩ := prepared_ok hprepared
  rw [h.catalog] at hcatalog
  obtain rfl : Catalog.shipped s.home = catalog := Except.ok.inj hcatalog
  obtain rfl := Except.ok.inj ((Catalog.shipped_index s.home).symm.trans hindex)
  exact Selection.isEncodable_sketch (acceptsWord_of_drawn hdrawn) hm hzone hsketch

/-- A sketch that can be encoded and has a place to go to is stored, or the refusal is told. -/
theorem exists_status_stored {selection : Selection} {sketch : Sketch} {folder : PathName}
    {events : List Event} (h : Opening s args verbose o path)
    (hdrawn : (drawn s o).result = .ok (selection, sketch)) (hnull : folder.hasNull = false) :
    ∃ status, (stored verbose events (s.disk.writeSketch folder (.text selection.filename)
      sketch.text)).ending = .exit status := by
  have hsaved := Disk.saved_writeSketch (acceptsWord_of_drawn hdrawn) s.disk folder sketch.text
  cases hwrite : s.disk.writeSketch folder (.text selection.filename) sketch.text with
  | mk disk result =>
    rw [hwrite] at hsaved
    cases hsaved with
    | refused hdisk he =>
      rcases he with ⟨hfolder, -⟩ | ⟨text, r, rfl⟩
      · rw [hnull] at hfolder
        cases hfolder
      · exact ⟨1, rfl⟩
    | emptied hdisk hfile hcontent => exact absurd (isEncodable_drawn h hdrawn) hcontent
    | saved hdisk hfile hcontent => exact ⟨0, rfl⟩

theorem opened_run (h : Opening s args verbose o path) : Opened s o path (run s args) := by
  have hcourse := course_runGenerate s verbose o
  rw [run_of_generate h.args]
  revert hcourse
  generalize runGenerate s verbose o = r
  intro hcourse
  cases hcourse with
  | failed hevents he =>
    rcases he with hdrawn | ⟨hprint, hfolder⟩
    · obtain ⟨m, hm, -⟩ := h.clock
      obtain ⟨hnil, -⟩ := drawn_shipped_error h.catalog hm hdrawn
      rw [hnil, List.prefix_nil] at hevents
      subst hevents
      exact opened_of_drawn_error h hdrawn
    · obtain ⟨folder, hplace, -⟩ := h.folder hprint
      rw [hfolder] at hplace
      cases hplace
  | printed hprint hdrawn => exact opened_of_drawn h hdrawn rfl
  | stored hprint hdrawn hfolder =>
    obtain ⟨folder, hplace, hnull⟩ := h.folder hprint
    obtain rfl := Except.ok.inj (hfolder.symm.trans hplace)
    obtain ⟨status, hstatus⟩ := exists_status_stored h hdrawn hnull
    exact opened_of_drawn h hdrawn hstatus

theorem Opened.exit_iff {r : Report} (h : Opened s o path r) :
    (∃ status, r.ending = .exit status) ↔ ¬ Catalog.Unread s.disk path := by
  cases h with
  | escaped hunread =>
    refine ⟨fun ⟨status, hstatus⟩ => ?_, fun hread => absurd hunread hread⟩
    cases hstatus
  | refused hread => exact ⟨fun _ => hread, fun _ => ⟨1, rfl⟩⟩
  | finished hread h hending => exact ⟨fun _ => hread, fun _ => ⟨_, hending⟩⟩

section Rows

variable {f : Feature} {fs : List Feature} {v : Value}

/-- What can be told apart can be a column, but for `null`. -/
theorem exists_column_iff (h : ∃ k, v.key? = some k) (width : Nat) :
    (∃ t, v.column width = .ok t) ↔ v ≠ .null := by
  obtain ⟨k, hk⟩ := h
  cases v with
  | null => simp [Value.column]
  | list items => cases hk
  | record fields => cases hk
  | _ => simp [Value.column]

theorem isLine_column {width : Nat} {t : String} (hv : IsLine v.display)
    (h : v.column width = .ok t) : IsLine t := by
  have hpad {u : String} (hu : IsLine u) : IsLine (Text.padRight width u) :=
    Text.isLine_append.2 ⟨hu, Text.isLine_spaces _⟩
  unfold Value.column at h
  split at h
  · cases h
    exact hpad hv
  · cases h
    refine hpad ?_
    split <;> decide
  · cases h
    exact hpad (Text.isClean_decimal _).1
  · cases h
    exact hpad (Number.Binary64.isClean_text _).1
  · cases h

theorem exists_row_iff (h : f.IsKeyed) :
    (∃ l, row f = .ok l) ↔ f.name ≠ .null ∧ f.instanceName ≠ .null := by
  have hname := exists_column_iff h.name 22
  have hinstance := exists_column_iff h.instanceName 14
  constructor
  · rintro ⟨l, hl⟩
    obtain ⟨name, hcolumn, hl⟩ := bind_ok hl
    obtain ⟨instanceName, hcolumn', -⟩ := bind_ok hl
    exact ⟨hname.1 ⟨name, hcolumn⟩, hinstance.1 ⟨instanceName, hcolumn'⟩⟩
  · rintro ⟨hfirst, hsecond⟩
    obtain ⟨name, hcolumn⟩ := hname.2 hfirst
    obtain ⟨instanceName, hcolumn'⟩ := hinstance.2 hsecond
    unfold row
    rw [hcolumn, hcolumn']
    exact ⟨_, rfl⟩

theorem isLine_row {l : String} (hname : IsLine f.name.display)
    (hinstance : IsLine f.instanceName.display) (h : row f = .ok l) : IsLine l := by
  have hflags : ∀ t ∈ flagsOf f, IsLine t := by
    have hcapability : ∀ c : Capability, IsLine c.name := fun c => by cases c <;> decide
    unfold flagsOf
    rw [List.forall_mem_append, List.forall_mem_append]
    refine ⟨⟨?_, ?_⟩, ?_⟩
    · split <;> simp +decide
    · split <;> simp +decide
    · split
      · simpa using hcapability _
      · exact fun t ht => nomatch ht
  obtain ⟨name, hcolumn, h⟩ := bind_ok h
  obtain ⟨instanceName, hcolumn', h⟩ := bind_ok h
  cases h
  simp only [Text.isLine_append]
  exact ⟨⟨⟨⟨isLine_column hname hcolumn, by decide⟩, isLine_column hinstance hcolumn'⟩, by decide⟩,
    Text.isLine_intercalate (by decide) hflags⟩

theorem rows_of_rows (h : ∀ f ∈ fs, ∃ l, row f = .ok l) :
    ∃ lines, rows fs = (lines, none) ∧ List.Forall₂ (fun f l => row f = .ok l) fs lines := by
  induction fs with
  | nil => exact ⟨[], rfl, .nil⟩
  | cons f fs ih =>
    rw [List.forall_mem_cons] at h
    obtain ⟨⟨l, hl⟩, hfs⟩ := h
    obtain ⟨lines, hlines, hall⟩ := ih hfs
    refine ⟨l :: lines, ?_, .cons hl hall⟩
    rw [rows, hl]
    simp only [hlines]

theorem rows_of_not_row (hf : f ∈ fs) (h : ¬ ∃ l, row f = .ok l) : ∃ m, (rows fs).2 = some m := by
  induction fs with
  | nil => cases hf
  | cons g fs ih =>
    rw [rows]
    cases hrow : row g with
    | error m => exact ⟨m, rfl⟩
    | ok l =>
      rcases List.mem_cons.1 hf with rfl | hf
      · exact absurd ⟨l, hrow⟩ h
      · exact ih hf

end Rows

variable {folder : String} {c : Catalog}

/-- The lines of the problems that come with the rows of a catalog. -/
def problemLines (c : Catalog) : String := Text.unlines (c.problems.map fun p => "  ! " ++ p.text)

theorem lines_problemLines (h : ∀ p ∈ c.problems, IsLine p.text) :
    Text.lines (problemLines c) = c.problems.map fun p => "  ! " ++ p.text := by
  refine Text.lines_unlines (List.forall_mem_map.2 fun p hp => ?_)
  exact Text.isLine_append.2 ⟨by decide, h p hp⟩

section Listing

variable (hargs : Invocation.ofArguments args = .ok ⟨verbose, .features ⟨some folder⟩⟩)
  (hload : Catalog.load s.disk (PathName.ofText folder) = .ok c)

include hargs hload

theorem run_listing {lines : List String} (h : rows c.features = (lines, none)) :
    run s args =
      { ending := .exit (if c.isOk then 0 else 1), disk := s.disk, stdout := Text.unlines lines
        stderr := shown verbose (c.problems.map .problem) ++ problemLines c } := by
  have hrun : run s args = runFeatures s verbose ⟨some folder⟩ := by
    rw [run, hargs]
    rfl
  rw [hrun, runFeatures, openCatalog_of_load hload, Traced.andThen_of_ok rfl]
  simp [h, reportOf, problemLines]

theorem run_unlisted {m : Misuse} (h : (rows c.features).2 = some m) :
    (run s args).ending = .failure (.misuse m) := by
  have hrun : run s args = runFeatures s verbose ⟨some folder⟩ := by
    rw [run, hargs]
    rfl
  rw [hrun, runFeatures, openCatalog_of_load hload, Traced.andThen_of_ok rfl]
  simp [h, reportOf]

/-- A catalog is listed exactly if all features have a name and an instance. -/
theorem listing_iff :
    (∃ status, (run s args).ending = .exit status) ↔
      ∀ f ∈ c.features, f.name ≠ .null ∧ f.instanceName ≠ .null := by
  have hrows : (∀ f ∈ c.features, f.name ≠ .null ∧ f.instanceName ≠ .null) ↔
      ∀ f ∈ c.features, ∃ l, row f = .ok l := forall₂_congr fun f hf =>
    (exists_row_iff (Catalog.isKeyed_of_load hload f hf)).symm
  rw [hrows]
  constructor
  · rintro ⟨status, hstatus⟩ f hf
    by_contra hno
    obtain ⟨m, hm⟩ := rows_of_not_row hf hno
    rw [run_unlisted hargs hload hm] at hstatus
    cases hstatus
  · intro h
    obtain ⟨lines, hlines, -⟩ := rows_of_rows h
    rw [run_listing hargs hload hlines]
    exact ⟨_, rfl⟩

end Listing

/-- A command line that generates a sketch from a selection file ends with a status unless the file is
not read to its end; if there is no sketch, the reason is one line. A command line that lists the
features of a catalog ends with a status unless a feature has no name or no instance; then there is one
row for each feature, and one line for each problem. -/
theorem endings (s : Surroundings) (args : List String) (verbose : Bool) :
    (∀ (o : GenerateOptions) (path : PathName), Opening s args verbose o path →
      ((∃ status, (run s args).ending = .exit status) ↔ ¬ Catalog.Unread s.disk path) ∧
      Opened s o path (run s args)) ∧
    ∀ (folder : String) (c : Catalog),
      Invocation.ofArguments args = .ok ⟨verbose, .features ⟨some folder⟩⟩ →
      Catalog.load s.disk (PathName.ofText folder) = .ok c →
      ((∃ status, (run s args).ending = .exit status) ↔
        ∀ f ∈ c.features, f.name ≠ .null ∧ f.instanceName ≠ .null) ∧
      ((∀ f ∈ c.features, f.name ≠ .null ∧ f.instanceName ≠ .null) →
        ∃ lines, List.Forall₂ (fun f l => row f = .ok l) c.features lines ∧
          run s args =
            { ending := .exit (if c.isOk then 0 else 1), disk := s.disk
              stdout := Text.unlines lines
              stderr := shown verbose (c.problems.map .problem) ++ problemLines c } ∧
          ((∀ f ∈ c.features, IsLine f.name.display ∧ IsLine f.instanceName.display) →
            Text.lines (run s args).stdout = lines) ∧
          ((∀ p ∈ c.problems, IsLine p.text) →
            Text.lines (problemLines c) = c.problems.map fun p => "  ! " ++ p.text)) := by
  refine ⟨fun o path h => ⟨(opened_run h).exit_iff, opened_run h⟩, ?_⟩
  intro folder c hargs hload
  refine ⟨listing_iff hargs hload, fun hnamed => ?_⟩
  have hrows : ∀ f ∈ c.features, ∃ l, row f = .ok l := fun f hf =>
    (exists_row_iff (Catalog.isKeyed_of_load hload f hf)).2 (hnamed f hf)
  obtain ⟨lines, hlines, hall⟩ := rows_of_rows hrows
  have hrun := run_listing hargs hload hlines
  refine ⟨lines, hall, hrun, fun hline => ?_, lines_problemLines⟩
  have hlinesAll : ∀ l ∈ lines, IsLine l := by
    intro l hl
    obtain ⟨f, hf, hrow⟩ := exists_of_forall₂ hall hl
    exact isLine_row (hline f hf).1 (hline f hf).2 hrow
  rw [hrun]
  exact Text.lines_unlines hlinesAll

/-- A selection file with a byte that is no UTF-8. -/
def undecodableSite : Surroundings := .holding [("sel.json", .file ⟨#[0xff]⟩)]

/-- A feature with `null` as its name. -/
def namelessSite : Surroundings := .holding
  [("c", .folder [("led.json", .file ("\x7b\"name\": null, \"class_name\": \"Led\", " ++
    "\"instance_name\": \"led\"\x7d").toUTF8)])]

theorem load_namelessSite : ∃ c, Catalog.load namelessSite.disk (PathName.ofText "c") = .ok c ∧
    ¬ ∀ f ∈ c.features, f.name ≠ .null ∧ f.instanceName ≠ .null := by
  have hfiles : Catalog.featureFiles namelessSite.disk (PathName.ofText "c") = .ok ["led.json"] :=
    Catalog.featureFiles_of_sorted (by decide) (by decide) (by decide)
  obtain ⟨c, hload, hlook⟩ := Catalog.exists_load_of_parts hfiles (by simp)
    (fun c => c.features.head?.map fun f => f.name.kind) (a := .null) (by decide +kernel)
  refine ⟨c, hload, fun hall => ?_⟩
  obtain ⟨f, hf, hkind⟩ := Option.map_eq_some_iff.1 hlook
  have hname := (hall f (List.mem_of_mem_head? hf)).1
  cases hvalue : f.name with
  | null => exact hname hvalue
  | _ =>
    rw [hvalue] at hkind
    cases hkind

/-- A byte in a selection file and a feature without a name each let a failure through. -/
theorem endings_escaped :
    (¬ ∃ status, (run undecodableSite ["generate", "--stdout", "--selection", "sel.json"]).ending =
      .exit status) ∧
    ¬ ∃ status, (run namelessSite ["features", "--catalog", "c"]).ending = .exit status := by
  constructor
  · have hopening : Opening undecodableSite ["generate", "--stdout", "--selection", "sel.json"] false
        { selection := some "sel.json", toStdout := true } (PathName.ofText "sel.json") :=
      ⟨rfl, rfl, ⟨"sel.json", rfl, rfl⟩, by decide, ⟨_, rfl, by decide⟩, fun h => nomatch h⟩
    have hdecode : Text.Utf8.decode ⟨#[0xff]⟩ = .error ⟨.start, 0, 0xff, []⟩ := by decide +kernel
    have hdocument : Catalog.readDocument ⟨#[0xff]⟩ =
        .error (.notUtf8 ⟨.start, 0, 0xff, []⟩) := by
      rw [Catalog.readDocument, hdecode]
      rfl
    have hunread : Catalog.Unread undecodableSite.disk (PathName.ofText "sel.json") :=
      .notUtf8 rfl hdocument
    obtain ⟨hgenerate, -⟩ :=
      endings undecodableSite ["generate", "--stdout", "--selection", "sel.json"] false
    obtain ⟨hexit, -⟩ := hgenerate _ _ hopening
    rw [hexit]
    exact not_not_intro hunread
  · obtain ⟨c, hload, hnull⟩ := load_namelessSite
    obtain ⟨-, hfeatures⟩ := endings namelessSite ["features", "--catalog", "c"] false
    obtain ⟨hexit, -⟩ := hfeatures "c" c rfl hload
    rw [hexit]
    exact hnull

end Command

end FirmataSketch
