import FirmataSketch.Command.Run
import FirmataSketch.Proofs.Sketch.Drawing

/-! The steps of the command that generates sketches: it opens the catalog and the selection, draws
the sketch, and prints or stores it. Each step ends the command if it fails. -/

namespace FirmataSketch

open Disk (PathName)
open Outcome (bind_ok bind_error mapError_ok)

namespace Traced

variable {α β : Type} {t : Traced α} {f : α → Traced β}

theorem andThen_of_error {e : Failure} (h : t.result = .error e) :
    t.andThen f = ⟨t.events, .error e⟩ := by
  unfold andThen
  rw [h]

theorem andThen_of_ok {a : α} (h : t.result = .ok a) :
    t.andThen f = ⟨t.events ++ (f a).events, (f a).result⟩ := by
  unfold andThen
  rw [h]

theorem result_andThen : (t.andThen f).result = t.result >>= fun a => (f a).result := by
  cases ht : t.result with
  | error e =>
    rw [andThen_of_error ht]
    rfl
  | ok a =>
    rw [andThen_of_ok ht]
    rfl

theorem andThen_ok {b : β} (h : (t.andThen f).result = .ok b) :
    ∃ a, t.result = .ok a ∧ (f a).result = .ok b := bind_ok (result_andThen ▸ h)

theorem andThen_error {e : Failure} (h : (t.andThen f).result = .error e) :
    t.result = .error e ∨ ∃ a, t.result = .ok a ∧ (f a).result = .error e :=
  bind_error (result_andThen ▸ h)

theorem events_andThen_quiet (h : ∀ a, (f a).events = []) : (t.andThen f).events = t.events := by
  cases ht : t.result with
  | error e => rw [andThen_of_error ht]
  | ok a => rw [andThen_of_ok ht, h, List.append_nil]

theorem ok_andThen (a : α) : Traced.andThen ⟨[], .ok a⟩ f = f a := andThen_of_ok rfl

theorem andThen_assoc {γ : Type} (t : Traced α) (f : α → Traced β) (g : β → Traced γ) :
    (t.andThen f).andThen g = t.andThen fun a => (f a).andThen g := by
  cases ht : t.result with
  | error e => rw [andThen_of_error ht, andThen_of_error ht, andThen_of_error rfl]
  | ok a =>
    rw [andThen_of_ok ht, andThen_of_ok ht]
    cases hf : (f a).result with
    | error e => rw [andThen_of_error rfl, andThen_of_error hf]
    | ok b =>
      rw [andThen_of_ok rfl, andThen_of_ok hf]
      simp only [List.append_assoc]

end Traced

namespace Command

/-- The index and the selection that a sketch is drawn from. -/
def prepared (s : Surroundings) (o : GenerateOptions) : Traced (Index × Selection) :=
  (openCatalog s o.catalog).andThen fun catalog =>
    Traced.andThen (.ofExcept (openSelection s.disk o)) fun selection =>
      Traced.andThen (.ofExcept (catalog.index.mapError .misuse)) fun index =>
        ⟨[], .ok (index, selection)⟩

/-- The selection and its sketch. -/
def drawn (s : Surroundings) (o : GenerateOptions) : Traced (Selection × Sketch) :=
  (prepared s o).andThen fun p =>
    (p.2.draft.sketch p.1 s.clock none).andThen fun sketch => ⟨[], .ok (p.2, sketch)⟩

/-- The index and the selection, and the folder in which the sketch is stored. -/
def placed (s : Surroundings) (o : GenerateOptions) : Traced ((Index × Selection) × PathName) :=
  (prepared s o).andThen fun p =>
    Traced.andThen (.ofExcept (outputFolder s o.out)) fun folder => ⟨[], .ok (p, folder)⟩

/-- A command that failed: it tells the reason, or lets it through. -/
def failed (disk : Disk) (log : String) (e : Failure) : Report :=
  if e.isReported then { ending := .exit 1, disk, stderr := log ++ "Error: " ++ e.message ++ "\n" }
  else { ending := .failure e, disk, stderr := log }

/-- A command that stored a sketch, or failed to. -/
def stored (verbose : Bool) (events : List Event) : Disk × Except Failure PathName → Report
  | (disk, .ok path) =>
    { ending := .exit 0, disk, stdout := "✅ Generated sketch: " ++ path.text ++ "\n"
      stderr := shown verbose (events ++ [.written path.text]) }
  | (disk, .error e) => failed disk (shown verbose events) e

variable {s : Surroundings} {verbose : Bool} {o : GenerateOptions} {selection : Selection}
  {sketch : Sketch} {folder : PathName} {e : Failure}

theorem failed_spec (disk : Disk) (log : String) (e : Failure) :
    (failed disk log e).stdout = "" ∧ (failed disk log e).disk = disk ∧
      (failed disk log e).ending = if e.isReported then .exit 1 else .failure e := by
  unfold failed
  cases e.isReported <;> exact ⟨rfl, rfl, rfl⟩

theorem failed_ending_ne (disk : Disk) (log : String) (e : Failure) :
    (failed disk log e).ending ≠ .exit 0 := by
  rw [(failed_spec disk log e).2.2]
  cases e.isReported <;> exact fun h => nomatch h

theorem reportOf_of_error {t : Traced Report} (disk : Disk) (h : t.result = .error e) :
    reportOf verbose disk t = failed disk (shown verbose t.events) e := by
  unfold reportOf failed
  rw [h]

theorem prepared_ok {index : Index} (h : (prepared s o).result = .ok (index, selection)) :
    ∃ catalog, (openCatalog s o.catalog).result = .ok catalog ∧
      openSelection s.disk o = .ok selection ∧ catalog.index = .ok index := by
  obtain ⟨catalog, hcatalog, h⟩ := Traced.andThen_ok h
  obtain ⟨selection', hselection, h⟩ := Traced.andThen_ok h
  obtain ⟨index', hindex, h⟩ := Traced.andThen_ok h
  cases h
  exact ⟨catalog, hcatalog, hselection, mapError_ok hindex⟩

theorem drawn_ok (h : (drawn s o).result = .ok (selection, sketch)) :
    ∃ index, (prepared s o).result = .ok (index, selection) ∧
      (selection.draft.sketch index s.clock none).result = .ok sketch := by
  obtain ⟨⟨index, selection'⟩, hprepared, h⟩ := Traced.andThen_ok h
  obtain ⟨sketch', hsketch, h⟩ := Traced.andThen_ok h
  cases h
  exact ⟨index, hprepared, hsketch⟩

theorem drawn_of_ok {catalog : Catalog} {index : Index}
    (hcatalog : (openCatalog s o.catalog).result = .ok catalog)
    (hselection : openSelection s.disk o = .ok selection) (hindex : catalog.index = .ok index)
    (hsketch : (selection.draft.sketch index s.clock none).result = .ok sketch) :
    (drawn s o).result = .ok (selection, sketch) := by
  have hprepared : (prepared s o).result = .ok (index, selection) := by
    unfold prepared
    rw [Traced.andThen_of_ok hcatalog, hselection, hindex]
    rfl
  unfold drawn
  rw [Traced.andThen_of_ok hprepared]
  dsimp only
  rw [Traced.andThen_of_ok hsketch]

theorem openCatalog_of_load {folder : String} {catalog : Catalog}
    (h : Catalog.load s.disk (PathName.ofText folder) = .ok catalog) :
    openCatalog s (some folder) = ⟨catalog.problems.map .problem, .ok catalog⟩ := by
  have hopen : openCatalog s (some folder) =
      Traced.andThen (.ofExcept (Catalog.load s.disk (PathName.ofText folder))) tellProblems := rfl
  rw [hopen, h]
  rfl

section Shipped

variable (hcatalog : o.catalog = none)

include hcatalog

/-- The shipped catalog is not read from a disk, and nothing is told about it. -/
theorem drawn_shipped : drawn s o =
    Traced.andThen (.ofExcept (openSelection s.disk o)) fun selection =>
      (selection.draft.sketch (Catalog.shippedIndex s.home) s.clock none).andThen fun sketch =>
        ⟨[], .ok (selection, sketch)⟩ := by
  have hopen : openCatalog s o.catalog = ⟨[], .ok (Catalog.shipped s.home)⟩ := by
    rw [hcatalog]
    rfl
  have hindex : Traced.ofExcept ((Catalog.shipped s.home).index.mapError Failure.misuse) =
      ⟨[], .ok (Catalog.shippedIndex s.home)⟩ := by
    rw [Catalog.shipped_index]
    rfl
  simp only [drawn, prepared, hopen, hindex, Traced.ok_andThen, Traced.andThen_assoc]

theorem drawn_shipped_of_error (h : openSelection s.disk o = .error e) :
    drawn s o = ⟨[], .error e⟩ := by
  rw [drawn_shipped hcatalog, h]
  rfl

theorem drawn_shipped_of_ok (h : openSelection s.disk o = .ok selection) : drawn s o =
    (selection.draft.sketch (Catalog.shippedIndex s.home) s.clock none).andThen fun sketch =>
      ⟨[], .ok (selection, sketch)⟩ := by
  have hselection : Traced.ofExcept (openSelection s.disk o) = ⟨[], .ok selection⟩ := by
    rw [h]
    rfl
  rw [drawn_shipped hcatalog, hselection, Traced.ok_andThen]

/-- With the shipped catalog, the selection alone decides. -/
theorem drawn_shipped_result :
    (drawn s o).result = Selection.drawn s.home s.clock (openSelection s.disk o) := by
  rw [drawn_shipped hcatalog]
  simp only [Traced.result_andThen]
  rfl

end Shipped

section Printing

variable (hstdout : o.toStdout = true)

include hstdout

theorem runGenerate_printing : runGenerate s verbose o = reportOf verbose s.disk
    ((drawn s o).andThen fun p =>
      ⟨[], .ok { ending := .exit 0, disk := s.disk, stdout := p.2.text }⟩) := by
  have hdrawn : ((drawn s o).andThen fun p =>
      (⟨[], .ok { ending := .exit 0, disk := s.disk, stdout := p.2.text }⟩ : Traced Report)) =
      (prepared s o).andThen fun p => (p.2.draft.sketch p.1 s.clock none).andThen fun sketch =>
        ⟨[], .ok { ending := .exit 0, disk := s.disk, stdout := sketch.text }⟩ := by
    simp only [drawn, Traced.andThen_assoc, Traced.ok_andThen]
  rw [hdrawn, runGenerate, if_pos hstdout]
  rfl

theorem runGenerate_printed (h : (drawn s o).result = .ok (selection, sketch)) :
    runGenerate s verbose o =
      { ending := .exit 0, disk := s.disk, stdout := sketch.text
        stderr := shown verbose (drawn s o).events } := by
  rw [runGenerate_printing hstdout, Traced.andThen_of_ok h]
  simp [reportOf]

theorem runGenerate_unprinted (h : (drawn s o).result = .error e) :
    runGenerate s verbose o = failed s.disk (shown verbose (drawn s o).events) e := by
  rw [runGenerate_printing hstdout, Traced.andThen_of_error h]
  exact reportOf_of_error s.disk rfl

end Printing

theorem placed_of_ok {p : Index × Selection} (h : (prepared s o).result = .ok p)
    (hfolder : outputFolder s o.out = .ok folder) :
    placed s o = ⟨(prepared s o).events, .ok (p, folder)⟩ := by
  unfold placed
  rw [Traced.andThen_of_ok h, hfolder]
  simp [Traced.ofExcept, Traced.ok_andThen]

section Storing

variable (hstdout : o.toStdout = false)

include hstdout

theorem runGenerate_storing : runGenerate s verbose o =
    match (placed s o).result with
    | .error e => reportOf verbose s.disk ⟨(placed s o).events, .error e⟩
    | .ok ((index, selection), folder) =>
      let (disk, saved) := selection.draft.save index s.clock none s.disk folder
      reportOf verbose disk (((placed s o).andThen fun _ => saved).andThen fun path =>
        ⟨[], .ok { ending := .exit 0, disk
                   stdout := "✅ Generated sketch: " ++ path.text ++ "\n" }⟩) := by
  rw [runGenerate, hstdout, if_neg Bool.false_ne_true]
  rfl

theorem runGenerate_unplaced (h : (placed s o).result = .error e) :
    runGenerate s verbose o = failed s.disk (shown verbose (placed s o).events) e := by
  rw [runGenerate_storing hstdout, h]
  exact reportOf_of_error s.disk rfl

theorem runGenerate_undrawn {index : Index} (h : (prepared s o).result = .ok (index, selection))
    (hfolder : outputFolder s o.out = .ok folder)
    (hsketch : (selection.draft.sketch index s.clock none).result = .error e) :
    runGenerate s verbose o = failed s.disk (shown verbose (drawn s o).events) e := by
  have hdrawn : (drawn s o).events =
      (prepared s o).events ++ (selection.draft.sketch index s.clock none).events := by
    unfold drawn
    rw [Traced.andThen_of_ok h, Traced.andThen_of_error hsketch]
  have hsave : selection.draft.save index s.clock none s.disk folder =
      (s.disk, ⟨(selection.draft.sketch index s.clock none).events, .error e⟩) := by
    unfold Draft.save Draft.generate
    rw [Traced.andThen_of_error hsketch]
  rw [runGenerate_storing hstdout, placed_of_ok h hfolder, hdrawn]
  simp only [hsave]
  exact reportOf_of_error s.disk rfl

theorem runGenerate_stored (h : (drawn s o).result = .ok (selection, sketch))
    (hfolder : outputFolder s o.out = .ok folder) :
    runGenerate s verbose o = stored verbose
      ((drawn s o).events ++ [.generated selection.sketchFilename selection.features.length
        sketch.text.length])
      (s.disk.writeSketch folder (.text selection.filename) sketch.text) := by
  obtain ⟨index, hprepared, hsketch⟩ := drawn_ok h
  have hdrawn : (drawn s o).events =
      (prepared s o).events ++ (selection.draft.sketch index s.clock none).events := by
    unfold drawn
    rw [Traced.andThen_of_ok hprepared, Traced.andThen_of_ok hsketch]
    simp
  have hgenerate : selection.draft.generate index s.clock none =
      ⟨(selection.draft.sketch index s.clock none).events ++
        [.generated selection.sketchFilename selection.features.length sketch.text.length],
        .ok sketch.text⟩ := by
    unfold Draft.generate
    rw [Traced.andThen_of_ok hsketch]
    simp [Selection.draft, Selection.sketchFilename, Draft.sketchFilename, Value.display]
  rw [runGenerate_storing hstdout, placed_of_ok hprepared hfolder, hdrawn]
  unfold Draft.save Disk.saveSketch
  have hname : selection.draft.filename = .text selection.filename := rfl
  simp only [hgenerate, hname]
  cases s.disk.writeSketch folder (.text selection.filename) sketch.text with
  | mk disk saved =>
    cases saved with
    | error e =>
      rw [stored, ← reportOf_of_error disk (t := ⟨_, .error e⟩) rfl]
      simp [Traced.andThen]
    | ok path => simp [reportOf, stored, Traced.andThen]

end Storing

theorem drawn_of_unprepared (h : (prepared s o).result = .error e) :
    drawn s o = ⟨(prepared s o).events, .error e⟩ := Traced.andThen_of_error h

/-- How the command ends: with a reason that it came upon on the way, or with the sketch. -/
inductive Course (s : Surroundings) (verbose : Bool) (o : GenerateOptions) : Report → Prop
  | failed {events : List Event} {e : Failure} (hevents : events <+: (drawn s o).events)
      (h : (drawn s o).result = .error e ∨ o.toStdout = false ∧ outputFolder s o.out = .error e) :
      Course s verbose o (Command.failed s.disk (shown verbose events) e)
  | printed {selection : Selection} {sketch : Sketch} (hstdout : o.toStdout = true)
      (h : (drawn s o).result = .ok (selection, sketch)) :
      Course s verbose o { ending := .exit 0, disk := s.disk, stdout := sketch.text
                           stderr := shown verbose (drawn s o).events }
  | stored {selection : Selection} {sketch : Sketch} {folder : PathName}
      (hstdout : o.toStdout = false) (h : (drawn s o).result = .ok (selection, sketch))
      (hfolder : outputFolder s o.out = .ok folder) :
      Course s verbose o (Command.stored verbose
        ((drawn s o).events ++ [.generated selection.sketchFilename selection.features.length
          sketch.text.length])
        (s.disk.writeSketch folder (.text selection.filename) sketch.text))

theorem course_unprepared (h : (prepared s o).result = .error e) :
    Course s verbose o (failed s.disk (shown verbose (prepared s o).events) e) := by
  have hevents : (drawn s o).events = (prepared s o).events :=
    congrArg Traced.events (drawn_of_unprepared h)
  have hresult : (drawn s o).result = .error e := congrArg Traced.result (drawn_of_unprepared h)
  exact .failed (hevents ▸ List.prefix_rfl) (.inl hresult)

theorem course_storing (hstdout : o.toStdout = false) :
    Course s verbose o (runGenerate s verbose o) := by
  cases hprepared : (prepared s o).result with
  | error e =>
    have hplaced : placed s o = ⟨(prepared s o).events, .error e⟩ := Traced.andThen_of_error hprepared
    rw [runGenerate_unplaced hstdout (congrArg Traced.result hplaced), hplaced]
    exact course_unprepared hprepared
  | ok p =>
    obtain ⟨index, selection⟩ := p
    have hdrawn : drawn s o = ⟨(prepared s o).events ++ _, _⟩ := Traced.andThen_of_ok hprepared
    cases hfolder : outputFolder s o.out with
    | error e =>
      have hplaced : placed s o = ⟨(prepared s o).events, .error e⟩ := by
        unfold placed
        rw [Traced.andThen_of_ok hprepared, hfolder]
        simp [Traced.ofExcept, Traced.andThen]
      rw [runGenerate_unplaced hstdout (congrArg Traced.result hplaced), hplaced]
      refine .failed ?_ (.inr ⟨hstdout, hfolder⟩)
      rw [hdrawn]
      exact List.prefix_append _ _
    | ok folder =>
      cases hsketch : (selection.draft.sketch index s.clock none).result with
      | error e =>
        rw [runGenerate_undrawn hstdout hprepared hfolder hsketch]
        refine .failed List.prefix_rfl (.inl ?_)
        rw [hdrawn]
        simp [Traced.andThen_of_error hsketch]
      | ok sketch =>
        have hresult : (drawn s o).result = .ok (selection, sketch) := by
          rw [hdrawn]
          simp [Traced.andThen_of_ok hsketch]
        rw [runGenerate_stored hstdout hresult hfolder]
        exact .stored hstdout hresult hfolder

theorem course_runGenerate (s : Surroundings) (verbose : Bool) (o : GenerateOptions) :
    Course s verbose o (runGenerate s verbose o) := by
  cases hstdout : o.toStdout with
  | false => exact course_storing hstdout
  | true =>
    cases h : (drawn s o).result with
    | error e =>
      rw [runGenerate_unprinted hstdout h]
      exact .failed List.prefix_rfl (.inl h)
    | ok p =>
      rw [runGenerate_printed hstdout h]
      exact .printed hstdout h

end Command

end FirmataSketch
