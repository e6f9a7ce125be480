import FirmataSketch.Proofs.Command.SelectionFile
import FirmataSketch.Proofs.Command.Steps
import FirmataSketch.Proofs.Selection.Grammar
import FirmataSketch.Proofs.Sketch.Banner
import FirmataSketch.Proofs.Sketch.Drawing
import FirmataSketch.Proofs.Web.Answer
import Mathlib.Data.List.TFAE

/-! Names of sketches: what all ways to ask for a sketch take as one, and what becomes of it in the
sketch. A name may have a line end after it; then the banner has a line more. -/

namespace FirmataSketch

open Disk (PathName)
open Outcome (mapError_ok exists_bind_ok_iff exists_mapError_ok_iff)
open Text (IsLine IsName)

variable {features : List String} {baud : Nat} {v : Value}

namespace Catalog

theorem shippedIndex_finds (home : PathName) {name : String}
    (h : name ∈ supplied.map Supplied.name) : ∃ f, (shippedIndex home).Finds (.text name) f := by
  have hkey : Key.text name ∈ (shippedIndex home).entries.map Prod.fst := by
    obtain ⟨supply, hsupply, rfl⟩ := List.mem_map.1 h
    exact List.mem_map.2 ⟨_, List.mem_map.2 ⟨supply, hsupply, rfl⟩, rfl⟩
  cases hget : (shippedIndex home).get? (.text name) with
  | some f => exact ⟨f, .text name, rfl, hget⟩
  | none =>
    have hlookup := Option.map_eq_none_iff.1 hget
    rw [List.lookup_eq_none_iff] at hlookup
    obtain ⟨entry, hentry, hfst⟩ := List.mem_map.1 hkey
    have hne := hlookup entry hentry
    simp [hfst] at hne

/-- The shipped catalog has a sketch of the features, and the clock can show the time. -/
structure Draws (home : PathName) (clock : Clock) (features : List String) : Prop where
  nodup : features.Nodup
  known : features ⊆ supplied.map Supplied.name
  shown : ∃ m, clock.momentOf none = .ok m

theorem Draws.exists_sketch {home : PathName} {clock : Clock} (h : Draws home clock features)
    {s : Selection} (hs : s.features = features) :
    ∃ sketch, (s.draft.sketch (shippedIndex home) clock none).result = .ok sketch := by
  obtain ⟨m, hm⟩ := h.shown
  have hnodup : (s.draft.features.map Value.key?).Nodup := by
    have hkeys : s.draft.features.map Value.key? = features.map fun name => some (.text name) := by
      rw [← hs]
      exact List.map_map
    rw [hkeys]
    exact h.nodup.map fun a b hab => Key.text.inj (Option.some.inj hab)
  have hfound : ∀ name ∈ s.draft.features, ∃ f, (shippedIndex home).Finds name f := by
    intro name hname
    obtain ⟨text, htext, rfl⟩ := List.mem_map.1 hname
    exact shippedIndex_finds home (h.known (hs ▸ htext))
  obtain ⟨p, hp⟩ := Plan.exists_resolve_iff.2 ⟨hnodup, hfound⟩
  refine Draft.exists_sketch hnodup (Plan.resolve_finds hp) (fun f hf => ?_) hm
  obtain ⟨name, -, k, -, hget⟩ := (Plan.mem_features_of_resolve hp f).1 hf
  exact shippedIndex_includable home hget

end Catalog

namespace Selection

theorem exists_named_iff (hbaud : baud ∈ Settings.allowedBaudRates) (hv : v ≠ .null) :
    (∃ s, named features v (.int baud) = .ok s) ↔ TakesName v := by
  have hgiven : orDefault (.text Settings.defaultFilename) v = v := by
    cases v with
    | null => exact absurd rfl hv
    | _ => rfl
  obtain ⟨rate, hrate⟩ := exists_validateBaud_iff.2 ⟨baud, hbaud, rfl⟩
  rw [← exists_validateFilename_iff, named, hgiven, exists_bind_ok_iff]
  refine exists_congr fun name => and_iff_left ?_
  rw [orDefault, hrate]
  · exact ⟨_, rfl⟩
  · rintro ⟨⟩

theorem exists_drawn_iff {home : PathName} {clock : Clock}
    (h : Catalog.Draws home clock features) {made : Except Failure Selection}
    (hmade : ∀ s, made = .ok s → s.features = features) :
    (∃ p, drawn home clock made = .ok p) ↔ ∃ s, made = .ok s := by
  rw [drawn, exists_bind_ok_iff]
  refine exists_congr fun s => and_iff_left_of_imp fun hs => ?_
  obtain ⟨sketch, hsketch⟩ := h.exists_sketch (hmade s hs)
  exact exists_bind_ok_iff.2 ⟨sketch, hsketch, _, rfl⟩

end Selection

namespace Web

/-- The fields of a request body, with any value as the file name. -/
def fieldsWith (features : List String) (filename : Value) (baud : Nat) : List (String × Value) :=
  [("filename", filename), ("baud", .int baud), ("features", .list (features.map .text))]

theorem status_of_refusal {e : Failure} {a : Answer} (h : refusal e = .ok a) : a.status ≠ 200 := by
  unfold refusal at h
  split at h
  · cases h
    exact of_decide_eq_true rfl
  · cases h

/-- A request gets its sketch exactly if its file name is taken. -/
theorem status_ok_iff {home : PathName} {clock : Clock} (h : Catalog.Draws home clock features)
    (hbaud : baud ∈ Settings.allowedBaudRates) {answer : Selection → Sketch → Answer}
    (hanswer : ∀ s sketch, (answer s sketch).status = 200) :
    (∃ a, (answerSketch (Catalog.shipped home) clock (fieldsWith features v baud) answer).result =
      .ok a ∧ a.status = 200) ↔ Selection.TakesName v := by
  by_cases hv : ∃ filename, v = .text filename
  · obtain ⟨filename, rfl⟩ := hv
    have hresult := answerSketch_result home clock features filename baud answer
    have hparts : (∃ p, Selection.drawn home clock
        ((Selection.ofParts features filename baud).mapError .selection) = .ok p) ↔
        Selection.TakesName (.text filename) := by
      rw [Selection.exists_drawn_iff h, exists_mapError_ok_iff]
      · exact Selection.exists_named_iff hbaud fun hnull => nomatch hnull
      · exact fun s hs => (Selection.named_ok (mapError_ok hs)).1
    have hfields : fieldsWith features (.text filename) baud = fieldsOf features filename baud := rfl
    rw [hfields, hresult, ← hparts]
    cases Selection.drawn home clock
        ((Selection.ofParts features filename baud).mapError Failure.selection) with
    | ok p => simp [hanswer]
    | error e =>
      have hno : ¬ ∃ a, refusal e = .ok a ∧ a.status = 200 := fun ⟨a, ha, hstatus⟩ =>
        status_of_refusal ha hstatus
      simp [hno]
  · have hmisfit : Misfit .usual (fieldsWith features v baud) :=
      .inl ⟨v, rfl, fun s hs => hv ⟨s, Rules.usual.text_eq v s hs⟩⟩
    have hnot : ¬ Selection.TakesName v := fun ⟨w, _, h⟩ => hv (h.elim (⟨_, ·⟩) (⟨_, ·⟩))
    rw [answerSketch_of_misfit hmisfit]
    simp [hnot, Answer.status]

end Web

namespace Command

variable {s : Surroundings} {args : List String}

/-- The command line sets the parts of a selection, and asks for the sketch on the output. -/
def Sets (args : List String) (features : List String) (filename : Value) (baud : Nat) : Prop :=
  ∃ verbose, Invocation.ofArguments args = .ok ⟨verbose, .generate
    { features := some (features.map .text), filename := some filename, baud := some (.int baud)
      toStdout := true }⟩

/-- The command line names a file with the document, and asks for the sketch on the output. -/
def Opens (d : Disk) (args : List String) (document : Value) : Prop :=
  ∃ verbose path bytes, Invocation.ofArguments args =
      .ok ⟨verbose, .generate { selection := some path, toStdout := true }⟩ ∧
    (PathName.ofText path).hasNull = false ∧ d.readFile (PathName.ofText path) = .ok bytes ∧
    Catalog.readDocument bytes = .ok document

theorem exit_ok_iff {verbose : Bool} {o : GenerateOptions}
    (hargs : Invocation.ofArguments args = .ok ⟨verbose, .generate o⟩) (hstdout : o.toStdout = true)
    (hcatalog : o.catalog = none) (hdraws : Catalog.Draws s.home s.clock features)
    (hbaud : baud ∈ Settings.allowedBaudRates) (hv : v ≠ .null)
    (hopen : openSelection s.disk o =
      (Selection.named features v (.int baud)).mapError .selection) :
    (run s args).ending = .exit 0 ↔ Selection.TakesName v := by
  have hrun : run s args = runGenerate s verbose o := by
    rw [run, hargs]
    rfl
  have hdrawn : (∃ p, (drawn s o).result = .ok p) ↔ Selection.TakesName v := by
    rw [drawn_shipped_result hcatalog, hopen, Selection.exists_drawn_iff hdraws, exists_mapError_ok_iff]
    · exact Selection.exists_named_iff hbaud hv
    · exact fun s hs => (Selection.named_ok (mapError_ok hs)).1
  rw [hrun, ← hdrawn]
  cases h : (drawn s o).result with
  | ok p => simp [runGenerate_printed hstdout h]
  | error e => simp [runGenerate_unprinted hstdout h, failed_ending_ne]

end Command

namespace Selection

open Command (Surroundings Sets Opens)
open Sketch (titleEnd)

/-- All ways to ask for a sketch take the same values as its name. -/
structure TakenAlike (s : Surroundings) (features : List String) (baud : Nat) (v : Value) : Prop where
  made : (∃ selection, make (.list (features.map .text)) v (.int baud) = .ok selection) ↔
    TakesName v
  parsed : (∃ selection, ofValue (payload features v (.int baud)) = .ok selection) ↔ TakesName v
  answered : ∀ route ∈ [Web.Route.generate, .download],
    (∃ a, (Web.respond (Catalog.shipped s.home) s.clock (Web.fieldsWith features v baud)
      route).result = .ok a ∧ a.status = 200) ↔ TakesName v
  set : ∀ args, Sets args features v baud →
    ((Command.run s args).ending = .exit 0 ↔ TakesName v)
  opened : ∀ args, Opens s.disk args (payload features v (.int baud)) →
    ((Command.run s args).ending = .exit 0 ↔ TakesName v)

theorem takenAlike {s : Surroundings} (hdraws : Catalog.Draws s.home s.clock features)
    (hbaud : baud ∈ Settings.allowedBaudRates) (hv : v ≠ .null) :
    TakenAlike s features baud v := by
  refine ⟨?_, ?_, ?_, ?_, ?_⟩
  · rw [make_named, exists_mapError_ok_iff]
    exact exists_named_iff hbaud hv
  · rw [ofValue_payload]
    exact exists_named_iff hbaud hv
  · intro route hroute
    simp only [List.mem_cons, List.not_mem_nil, or_false] at hroute
    rcases hroute with rfl | rfl
    · exact Web.status_ok_iff hdraws hbaud fun _ _ => rfl
    · exact Web.status_ok_iff hdraws hbaud fun _ _ => rfl
  · rintro args ⟨verbose, hargs⟩
    exact Command.exit_ok_iff hargs rfl rfl hdraws hbaud hv (make_named features v (.int baud))
  · rintro args ⟨verbose, path, bytes, hargs, hnull, hread, hdocument⟩
    exact Command.exit_ok_iff hargs rfl rfl hdraws hbaud hv
      (Command.openSelection_of_document hnull hread hdocument)

/-- The name of a sketch shows in its banner and in the header of a download: a plain name leaves them
as they are meant to be, a line end after it breaks them. -/
inductive Shows (s : Selection) (title : List String) : Prop
  | plain (h : IsName s.filename) (htitle : title = [" * " ++ s.filename ++ titleEnd])
      (hheader : IsLine (Web.Answer.disposition s.sketchFilename))
  | broken (w : String) (hw : IsName w) (h : s.filename = w ++ "\n")
      (htitle : title = [" * " ++ w, titleEnd])
      (hheader : ¬ IsLine (Web.Answer.disposition s.sketchFilename))

theorem shows_titleLines {s : Selection} (h : Text.acceptsWord s.filename = true) :
    s.Shows (Sketch.titleLines s.filename) := by
  have hheader : IsLine (Web.Answer.disposition s.sketchFilename) ↔ IsLine s.filename := by
    have hopen : IsLine "attachment; filename=\"" := by decide
    have hext : IsLine Settings.extension := by decide
    have hclose : IsLine "\"" := by decide
    have hparts : Web.Answer.disposition s.sketchFilename =
        "attachment; filename=\"" ++ (s.filename ++ Settings.extension) ++ "\"" := rfl
    rw [hparts, Text.isLine_append, Text.isLine_append, Text.isLine_append]
    exact ⟨fun h => h.1.2.1, fun h => ⟨⟨hopen, h, hext⟩, hclose⟩⟩
  rcases Text.acceptsWord_iff.1 h with hname | ⟨w, hw, hfilename⟩
  · exact .plain hname (Sketch.titleLines_of_isName hname) (hheader.2 hname.isLine)
  · refine .broken w hw hfilename (hfilename ▸ Sketch.titleLines_of_lineEnd hw) ?_
    rw [hheader, hfilename, Text.isLine_append]
    exact fun hline => absurd hline.2 (by decide)

/-- What is taken as the name of a sketch is a name as users are told to choose it, or such a name with
a line end after it, whatever the way to ask. Sketches of one selection that are drawn at different
times differ in the line of the stamp alone; it is the third line, or after a line end in the name the
fourth. -/
theorem taken_names (v : Value) :
    ((∃ name, validateFilename v = .ok name) ↔ TakesName v) ∧
    (∀ (s : Surroundings) (features : List String) (baud : Nat),
      Catalog.Draws s.home s.clock features → baud ∈ Settings.allowedBaudRates → v ≠ .null →
      TakenAlike s features baud v) ∧
    ∀ (features baud : Value) (s : Selection) (index : Index) (clock clock' : Clock)
      (time time' : Option Clock.Time) (m m' : Clock.Moment) (sketch sketch' : Sketch),
      make features v baud = .ok s → clock.momentOf time = .ok m →
      clock'.momentOf time' = .ok m' → IsLine m.zone.name → IsLine m'.zone.name →
      (s.draft.sketch index clock time).result = .ok sketch →
      (s.draft.sketch index clock' time').result = .ok sketch' →
      ∃ title rest, s.Shows title ∧
        Text.lines sketch.text = "/*" :: title ++ [" * " ++ m.stamp, " */"] ++ rest ∧
        Text.lines sketch'.text = "/*" :: title ++ [" * " ++ m'.stamp, " */"] ++ rest := by
  refine ⟨exists_validateFilename_iff, fun s features baud => takenAlike, ?_⟩
  intro features baud s index clock clock' time time' m m' sketch sketch' hmake hm hm' hzone
    hzone' hsketch hsketch'
  obtain ⟨p, n, hp, hn, hof⟩ := Draft.sketch_ok hsketch
  obtain ⟨p', n', hp', hn', hof'⟩ := Draft.sketch_ok hsketch'
  cases hm.symm.trans hn
  cases hm'.symm.trans hn'
  cases hp.symm.trans hp'
  refine ⟨Sketch.titleLines s.filename, _, shows_titleLines (acceptsWord_of_make hmake),
    hof.lines_text rfl hzone, ?_⟩
  rw [hof.rest_eq hof']
  exact hof'.lines_text rfl hzone'

/-- An empty disk at the beginning of 1970, or later by so many seconds. -/
def atSecond (n : Int) : Surroundings where
  disk := ⟨.folder [], []⟩
  clock := ⟨.moment (.ofEpochSeconds n), .utc⟩
  home := ⟨.root, []⟩
  output := none

/-- A name with a line end after it is taken on the command line, and two sketches have banners of five
lines. -/
theorem taken_names_lineEnd :
    (Command.run (atSecond 0) ["generate", "--stdout", "--feature", "ServoFirmata", "--filename",
      "Lamp\n", "--baud", "57600"]).ending = .exit 0 ∧
    ∃ (sketch sketch' : Sketch) (stamp stamp' : String) (rest : List String),
      Text.lines sketch.text = ["/*", " * Lamp", ".ino generated by FirmataBuilder", stamp, " */"] ++
        rest ∧
      Text.lines sketch'.text =
        ["/*", " * Lamp", ".ino generated by FirmataBuilder", stamp', " */"] ++ rest := by
  obtain ⟨-, hways, hbanners⟩ := taken_names (.text "Lamp\n")
  have hname : IsName "Lamp" := Text.isWord_iff_isName.1 (by decide)
  have htakes : TakesName (.text "Lamp\n") := ⟨"Lamp", hname, .inr rfl⟩
  have hdraws (n : Int) (hn : n = 0 ∨ n = 60) :
      Catalog.Draws (atSecond n).home (atSecond n).clock ["ServoFirmata"] := by
    refine ⟨by decide, by decide, ?_⟩
    rcases hn with rfl | rfl
    · exact ⟨_, rfl⟩
    · exact ⟨_, rfl⟩
  have hsets : Sets ["generate", "--stdout", "--feature", "ServoFirmata", "--filename", "Lamp\n",
      "--baud", "57600"] ["ServoFirmata"] (.text "Lamp\n") 57600 := ⟨false, rfl⟩
  have halike := hways (atSecond 0) ["ServoFirmata"] 57600 (hdraws 0 (.inl rfl)) (by decide)
    (fun h => nomatch h)
  refine ⟨(halike.set _ hsets).2 htakes, ?_⟩
  have hmake : make (.list [.text "ServoFirmata"]) (.text "Lamp\n") (.int 57600) =
      .ok ⟨"Lamp\n", 57600, ["ServoFirmata"]⟩ := rfl
  obtain ⟨sketch, hsketch⟩ :=
    (hdraws 0 (.inl rfl)).exists_sketch (s := ⟨"Lamp\n", 57600, ["ServoFirmata"]⟩) rfl
  obtain ⟨sketch', hsketch'⟩ :=
    (hdraws 60 (.inr rfl)).exists_sketch (s := ⟨"Lamp\n", 57600, ["ServoFirmata"]⟩) rfl
  obtain ⟨title, rest, hshows, hlines, hlines'⟩ := hbanners _ _ _ _ _ _ none none
    ((Clock.Moment.ofEpochSeconds 0).inZone .utc) ((Clock.Moment.ofEpochSeconds 60).inZone .utc)
    sketch sketch' hmake rfl rfl (by decide) (by decide) hsketch hsketch'
  cases hshows with
  | plain h => exact absurd h.isLine (by decide)
  | broken w hw h htitle =>
    obtain rfl : "Lamp" = w := (String.append_left_inj "\n").1 h
    have hend : titleEnd = ".ino generated by FirmataBuilder" := by decide
    rw [htitle, hend] at hlines hlines'
    exact ⟨sketch, sketch', _, _, rest, hlines, hlines'⟩

end Selection

end FirmataSketch
