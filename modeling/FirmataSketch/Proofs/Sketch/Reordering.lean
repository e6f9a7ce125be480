import FirmataSketch.Proofs.Catalog.Loading
import FirmataSketch.Proofs.Sketch.Globals
import FirmataSketch.Proofs.Sketch.Growth
import FirmataSketch.Proofs.Sketch.Libraries
import Mathlib.Data.List.Perm.Basic

/-! Reordering: what happens to a sketch when its features come in another order. Lines only change
places, if the catalog has one path for each library and no two features for one capability: then
every header is included once, wherever that is, and every special call goes to the same instance. -/

namespace FirmataSketch

open Disk (PathName)
open Outcome (ok_of_toOption)

namespace Plan

open Sketch

variable {index : Index} {p q : Plan} {xs ys : List Value}

theorem resolve_perm (h : resolve index xs = .ok p) (hperm : xs.Perm ys) :
    ∃ q, resolve index ys = .ok q ∧ p.features.Perm q.features := by
  obtain ⟨hnodup, hfound⟩ := exists_resolve_iff.1 ⟨p, h⟩
  obtain ⟨q, hq⟩ := exists_resolve_iff.2
    ⟨(hperm.map _).nodup_iff.1 hnodup, fun name hname => hfound name (hperm.mem_iff.2 hname)⟩
  obtain ⟨fs, hfs, hsame⟩ := List.perm_comp_forall₂ hperm (resolve_finds hq)
  refine ⟨q, hq, ?_⟩
  rw [index.finds_unique.forall₂ (resolve_finds h) hfs]
  exact hsame

/-- Each capability is provided by one feature at most. -/
def Distinct (p : Plan) : Prop :=
  ∀ f ∈ p.features, ∀ g ∈ p.features, ∀ c, f.capability = some c → g.capability = some c → f = g

/-- The second plan has the features of the first one in another order. -/
structure Reorders (p q : Plan) : Prop where
  features : p.features.Perm q.features
  has : ∀ c, p.has c = q.has c
  provider? : ∀ c, p.provider? c = q.provider? c
  reporting : p.reporting.Perm q.reporting
  update : p.update.Perm q.update

theorem provider?_perm (hperm : p.features.Perm q.features) (hp : p.Distinct) (c : Capability) :
    p.provider? c = q.provider? c := by
  have hfound {r : Plan} {f : Feature} (h : r.provider? c = some f) :
      f ∈ r.features ∧ f.capability = some c :=
    ⟨mem_of_provider? h, by simpa using List.find?_some h⟩
  cases hf : p.provider? c with
  | none =>
    cases hg : q.provider? c with
    | none => rfl
    | some g =>
      obtain ⟨hmem, hcapability⟩ := hfound hg
      have hnone := List.find?_eq_none.1 hf g (hperm.mem_iff.2 hmem)
      simp [hcapability] at hnone
  | some f =>
    obtain ⟨hmem, hcapability⟩ := hfound hf
    cases hg : q.provider? c with
    | none =>
      have hnone := List.find?_eq_none.1 hg f (hperm.mem_iff.1 hmem)
      simp [hcapability] at hnone
    | some g =>
      obtain ⟨hmem', hcapability'⟩ := hfound hg
      rw [hp f hmem g (hperm.mem_iff.2 hmem') c hcapability hcapability']

theorem Consistent.reorders (hp : p.Consistent) (hq : q.Consistent)
    (h : p.features.Perm q.features) (hdistinct : p.Distinct) : p.Reorders q := by
  refine ⟨h, fun c => ?_, provider?_perm h hdistinct, ?_, ?_⟩
  · rw [Bool.eq_iff_iff, hp.has_iff, hq.has_iff]
    simp only [h.mem_iff]
  · rw [hp.reporting_eq, hq.reporting_eq]
    exact h.filter _
  · rw [hp.update_eq, hq.update_eq]
    exact h.filter _

namespace Reorders

theorem analogWrite (h : p.Reorders q) : p.analogWrite = q.analogWrite := by
  rw [Plan.analogWrite, Plan.analogWrite, h.has, h.has]

theorem reportingEnabled (h : p.Reorders q) : p.reportingEnabled = q.reportingEnabled := by
  rw [Plan.reportingEnabled, Plan.reportingEnabled, h.reporting.isEmpty_eq]

theorem shared (h : p.Reorders q) : p.shared = q.shared := by
  rw [Plan.shared, Plan.shared, h.analogWrite, h.reportingEnabled]

theorem resetBlock (h : p.Reorders q) : p.resetBlock = q.resetBlock := by
  rw [Plan.resetBlock, Plan.resetBlock, h.has, h.has]

theorem setup (h : p.Reorders q) (baud : Option Value) :
    (p.setup baud).lines.Perm (q.setup baud).lines := by
  have hfeatures := h.features.map fun f => registerLine f.instanceText
  rw [lines_setup, lines_setup, h.analogWrite, h.reportingEnabled]
  exact ((((hfeatures.append_left _).append_right _).append_right _).append_right _).append_right _

theorem loop (h : p.Reorders q) :
    (Block.lines [.define "loop" p.loopCode]).Perm (Block.lines [.define "loop" q.loopCode]) := by
  have hdrain : p.drainLines = q.drainLines := by
    rw [Plan.drainLines, Plan.drainLines, h.provider?]
  have hreports : (if p.reportingEnabled then "  if (reporting.elapsed()) \x7b" ::
      (p.reporting.map (Feature.actLine 2 "report") ++ ["  \x7d", ""]) else []).Perm
      (if q.reportingEnabled then "  if (reporting.elapsed()) \x7b" ::
        (q.reporting.map (Feature.actLine 2 "report") ++ ["  \x7d", ""]) else []) := by
    rw [h.reportingEnabled]
    split
    · exact ((h.reporting.map _).append_right _).cons _
    · exact .refl _
  have hupdates := h.update.map (Feature.actLine 1 "update")
  rw [lines_loopCode, lines_loopCode, h.provider?, hdrain]
  exact ((hreports.append_left _).append hupdates).append_right _

end Reorders

end Plan

namespace Sketch.Block

/-- The calls before the pending input is looked at. -/
def firstCalls (b : Block) : List Call := b.calls.takeWhile (·.action != "available")

/-- The calls that run the stored tasks. -/
def taskCalls (b : Block) : List Call := b.calls.filter (·.action == "runTasks")

end Sketch.Block

namespace Plan

open Sketch

variable {p q : Plan}

theorem calls_loopCode (p : Plan) :
    Block.calls [.define "loop" p.loopCode] =
      ((p.provider? .digitalInput).map fun f => ⟨f.instanceText, "report", []⟩).toList ++
      Stmt.callsAll p.drainCode ++
      (if p.reportingEnabled then
        ⟨Sketch.reporting, "elapsed", []⟩ :: p.reporting.map (⟨·.instanceText, "report", []⟩)
        else []) ++
      p.update.map (⟨·.instanceText, "update", []⟩) := by
  have hbody : Block.calls [.define "loop" p.loopCode] = Stmt.callsAll p.loopCode := by
    simp [Block.calls, Item.calls]
  have hreports := Stmt.callsAll_map p.reporting Feature.instanceText "report" fun _ => []
  have hupdates := Stmt.callsAll_map p.update Feature.instanceText "update" fun _ => []
  rw [hbody, loopCode]
  simp only [Stmt.callsAll_append, hupdates]
  cases p.provider? .digitalInput <;> cases p.reportingEnabled <;>
    simp [Stmt.callsAll, Stmt.calls, hreports]

theorem firstCalls_loopCode (p : Plan) :
    Block.firstCalls [.define "loop" p.loopCode] =
      ((p.provider? .digitalInput).map fun f => ⟨f.instanceText, "report", []⟩).toList := by
  obtain ⟨rest, hdrain⟩ :
      ∃ rest, Stmt.callsAll p.drainCode = ⟨protocol, "available", []⟩ :: rest := by
    unfold drainCode
    cases p.provider? .scheduler <;> exact ⟨_, rfl⟩
  rw [Block.firstCalls, calls_loopCode, hdrain]
  cases p.provider? .digitalInput <;> simp

theorem taskCalls_loopCode (p : Plan) :
    Block.taskCalls [.define "loop" p.loopCode] =
      ((p.provider? .scheduler).map fun f => ⟨f.instanceText, "runTasks", []⟩).toList := by
  have hother {fs : List Feature} {action : String} (h : action ≠ "runTasks") :
      (fs.map fun f => (⟨f.instanceText, action, []⟩ : Call)).filter (·.action == "runTasks") =
        [] := by
    simp [List.filter_eq_nil_iff, h]
  have hdrain : (Stmt.callsAll p.drainCode).filter (·.action == "runTasks") =
      ((p.provider? .scheduler).map fun f => ⟨f.instanceText, "runTasks", []⟩).toList := by
    unfold drainCode
    cases p.provider? .scheduler <;> rfl
  rw [Block.taskCalls, calls_loopCode]
  simp only [List.filter_append, hdrain]
  rw [hother (by decide)]
  cases p.provider? .digitalInput <;> cases p.reportingEnabled <;> simp [hother]

end Plan

namespace Sketch

theorem IsOf.lines_perm {s t : Sketch} {p q : Plan} {d e : Draft} {m : Clock.Moment}
    (hs : s.IsOf p d m) (ht : t.IsOf q e m) (hp : p.Consistent) (hq : q.Consistent)
    (h : p.Reorders q) (hincludes : s.includes.lines.Perm t.includes.lines)
    (hname : d.filename = e.filename) (hbaud : d.baud = e.baud) : s.lines.Perm t.lines := by
  have hbanner : s.banner = t.banner := by rw [hs.banner, ht.banner, hname]
  have hshared : s.shared = t.shared := by rw [hs.shared, ht.shared, h.shared]
  have hreset : s.reset = t.reset := by rw [hs.reset, ht.reset, h.resetBlock]
  have hsetup : s.setup.lines.Perm t.setup.lines := by
    rw [hs.setup, ht.setup, hbaud]
    exact h.setup e.baud
  have hloop : s.loop.lines.Perm t.loop.lines := by
    rw [Except.ok.inj (hs.loop.symm.trans hp.loop_eq), Except.ok.inj (ht.loop.symm.trans hq.loop_eq)]
    exact h.loop
  unfold lines
  rw [hbanner, hshared, hreset]
  exact ((((hincludes.append_left _).append_right _).append_right _).append hsetup).append hloop

end Sketch

namespace Catalog

theorem Sound.distinct {c : Catalog} {index : Index} {names : List Value} {p : Plan} (h : c.Sound)
    (hindex : c.index = .ok index) (hp : Plan.resolve index names = .ok p) : p.Distinct := by
  have hmem := Sound.mem_of_resolve hindex hp
  intro f hf g hg a hfa hga
  have hsame := h.capable f (hmem f hf) g (hmem g hg) a hfa hga
  exact List.inj_on_of_nodup_map (Sound.keys_of_resolve hindex hp) hf hg hsame

/-- The fields of the dependencies are texts, and libraries with one class name have one path. -/
structure Uniform (c : Catalog) : Prop where
  texts : ∀ f ∈ c.features, ∀ d ∈ f.dependencies, ∃ path name, d = ⟨.text path, .text name⟩
  paths : ∀ f ∈ c.features, ∀ g ∈ c.features, ∀ d ∈ f.dependencies, ∀ e ∈ g.dependencies,
    d.className = e.className → d.path = e.path

theorem Uniform.eq_of_key {c : Catalog} (h : c.Uniform) {f g : Feature} (hf : f ∈ c.features)
    (hg : g ∈ c.features) {d e : Dependency} (hd : d ∈ f.dependencies) (he : e ∈ g.dependencies)
    (hkey : d.className.key? = e.className.key?) : d = e := by
  have hpath := h.paths f hf g hg d hd e he
  obtain ⟨path, name, rfl⟩ := h.texts f hf d hd
  obtain ⟨path', name', rfl⟩ := h.texts g hg e he
  simp only [Value.key?, Option.some.injEq, Key.text.injEq] at hkey
  subst hkey
  simpa using hpath rfl

theorem Uniform.includable {c : Catalog} (h : c.Uniform) {f : Feature} (hf : f ∈ c.features) :
    f.Includable := by
  intro d hd
  obtain ⟨path, name, rfl⟩ := h.texts f hf d hd
  exact ⟨_, rfl⟩

/-- Features in another order give a sketch with the same lines in another order, if the catalog is
uniform. Each library is included once in both of them, and the calls that belong to digital input
and to the scheduler are the same. -/
theorem lines_perm_of_perm {disk : Disk} {folder : PathName} {c : Catalog}
    (h : load disk folder = .ok c) (hok : c.isOk = true) (huniform : c.Uniform) :
    ∃ index, c.index = .ok index ∧
      ∀ (name : Value) (baud : Option Value) (xs ys : List Value) (clock : Clock)
        (time : Option Clock.Time) (s : Sketch), xs.Perm ys →
        (Draft.sketch ⟨name, baud, xs⟩ index clock time).result = .ok s →
        ∃ t fs, (Draft.sketch ⟨name, baud, ys⟩ index clock time).result = .ok t ∧
          List.Forall₂ index.Finds xs fs ∧ (Text.lines s.text).Perm (Text.lines t.text) ∧
          s.includes.IncludesOnce fs ∧ t.includes.IncludesOnce fs ∧
          s.loop.firstCalls = t.loop.firstCalls ∧ s.loop.taskCalls = t.loop.taskCalls := by
  have hsound := load_sound h hok
  obtain ⟨index, hindex⟩ := hsound.exists_index
  refine ⟨index, hindex, fun name baud xs ys clock time s hperm hs => ?_⟩
  obtain ⟨p, m, hp, hm, hof⟩ := Draft.sketch_ok hs
  obtain ⟨q, hq, hfeatures⟩ := Plan.resolve_perm hp hperm
  have hpc := Plan.resolve_consistent hp
  have hqc := Plan.resolve_consistent hq
  have hreorders := hpc.reorders hqc hfeatures (hsound.distinct hindex hp)
  have hmem := Sound.mem_of_resolve hindex hp
  have hmem' := Sound.mem_of_resolve hindex hq
  obtain ⟨t, ht⟩ := Sketch.ofPlan_total hqc (fun f hf => huniform.includable (hmem' f hf)) name baud m
  have hof' : t.IsOf q ⟨name, baud, ys⟩ m := Sketch.isOf_of_ofPlan ht
  have hsame {fs : List Feature} (hfs : ∀ f ∈ fs, f ∈ c.features) :
      ∀ d ∈ fs.flatMap Feature.dependencies, ∀ e ∈ fs.flatMap Feature.dependencies,
        d.className.key? = e.className.key? → d = e := by
    intro d hd e he hkey
    obtain ⟨f, hf, hd⟩ := List.mem_flatMap.1 hd
    obtain ⟨g, hg, he⟩ := List.mem_flatMap.1 he
    exact huniform.eq_of_key (hfs f hf) (hfs g hg) hd he hkey
  have hincludes : s.includes.lines.Perm t.includes.lines := by
    obtain ⟨fresh, last, hfresh, hlines, -⟩ := hof.includes_fresh (Plan.resolve_included hp)
    obtain ⟨fresh', last', hfresh', hlines', -⟩ := hof'.includes_fresh (Plan.resolve_included hq)
    have hheaders := (Plan.freshDependencies_perm (hfeatures.flatMap_right _) (hsame hmem) hfresh
      hfresh').map fun d => "#include <" ++ d.header ++ ">"
    have hown := hfeatures.flatMap_right Plan.ownLines
    exact hlines.trans (((hheaders.append hown).append_right _).trans hlines'.symm)
  have hloop := Except.ok.inj (hof.loop.symm.trans hpc.loop_eq)
  have hloop' := Except.ok.inj (hof'.loop.symm.trans hqc.loop_eq)
  refine ⟨t, p.features, Draft.sketch_of_ofPlan hq hm ht, Plan.resolve_finds hp, ?_,
    hof.includesOnce (Plan.resolve_included hp) (hsame hmem),
    (hof'.includesOnce (Plan.resolve_included hq) (hsame hmem')).of_perm hfeatures.symm, ?_, ?_⟩
  · rw [s.lines_text, t.lines_text]
    exact (hof.lines_perm hof' hpc hqc hreorders hincludes rfl rfl).flatMap_right _
  · rw [hloop, hloop', Plan.firstCalls_loopCode, Plan.firstCalls_loopCode, hreorders.provider?]
  · rw [hloop, hloop', Plan.taskCalls_loopCode, Plan.taskCalls_loopCode, hreorders.provider?]

/-- A catalog of two features that need the same library. -/
def sharing : Disk :=
  twoFiles
    ("\x7b\"name\": \"Fan\", \"class_name\": \"Fan\", " ++
      "\"instance_name\": \"fan\", \"capability\": \"scheduler\", " ++
      "\"system_dependencies\": [\x7b\"class_name\": \"Wire\"\x7d]\x7d").toUTF8
    ("\x7b\"name\": \"Led\", \"class_name\": \"Led\", " ++
      "\"instance_name\": \"led\", \"capability\": \"digital_input\", " ++
      "\"system_dependencies\": [\x7b\"class_name\": \"Wire\"\x7d]\x7d").toUTF8

theorem lines_perm_of_perm_sharing :
    ∃ c index s t, load sharing ⟨.root, []⟩ = .ok c ∧ c.isOk = true ∧ c.Uniform ∧
      c.index = .ok index ∧
      (Draft.sketch ⟨.text "Lamp", some (.int 57600), [.text "Fan", .text "Led"]⟩ index
        ⟨.moment .epoch, .utc⟩ none).result = .ok s ∧
      (Draft.sketch ⟨.text "Lamp", some (.int 57600), [.text "Led", .text "Fan"]⟩ index
        ⟨.moment .epoch, .utc⟩ none).result = .ok t ∧
      (Text.lines s.text).Perm (Text.lines t.text) ∧ s.loop.taskCalls = t.loop.taskCalls := by
  have hfiles : featureFiles sharing ⟨.root, []⟩ = .ok ["fan.json", "led.json"] :=
    featureFiles_twoFiles _ _
  obtain ⟨c, hload, hlook⟩ := exists_load_of_parts hfiles (by simp)
    (fun c => c.index.toOption.bind fun index =>
      (Draft.sketch ⟨.text "Lamp", some (.int 57600), [.text "Fan", .text "Led"]⟩ index
        ⟨.moment .epoch, .utc⟩ none).result.toOption.map fun _ =>
          (c.isOk, c.features.flatMap fun f => f.dependencies.map fun d =>
            (Selection.textOf? d.path, Selection.textOf? d.className)))
    (a := (true, [(some "", some "Wire"), (some "", some "Wire")])) (by decide +kernel)
  simp only [Option.bind_eq_some_iff, Option.map_eq_some_iff, Prod.mk.injEq] at hlook
  obtain ⟨index, hindex, s, hs, hok, hfields⟩ := hlook
  have hindex := ok_of_toOption hindex
  have htext {v : Value} {x : String} : Selection.textOf? v = some x ↔ v = .text x := by
    cases v <;> simp [Selection.textOf?]
  have hwire : ∀ f ∈ c.features, ∀ d ∈ f.dependencies, d = ⟨.text "", .text "Wire"⟩ := by
    intro f hf d hd
    have hmem : (Selection.textOf? d.path, Selection.textOf? d.className) ∈
        [(some "", some "Wire"), (some "", some "Wire")] :=
      hfields ▸ List.mem_flatMap.2 ⟨f, hf, List.mem_map.2 ⟨d, hd, rfl⟩⟩
    simp only [List.mem_cons, List.not_mem_nil, or_false, or_self, Prod.mk.injEq,
      htext] at hmem
    obtain ⟨path, name⟩ := d
    obtain ⟨rfl, rfl⟩ := hmem
    rfl
  have huniform : c.Uniform := by
    refine ⟨fun f hf d hd => ⟨_, _, hwire f hf d hd⟩, fun f hf g hg d hd e he _ => ?_⟩
    rw [hwire f hf d hd, hwire g hg e he]
  obtain ⟨index', hindex', hperm⟩ := lines_perm_of_perm hload hok huniform
  rw [hindex, Except.ok.injEq] at hindex'
  subst hindex'
  have hs := ok_of_toOption hs
  obtain ⟨t, fs, ht, -, hlines, -, -, -, htasks⟩ := hperm _ _ _ _ _ _ s (.swap _ _ []) hs
  exact ⟨c, index, s, t, hload, hok, huniform, hindex, hs, ht, hlines, htasks⟩

end Catalog

end FirmataSketch
