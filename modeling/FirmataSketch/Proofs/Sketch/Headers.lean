import FirmataSketch.Proofs.Catalog.Loading
import FirmataSketch.Proofs.Sketch.Globals
import FirmataSketch.Proofs.Sketch.Libraries

/-! Headers that a catalog without problems puts into sketches. The checks of the catalog leave open
whether every header can be named in an include line: they look at the folder and the class of a
feature, and not closely, and hardly at those of its dependencies. -/

namespace FirmataSketch

open Disk (PathName)
open Outcome (ok_of_toOption)
open Text (IsLine IsName)

/-- The folder before a class in a header: none, or a text that ends with a slash and can stand between
the brackets of an include line. -/
structure IsFolder (p : String) : Prop where
  ending : p = "" ∨ p.toList.getLast? = some '/'
  inside : ∀ c ∈ p.toList, c ≠ '<' ∧ c ≠ '>' ∧ c ≠ '\n'

/-- The include line of a header is one line of a text, and it names a folder and a class. -/
def IsHeader (path className : Value) : Prop :=
  ∃ p w, path = .text p ∧ className = .text w ∧ IsFolder p ∧ IsName w ∧
    Text.lines ("#include <" ++ headerPath path className ++ ">" ++ "\n") =
      ["#include <" ++ p ++ w ++ ".h>"]

theorem isHeader_iff {path className : Value} :
    IsHeader path className ↔
      ∃ p w, path = .text p ∧ className = .text w ∧ IsFolder p ∧ IsName w := by
  constructor
  · rintro ⟨p, w, hp, hw, hfolder, hname, -⟩
    exact ⟨p, w, hp, hw, hfolder, hname⟩
  · rintro ⟨p, w, rfl, rfl, hfolder, hname⟩
    have hline : "#include <" ++ headerPath (.text p) (.text w) ++ ">" =
        "#include <" ++ p ++ w ++ ".h>" := by
      have hend : ".h" ++ ">" = ".h>" := by decide
      rw [← hend]
      simp only [headerPath, Value.display, String.append_assoc]
    have hfolderLine : IsLine p := fun hmem => (hfolder.inside _ hmem).2.2 rfl
    have hone : IsLine ("#include <" ++ p ++ w ++ ".h>") := by
      rw [Text.isLine_append, Text.isLine_append, Text.isLine_append]
      exact ⟨⟨⟨by decide, hfolderLine⟩, hname.isLine⟩, by decide⟩
    refine ⟨p, w, rfl, rfl, hfolder, hname, ?_⟩
    rw [hline, Text.lines_of_isLine hone]

/-- What the checks of a catalog leave open about the header of a feature: the path is a text, which can
stand in an include line, and no line end follows the name of the class. -/
structure Feature.Headed (f : Feature) : Prop where
  path : ∃ p, f.path = .text p ∧ ∀ c ∈ p.toList, c ≠ '<' ∧ c ≠ '>' ∧ c ≠ '\n'
  className : IsLine f.classText

theorem Feature.isHeader_iff_headed {f : Feature} (h : f.problems = .ok []) :
    IsHeader f.path f.className ↔ f.Headed := by
  obtain ⟨hclass, -, hpath, -⟩ := problems_nil_iff.1 h
  obtain ⟨w, hw, hword⟩ := word_of_nameDefects_nil hclass
  have htext : f.classText = w := by
    rw [classText, hw]
    rfl
  rw [isHeader_iff]
  constructor
  · rintro ⟨p, w', hp, hw', hfolder, hname⟩
    cases hw.symm.trans hw'
    exact ⟨⟨p, hp, hfolder.inside⟩, htext ▸ hname.isLine⟩
  · rintro ⟨⟨p, hp, hinside⟩, hline⟩
    rw [htext] at hline
    refine ⟨p, w, hp, hw, ⟨?_, hinside⟩, ?_⟩
    · -- a text counts as absent only if it is empty
      rcases path_of_pathDefects_nil hpath with habsent | ⟨p', hp', hslash⟩
      · rw [hp, Value.isPresent, bne_eq_false_iff_eq] at habsent
        exact .inl habsent
      · cases hp.symm.trans hp'
        exact .inr hslash
    · refine (Text.acceptsWord_iff.1 hword).resolve_right ?_
      rintro ⟨v, -, rfl⟩
      exact absurd (Text.isLine_append.1 hline).2 (by decide)

namespace Sketch

def Item.header? : Item → Option String
  | .include header => some header
  | _ => none

/-- The headers that a block includes, in order. -/
def Block.headers (b : Block) : List String := b.filterMap Item.header?

theorem Block.headers_append (b b' : Block) : (b ++ b').headers = b.headers ++ b'.headers :=
  List.filterMap_append

end Sketch

/-- The two parts of a header. -/
def Dependency.parts (d : Dependency) : Value × Value := (d.path, d.className)

def Feature.parts (f : Feature) : Value × Value := (f.path, f.className)

namespace Plan

open Sketch (Block)

theorem headers_featureBlock (f : Feature) (fresh : List Dependency) :
    (featureBlock f fresh).headers =
      (fresh.map Dependency.parts ++ [f.parts]).map fun x => headerPath x.1 x.2 := by
  induction fresh with
  | nil => rfl
  | cons d fresh ih =>
    have hcons : (featureBlock f (d :: fresh)).headers = d.header :: (featureBlock f fresh).headers :=
      rfl
    rw [hcons, ih]
    rfl

/-- The blocks of features include the headers of the features and those of the dependencies that are
fresh among all of them. -/
theorem headers_featureBlocks {included last : List Value} {fs : List Feature} {b : Block}
    (h : featureBlocks included fs = (.ok b, last)) :
    ∃ (fresh : List Dependency) (heads : List (Value × Value)),
      freshDependencies included (fs.flatMap Feature.dependencies) = (.ok fresh, last) ∧
      b.headers = heads.map (fun x => headerPath x.1 x.2) ∧
      heads.Perm (fresh.map Dependency.parts ++ fs.map Feature.parts) := by
  induction fs generalizing included b with
  | nil =>
    cases h
    exact ⟨[], [], rfl, rfl, .refl _⟩
  | cons f fs ih =>
    obtain ⟨first, middle, tail, hfirst, htail, rfl⟩ := featureBlocks_cons_ok h
    obtain ⟨others, heads, hothers, hheads, hperm⟩ := ih htail
    refine ⟨first ++ others, first.map Dependency.parts ++ [f.parts] ++ heads,
      freshDependencies_append hfirst hothers, ?_, ?_⟩
    · rw [Block.headers_append, headers_featureBlock, hheads, ← List.map_append]
    · rw [List.append_assoc, List.map_append, List.append_assoc, List.map_cons]
      exact ((hperm.cons f.parts).trans List.perm_middle.symm).append_left _

end Plan

namespace Sketch.IsOf

variable {s : Sketch} {p : Plan} {d : Draft} {m : Clock.Moment}

theorem headers_includes (h : s.IsOf p d m) (hincluded : p.included = []) :
    ∃ (fresh : List Dependency) (last : List Value) (heads : List (Value × Value)),
      Plan.freshDependencies [] (p.features.flatMap Feature.dependencies) = (.ok fresh, last) ∧
      s.includes.headers = heads.map (fun x => headerPath x.1 x.2) ++ [registryHeader] ∧
      heads.Perm (fresh.map Dependency.parts ++ p.features.map Feature.parts) := by
  obtain ⟨blocks, last, hblocks, hincludes⟩ := h.includes
  rw [hincluded] at hblocks
  obtain ⟨fresh, heads, hfresh, hheads, hperm⟩ := Plan.headers_featureBlocks hblocks
  refine ⟨fresh, last, heads, hfresh, ?_, hperm⟩
  rw [hincludes, Block.headers_append, hheads]
  rfl

theorem includable (h : s.IsOf p d m) (hincluded : p.included = []) :
    ∀ f ∈ p.features, f.Includable := by
  obtain ⟨fresh, last, heads, hfresh, -, -⟩ := h.headers_includes hincluded
  obtain ⟨-, -, hall⟩ := Plan.freshDependencies_spec hfresh
  intro f hf d hd
  obtain ⟨k, hk, -⟩ := hall d (List.mem_flatMap.2 ⟨f, hf, hd⟩)
  exact ⟨k, Value.key_eq_ok_iff.2 hk⟩

end Sketch.IsOf

/-- From a catalog without problems there is a sketch of different names exactly if the class names of
all dependencies can be keys. It includes the headers of the features and one for each of those class
names; all of them can be named in include lines exactly if those of the features can, as far as the
checks leave that open, and those of the dependencies can. -/
theorem Catalog.headers_iff {disk : Disk} {folder : PathName} {c : Catalog}
    (h : load disk folder = .ok c) (hok : c.isOk = true) :
    ∃ index, c.index = .ok index ∧
      ∀ (d : Draft) (clock : Clock) (time : Option Clock.Time) (m : Clock.Moment),
        (d.features.map Value.key?).Nodup → (∀ name ∈ d.features, ∃ f, index.Finds name f) →
        clock.momentOf time = .ok m →
        ∃ fs, List.Forall₂ index.Finds d.features fs ∧
          ((∃ s, (d.sketch index clock time).result = .ok s) ↔ ∀ f ∈ fs, f.Includable) ∧
          ∀ s, (d.sketch index clock time).result = .ok s →
            ∃ (fresh : List Dependency) (last : List Value) (heads : List (Value × Value)),
              Plan.freshDependencies [] (fs.flatMap Feature.dependencies) = (.ok fresh, last) ∧
              s.includes.headers =
                heads.map (fun x => headerPath x.1 x.2) ++ [Sketch.registryHeader] ∧
              heads.Perm (fresh.map Dependency.parts ++ fs.map Feature.parts) ∧
              ((∀ x ∈ heads, IsHeader x.1 x.2) ↔
                (∀ f ∈ fs, f.Headed) ∧ ∀ d ∈ fresh, IsHeader d.path d.className) := by
  obtain ⟨hproblems, -⟩ := problems_of_load h hok
  obtain ⟨index, hindex⟩ := (load_sound h hok).exists_index
  refine ⟨index, hindex, fun d clock time m hnodup hfound hm => ?_⟩
  obtain ⟨p, hp⟩ := Plan.exists_resolve_iff.2 ⟨hnodup, hfound⟩
  have hfs := Plan.resolve_finds hp
  have hincluded := Plan.resolve_included hp
  refine ⟨p.features, hfs, ⟨?_, fun hincludable => ?_⟩, fun s hs => ?_⟩
  · rintro ⟨s, hs⟩
    obtain ⟨q, n, hq, -, hof⟩ := Draft.sketch_ok hs
    cases hp.symm.trans hq
    exact hof.includable hincluded
  · exact Draft.exists_sketch hnodup hfs hincludable hm
  · obtain ⟨q, n, hq, -, hof⟩ := Draft.sketch_ok hs
    cases hp.symm.trans hq
    obtain ⟨fresh, last, heads, hfresh, hheaders, hperm⟩ := hof.headers_includes hincluded
    refine ⟨fresh, last, heads, hfresh, hheaders, hperm, ?_⟩
    have hown : (∀ f ∈ p.features, IsHeader f.path f.className) ↔ ∀ f ∈ p.features, f.Headed := by
      refine forall₂_congr fun f hf => Feature.isHeader_iff_headed ?_
      exact hproblems f (Sound.mem_of_resolve hindex hp f hf)
    have hmem : (∀ x ∈ heads, IsHeader x.1 x.2) ↔
        ∀ x ∈ fresh.map Dependency.parts ++ p.features.map Feature.parts, IsHeader x.1 x.2 :=
      forall_congr' fun x => imp_congr_left hperm.mem_iff
    rw [hmem, List.forall_mem_append, List.forall_mem_map, List.forall_mem_map, and_comm, ← hown]
    rfl

/-- Two features in which nothing was found: one depends on a class that is a list, the other has a
line end after the name of its class. -/
def Catalog.unnameable : Disk :=
  twoFiles
    ("\x7b\"name\": \"Fan\", \"class_name\": \"Fan\", \"instance_name\": \"fan\", " ++
      "\"system_dependencies\": [\x7b\"class_name\": [1]\x7d]\x7d").toUTF8
    ("\x7b\"name\": \"Led\", \"class_name\": \"Led\\n\", \"instance_name\": \"led\"\x7d").toUTF8

theorem Catalog.load_unnameable :
    ∃ c index fan led, load unnameable ⟨.root, []⟩ = .ok c ∧ c.isOk = true ∧ c.index = .ok index ∧
      index.Finds (.text "Fan") fan ∧ index.Finds (.text "Led") led ∧
      ¬ fan.Includable ∧ led.Includable ∧ ¬ led.Headed := by
  have hfiles : featureFiles unnameable ⟨.root, []⟩ = .ok ["fan.json", "led.json"] :=
    featureFiles_twoFiles _ _
  obtain ⟨c, hload, hlook⟩ := exists_load_of_parts hfiles (by simp)
    (fun c => c.index.toOption.bind fun index =>
      (index.get? (.text "Fan")).bind fun fan => (index.get? (.text "Led")).map fun led =>
        (c.isOk, fan.dependencies.map fun d => d.className.key?.isSome,
          led.dependencies.length, Selection.textOf? led.className))
    (a := (true, [false], 0, some "Led\n")) (by decide +kernel)
  simp only [Option.bind_eq_some_iff, Option.map_eq_some_iff, Prod.mk.injEq] at hlook
  obtain ⟨index, hindex, fan, hfan, led, hled, hok, hlist, hnone, hclass⟩ := hlook
  refine ⟨c, index, fan, led, hload, hok, ok_of_toOption hindex, ⟨_, rfl, hfan⟩, ⟨_, rfl, hled⟩,
    fun hincludable => ?_, fun d hd => ?_, fun hheaded => ?_⟩
  · have hkeys : ∀ b ∈ fan.dependencies.map (fun d => d.className.key?.isSome), b = true := by
      rw [List.forall_mem_map]
      intro d hd
      obtain ⟨k, hk⟩ := hincludable d hd
      rw [Value.key_eq_ok_iff.1 hk, Option.isSome_some]
    rw [hlist, List.forall_mem_singleton] at hkeys
    cases hkeys
  · rw [List.length_eq_zero_iff.1 hnone] at hd
    cases hd
  · have htext : led.classText = "Led\n" := by
      rw [Feature.classText]
      cases hv : led.className with
      | text w => rw [hv] at hclass; exact Option.some.inj hclass
      | _ => rw [hv] at hclass; cases hclass
    have hline := hheaded.className
    rw [htext] at hline
    exact absurd hline (by decide)

theorem Catalog.headers_unnameable :
    ∃ c index, load unnameable ⟨.root, []⟩ = .ok c ∧ c.isOk = true ∧ c.index = .ok index ∧
      (¬ ∃ s, (Draft.sketch ⟨.text "Lamp", none, [.text "Fan"]⟩ index ⟨.moment .epoch, .utc⟩
        none).result = .ok s) ∧
      ∃ (s : Sketch) (x : Value × Value),
        (Draft.sketch ⟨.text "Lamp", none, [.text "Led"]⟩ index
          ⟨.moment .epoch, .utc⟩ none).result = .ok s ∧
        headerPath x.1 x.2 ∈ s.includes.headers ∧ ¬ IsHeader x.1 x.2 := by
  obtain ⟨c, index, fan, led, hload, hok, hindex, hfan, hled, hlist, hincludable, hheaded⟩ :=
    load_unnameable
  obtain ⟨index', hindex', hheaders⟩ := headers_iff hload hok
  cases hindex.symm.trans hindex'
  have hone {v : Value} {f : Feature} {fs : List Feature} (hf : index.Finds v f)
      (hfs : List.Forall₂ index.Finds [v] fs) : fs = [f] :=
    index.finds_unique.forall₂ hfs (.cons hf .nil)
  refine ⟨c, index, hload, hok, hindex, ?_, ?_⟩
  · obtain ⟨fs, hfs, hsketch, -⟩ := hheaders ⟨.text "Lamp", none, [.text "Fan"]⟩
      ⟨.moment .epoch, .utc⟩ none _ (List.nodup_singleton _)
      (List.forall_mem_singleton.2 ⟨fan, hfan⟩) rfl
    rw [hsketch, hone hfan hfs, List.forall_mem_singleton]
    exact hlist
  · obtain ⟨fs, hfs, hsketch, hheads⟩ := hheaders ⟨.text "Lamp", none, [.text "Led"]⟩
      ⟨.moment .epoch, .utc⟩ none _ (List.nodup_singleton _)
      (List.forall_mem_singleton.2 ⟨led, hled⟩) rfl
    obtain rfl := hone hled hfs
    obtain ⟨s, hs⟩ := hsketch.2 (List.forall_mem_singleton.2 hincludable)
    obtain ⟨fresh, last, heads, -, hincludes, -, hall⟩ := hheads s hs
    have hbroken : ¬ ∀ x ∈ heads, IsHeader x.1 x.2 := fun h =>
      hheaded ((hall.1 h).1 led (List.mem_singleton_self led))
    push Not at hbroken
    obtain ⟨x, hx, hnot⟩ := hbroken
    refine ⟨s, x, hs, ?_, hnot⟩
    rw [hincludes]
    exact List.mem_append_left _ (List.mem_map.2 ⟨x, hx, rfl⟩)

end FirmataSketch
