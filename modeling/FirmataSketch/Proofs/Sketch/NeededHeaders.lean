import FirmataSketch.Proofs.Catalog.Checks
import FirmataSketch.Proofs.Selection.Made
import FirmataSketch.Proofs.Sketch.FirstUse
import FirmataSketch.Proofs.Sketch.Globals

/-! Needed headers: before the header of a feature stands, for each library that it needs, the header
of the first library of that class name. No class name is lost; but of libraries with one class name
and several paths the first one stands for all. -/

namespace FirmataSketch

open Disk (PathName)
open Outcome (ok_of_toOption)

namespace Dependency

/-- Among some dependencies, one is the first with a class name. -/
def IsFirst (ds : List Dependency) (className : Value) (e : Dependency) : Prop :=
  ∃ before after, ds = before ++ e :: after ∧ e.className = className ∧
    ∀ b ∈ before, b.className ≠ className

variable {ds es : List Dependency} {d e : Dependency} {className : Value}

theorem IsTextual.exists_key (h : d.IsTextual) : ∃ k, d.className.key = .ok k := by
  obtain ⟨path, name, rfl⟩ := h
  exact ⟨.text name, rfl⟩

theorem exists_isFirst (hd : d ∈ ds) : ∃ e, IsFirst ds d.className e := by
  induction ds with
  | nil => cases hd
  | cons b ds ih =>
    by_cases hb : b.className = d.className
    · exact ⟨b, [], ds, rfl, hb, fun _ h => nomatch h⟩
    · have hmem : d ∈ ds := (List.mem_cons.1 hd).resolve_left fun heq => hb (heq ▸ rfl)
      obtain ⟨e, before, after, rfl, he, hbefore⟩ := ih hmem
      exact ⟨e, b :: before, after, rfl, he, List.forall_mem_cons.2 ⟨hb, hbefore⟩⟩

theorem IsFirst.append_right (h : IsFirst ds className e) (es : List Dependency) :
    IsFirst (ds ++ es) className e := by
  obtain ⟨before, after, rfl, he, hbefore⟩ := h
  exact ⟨before, after ++ es, by rw [List.append_assoc, List.cons_append], he, hbefore⟩

theorem IsFirst.mem (h : IsFirst ds className e) : e ∈ ds := by
  obtain ⟨before, after, rfl, -⟩ := h
  exact List.mem_append_right _ List.mem_cons_self

theorem IsFirst.className_eq (h : IsFirst ds className e) : e.className = className := by
  obtain ⟨before, after, -, he, -⟩ := h
  exact he

theorem IsFirst.mem_firstUses (h : IsFirst ds className e) (htext : ∃ w, className = .text w) :
    e ∈ Plan.firstUses [] [] ds := by
  obtain ⟨w, rfl⟩ := htext
  obtain ⟨before, after, rfl, he, hbefore⟩ := h
  refine Plan.mem_firstUses_of_isNew ?_
  rw [Plan.isNew, List.all_eq_true, List.nil_append, List.nil_append, List.forall_mem_map]
  intro b hb
  rw [bne_iff_ne, he]
  exact fun hkey => hbefore b hb (Value.eq_text_of_key? hkey)

end Dependency

namespace Plan

def headerLines (ds : List Dependency) : List String := ds.map fun d => "#include <" ++ d.header ++ ">"

/-- The lines of a feature with those of what it is the first to use. -/
def userLines (u : Feature × List Dependency) : List String := headerLines u.2 ++ ownLines u.1

theorem mem_headerLines {ds : List Dependency} {e : Dependency} (he : e ∈ ds) :
    "#include <" ++ e.header ++ ">" ∈ headerLines ds := List.mem_map.2 ⟨e, he, rfl⟩

/-- An include pass around one of its features: before its own lines are the headers of all that is
first used up to it. -/
theorem lines_passBlock_split (xs ys : List Feature) (f : Feature) :
    ∃ before rest,
      (passBlock (users [] [] (xs ++ f :: ys))).lines = before ++ ownLines f ++ rest ∧
      ∀ e ∈ firstUses [] [] (xs.flatMap Feature.dependencies ++ f.dependencies),
        "#include <" ++ e.header ++ ">" ∈ before := by
  obtain ⟨registry, hlines⟩ : ∃ registry, (passBlock (users [] [] (xs ++ f :: ys))).lines =
      (users [] [] (xs ++ f :: ys)).flatMap userLines ++ registry := by
    rw [lines_passBlock]
    exact ⟨_, rfl⟩
  rw [hlines, users_append, users_cons, List.flatMap_append, List.flatMap_cons]
  refine ⟨(users [] [] xs).flatMap userLines ++
      headerLines (firstUses [] (xs.flatMap Feature.dependencies) f.dependencies),
    (users [] (xs.flatMap Feature.dependencies ++ f.dependencies) ys).flatMap userLines ++ registry,
    ?_, fun e he => ?_⟩
  · simp only [userLines, List.append_assoc, List.nil_append]
  · rw [firstUses_append, ← flatMap_users, List.mem_append, List.mem_flatMap] at he
    rcases he with ⟨u, hu, he⟩ | he
    · refine List.mem_append_left _ (List.mem_flatMap.2 ⟨u, hu, ?_⟩)
      exact List.mem_append_left _ (mem_headerLines he)
    · exact List.mem_append_right _ (mem_headerLines he)

end Plan

theorem Sketch.IsOf.includes_eq_passBlock {s : Sketch} {p : Plan} {d : Draft} {m : Clock.Moment}
    (h : s.IsOf p d m) (hincludable : ∀ f ∈ p.features, f.Includable) :
    s.includes = Plan.passBlock (Plan.users p.included [] p.features) := by
  obtain ⟨blocks, last, hblocks, hincludes⟩ := h.includes
  obtain ⟨last', hpass, -⟩ := Plan.featureBlocks_users (Plan.sameKeys_start p.included) hincludable
  cases hblocks.symm.trans hpass
  exact hincludes

/-- A sketch around one of its features. -/
theorem Sketch.IsOf.lines_split {s : Sketch} {p : Plan} {d : Draft} {m : Clock.Moment}
    {xs ys : List Feature} {f : Feature} (h : s.IsOf p d m) (hincluded : p.included = [])
    (hincludable : ∀ g ∈ p.features, g.Includable) (hp : p.features = xs ++ f :: ys) :
    ∃ before rest, s.lines = before ++ Plan.ownLines f ++ rest ∧
      ∀ e ∈ Plan.firstUses [] [] (xs.flatMap Feature.dependencies ++ f.dependencies),
        "#include <" ++ e.header ++ ">" ∈ before := by
  obtain ⟨before, rest, hlines, hbefore⟩ := Plan.lines_passBlock_split xs ys f
  have hincludes := h.includes_eq_passBlock hincludable
  rw [hincluded, hp] at hincludes
  refine ⟨s.banner.lines ++ before,
    rest ++ s.shared.lines ++ s.reset.lines ++ s.setup.lines ++ s.loop.lines, ?_,
    fun e he => List.mem_append_right _ (hbefore e he)⟩
  rw [lines, hincludes, hlines]
  simp only [List.append_assoc]

/-- Before the own lines of each feature a sketch has, for each library that the feature needs, the
header of the first library of that class name. If all libraries of that class name have one path, this
is the library itself. -/
def Sketch.BringsNeeded (s : Sketch) (fs : List Feature) : Prop :=
  ∀ xs f ys, fs = xs ++ f :: ys →
    ∃ before rest, s.text = Text.unlines (before ++ Plan.ownLines f ++ rest) ∧
      ∀ need ∈ f.dependencies, ∃ e,
        Dependency.IsFirst (fs.flatMap Feature.dependencies) need.className e ∧
        "#include <" ++ e.header ++ ">" ∈ before ∧
        ((∀ g ∈ fs, ∀ e ∈ g.dependencies, e.className = need.className → e.path = need.path) →
          e = need)

theorem Sketch.IsOf.bringsNeeded {s : Sketch} {p : Plan} {d : Draft} {m : Clock.Moment}
    (h : s.IsOf p d m) (hincluded : p.included = [])
    (htexts : ∀ f ∈ p.features, ∀ need ∈ f.dependencies, need.IsTextual) :
    s.BringsNeeded p.features := by
  have hincludable : ∀ g ∈ p.features, g.Includable := fun g hg e he => (htexts g hg e he).exists_key
  intro xs f ys hsplit
  obtain ⟨before, rest, hlines, hbefore⟩ := h.lines_split hincluded hincludable hsplit
  refine ⟨before, rest, congrArg Text.unlines hlines, fun need hneed => ?_⟩
  obtain ⟨e, he⟩ := Dependency.exists_isFirst
    (List.mem_append_right (xs.flatMap Feature.dependencies) hneed)
  have htext : ∃ w, need.className = .text w := by
    obtain ⟨path, name, rfl⟩ := htexts f (by rw [hsplit]; simp) need hneed
    exact ⟨name, rfl⟩
  -- what comes after the feature does not change what is the first
  have hfirst : Dependency.IsFirst (p.features.flatMap Feature.dependencies) need.className e := by
    have hall : p.features.flatMap Feature.dependencies =
        xs.flatMap Feature.dependencies ++ f.dependencies ++ ys.flatMap Feature.dependencies := by
      rw [hsplit, List.flatMap_append, List.flatMap_cons, List.append_assoc]
    exact hall ▸ he.append_right _
  refine ⟨e, hfirst, hbefore e (he.mem_firstUses htext), fun hpaths => ?_⟩
  obtain ⟨g, hg, heg⟩ := List.mem_flatMap.1 hfirst.mem
  have hpath := hpaths g hg e heg hfirst.className_eq
  have hclass := hfirst.className_eq
  obtain ⟨path, name⟩ := e
  obtain ⟨path', name'⟩ := need
  exact congrArg₂ Dependency.mk hpath hclass

namespace Catalog

/-- The fields of all dependencies are texts. -/
def HasTexts (c : Catalog) : Prop := ∀ f ∈ c.features, ∀ d ∈ f.dependencies, d.IsTextual

/-- From a catalog without problems there is a sketch of every selection, and before the header of each
feature it has those of the libraries that the feature needs, as far as their class names go. -/
theorem needed_headers {disk : Disk} {folder : PathName} {c : Catalog}
    (h : load disk folder = .ok c) (hok : c.isOk = true) (htexts : c.HasTexts) :
    ∃ index, c.index = .ok index ∧
      ∀ (d : Draft) (clock : Clock) (time : Option Clock.Time) (m : Clock.Moment),
        (d.features.map Value.key?).Nodup → (∀ name ∈ d.features, ∃ f, index.Finds name f) →
        clock.momentOf time = .ok m →
        ∃ s fs, (d.sketch index clock time).result = .ok s ∧
          List.Forall₂ index.Finds d.features fs ∧ s.BringsNeeded fs := by
  obtain ⟨index, hindex⟩ := (load_sound h hok).exists_index
  refine ⟨index, hindex, fun d clock time m hnodup hfound hm => ?_⟩
  obtain ⟨p, hp⟩ := Plan.exists_resolve_iff.2 ⟨hnodup, hfound⟩
  have hneeds : ∀ f ∈ p.features, ∀ need ∈ f.dependencies, need.IsTextual :=
    fun f hf => htexts f (Sound.mem_of_resolve hindex hp f hf)
  obtain ⟨s, hs⟩ := Draft.exists_sketch hnodup (Plan.resolve_finds hp)
    (fun f hf need hneed => (hneeds f hf need hneed).exists_key) hm
  obtain ⟨q, n, hq, -, hof⟩ := Draft.sketch_ok hs
  cases hp.symm.trans hq
  exact ⟨s, p.features, hs, Plan.resolve_finds hp,
    hof.bringsNeeded (Plan.resolve_included hp) hneeds⟩

/-- Two features that need libraries of one class name with different paths. -/
def twoPaths : Disk :=
  twoFiles
    ("\x7b\"name\": \"Fan\", \"class_name\": \"Fan\", \"instance_name\": \"fan\", " ++
      "\"system_dependencies\": [\x7b\"path\": \"old/\", \"class_name\": \"Wire\"\x7d]\x7d").toUTF8
    ("\x7b\"name\": \"Led\", \"class_name\": \"Led\", \"instance_name\": \"led\", " ++
      "\"system_dependencies\": [\x7b\"class_name\": \"Wire\"\x7d]\x7d").toUTF8

/-- The selection of both features. -/
def fanAndLed : Selection := ⟨"Lamp", 57600, ["Fan", "Led"]⟩

def textsOf (ds : List Dependency) : List (Option String × Option String) :=
  ds.map fun d => (Selection.textOf? d.path, Selection.textOf? d.className)

theorem eq_of_textsOf {ds : List Dependency} (parts : List (String × String))
    (h : textsOf ds = parts.map fun x => (some x.1, some x.2)) :
    ds = parts.map fun x => ⟨.text x.1, .text x.2⟩ := by
  induction ds generalizing parts with
  | nil => rw [List.map_eq_nil_iff.1 h.symm]; rfl
  | cons d ds ih =>
    obtain ⟨x, rest, rfl, hx, hrest⟩ := List.map_eq_cons_iff.1 h.symm
    obtain ⟨hpath, hname⟩ := Prod.mk.inj hx
    rw [List.map_cons, ← ih rest hrest.symm, ← Selection.eq_of_textOf? hpath.symm,
      ← Selection.eq_of_textOf? hname.symm]

/-- What there is to see of a catalog and of the sketch of both features: what the catalog and the
features need, whether there is a problem, and the lines of the sketch. -/
def lookAt (c : Catalog) : Option (List (List (Option String × Option String)) × Bool × Bool) :=
  c.index.toOption.bind fun index =>
    (index.get? (.text "Fan")).bind fun fan => (index.get? (.text "Led")).bind fun led =>
      (fanAndLed.draft.sketch index ⟨.moment .epoch, .utc⟩ none).result.toOption.map fun s =>
        ([textsOf (c.features.flatMap Feature.dependencies), textsOf fan.dependencies,
            textsOf led.dependencies], c.isOk,
          s.lines.all fun l => decide (Text.IsLine l) && l != "#include <Wire.h>")

/-- No problem is found, but only the first feature gets its library. -/
theorem load_twoPaths :
    ∃ c index fan led s, load twoPaths ⟨.root, []⟩ = .ok c ∧ c.isOk = true ∧ c.HasTexts ∧
      c.index = .ok index ∧ index.Finds (.text "Fan") fan ∧ index.Finds (.text "Led") led ∧
      fan.dependencies = [⟨.text "old/", .text "Wire"⟩] ∧
      led.dependencies = [⟨.text "", .text "Wire"⟩] ∧
      (fanAndLed.draft.sketch index ⟨.moment .epoch, .utc⟩ none).result = .ok s ∧
      "#include <Wire.h>" ∉ Text.lines s.text := by
  have hfiles : featureFiles twoPaths ⟨.root, []⟩ = .ok ["fan.json", "led.json"] :=
    featureFiles_twoFiles _ _
  obtain ⟨c, hload, hlook⟩ := exists_load_of_parts hfiles (by simp) lookAt
    (a := ([[(some "old/", some "Wire"), (some "", some "Wire")], [(some "old/", some "Wire")],
      [(some "", some "Wire")]], true, true)) (by decide +kernel)
  simp only [lookAt, Option.bind_eq_some_iff, Option.map_eq_some_iff, Prod.mk.injEq, List.cons.injEq,
    and_true] at hlook
  obtain ⟨index, hindex, fan, hfan, led, hled, s, hs, ⟨hall, hfanNeeds, hneeds⟩, hok, hlines⟩ := hlook
  refine ⟨c, index, fan, led, s, hload, hok, fun f hf d hd => ?_, ok_of_toOption hindex,
    ⟨_, rfl, hfan⟩, ⟨_, rfl, hled⟩, eq_of_textsOf [("old/", "Wire")] hfanNeeds,
    eq_of_textsOf [("", "Wire")] hneeds, ok_of_toOption hs, ?_⟩
  · have hmem : d ∈ c.features.flatMap Feature.dependencies := List.mem_flatMap.2 ⟨f, hf, hd⟩
    rw [eq_of_textsOf [("old/", "Wire"), ("", "Wire")] hall] at hmem
    obtain ⟨x, -, rfl⟩ := List.mem_map.1 hmem
    exact ⟨x.1, x.2, rfl⟩
  · simp only [List.all_eq_true, Bool.and_eq_true, decide_eq_true_eq, bne_iff_ne] at hlines
    rw [Sketch.text, Text.lines_unlines fun l hl => (hlines l hl).1]
    exact fun hmem => (hlines _ hmem).2 rfl

/-- The header that a feature needs can be missing from a sketch, though nothing was found wrong with
the catalog. -/
theorem header_missing :
    ∃ c index led need s, load twoPaths ⟨.root, []⟩ = .ok c ∧ c.isOk = true ∧ c.HasTexts ∧
      c.index = .ok index ∧ Selection.ofValue fanAndLed.toValue = .ok fanAndLed ∧
      index.Finds (.text "Led") led ∧ need ∈ led.dependencies ∧
      (fanAndLed.draft.sketch index ⟨.moment .epoch, .utc⟩ none).result = .ok s ∧
      "#include <" ++ need.header ++ ">" ∉ Text.lines s.text := by
  obtain ⟨c, index, fan, led, s, hload, hok, htexts, hindex, -, hled, -, hneeds, hs, hlost⟩ :=
    load_twoPaths
  have hheader : "#include <" ++ Dependency.header ⟨.text "", .text "Wire"⟩ ++ ">" =
      "#include <Wire.h>" := by decide
  exact ⟨c, index, led, ⟨.text "", .text "Wire"⟩, s, hload, hok, htexts, hindex, rfl, hled,
    hneeds ▸ List.mem_singleton_self _, hs, hheader ▸ hlost⟩

/-- Before the second feature stands the library that came first. -/
theorem needed_headers_twoPaths :
    ∃ c index led s before rest, load twoPaths ⟨.root, []⟩ = .ok c ∧ c.isOk = true ∧ c.HasTexts ∧
      c.index = .ok index ∧ index.Finds (.text "Led") led ∧
      (fanAndLed.draft.sketch index ⟨.moment .epoch, .utc⟩ none).result = .ok s ∧
      s.text = Text.unlines (before ++ Plan.ownLines led ++ rest) ∧
      "#include <old/Wire.h>" ∈ before := by
  obtain ⟨c, index, fan, led, s, hload, hok, htexts, hindex, hfan, hled, hfanNeeds, hneeds, hs, -⟩ :=
    load_twoPaths
  obtain ⟨index', hindex', hneeded⟩ := needed_headers hload hok htexts
  cases hindex.symm.trans hindex'
  obtain ⟨s', fs, hs', hfs, hheaders⟩ := hneeded fanAndLed.draft ⟨.moment .epoch, .utc⟩ none _
    (by decide) (List.forall_mem_cons.2 ⟨⟨fan, hfan⟩, List.forall_mem_singleton.2 ⟨led, hled⟩⟩)
    rfl
  cases hs.symm.trans hs'
  obtain rfl : fs = [fan, led] := index.finds_unique.forall₂ hfs (.cons hfan (.cons hled .nil))
  obtain ⟨before, rest, htext, hbefore⟩ := hheaders [fan] led [] rfl
  obtain ⟨e, hfirst, hmem, -⟩ := hbefore _ (hneeds ▸ List.mem_singleton_self _)
  refine ⟨c, index, led, s, before, rest, hload, hok, htexts, hindex, hled, hs, htext, ?_⟩
  obtain ⟨others, after, hsplit, -, hothers⟩ := hfirst
  rw [List.flatMap_cons, List.flatMap_singleton, hfanNeeds, hneeds] at hsplit
  cases others with
  | nil =>
    cases hsplit
    exact hmem
  | cons b others =>
    obtain ⟨hb, -⟩ := List.cons.inj hsplit
    exact absurd rfl (hb ▸ hothers b List.mem_cons_self)

end Catalog

end FirmataSketch
