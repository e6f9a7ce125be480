import FirmataSketch.Proofs.Catalog.ShippedIndex
import FirmataSketch.Proofs.Outcome
import FirmataSketch.Proofs.Sketch.Declaration
import FirmataSketch.Sketch.Save

/-! Drawing the sketch of a selection: how it can fail, and what it tells on the way. -/

namespace FirmataSketch

open Disk (PathName)
open Outcome (bind_error mapError_error)

namespace Plan

variable {index : Index} {seen : List Key} {p : Plan} {e : Failure}

/-- One of the names is unknown, comes twice or cannot be a name. -/
theorem resolveFrom_error {names : List Value} (h : resolveFrom index seen p names = .error e) :
    ∃ name ∈ names, e = .unknownFeature name ∨ e = .repeatedFeature name ∨
      ∃ m, e = .misuse m ∧ name.key = .error m := by
  induction names generalizing seen p with
  | nil => cases h
  | cons name names ih =>
    rw [resolveFrom] at h
    cases hk : name.key with
    | error m =>
      rw [hk] at h
      cases h
      exact ⟨name, List.mem_cons_self, .inr (.inr ⟨m, rfl, hk⟩)⟩
    | ok k =>
      rw [hk] at h
      simp only [Except.mapError, bind, Except.bind, List.contains_iff_mem] at h
      split at h
      · cases h
        exact ⟨name, List.mem_cons_self, .inr (.inl rfl)⟩
      · cases hf : index.get? k with
        | none =>
          rw [hf] at h
          cases h
          exact ⟨name, List.mem_cons_self, .inl rfl⟩
        | some f =>
          rw [hf] at h
          obtain ⟨other, hother, he⟩ := ih h
          exact ⟨other, List.mem_cons_of_mem name hother, he⟩

theorem resolve_texts_error {names : List String}
    (h : resolve index (names.map .text) = .error e) :
    ∃ name ∈ names, e = .unknownFeature (.text name) ∨ e = .repeatedFeature (.text name) := by
  obtain ⟨v, hv, he⟩ := resolveFrom_error h
  obtain ⟨name, hname, rfl⟩ := List.mem_map.1 hv
  refine ⟨name, hname, ?_⟩
  rcases he with he | he | ⟨m, -, hkey⟩
  · exact .inl he
  · exact .inr he
  · cases hkey

theorem isOwn_of_resolve_texts_error {names : List String}
    (h : resolve index (names.map .text) = .error e) : e.isOwn = true := by
  obtain ⟨name, -, rfl | rfl⟩ := resolve_texts_error h
  · rfl
  · rfl

theorem resolve_of_missing {names : List String} {name : String} (hname : name ∈ names)
    (hmissing : index.get? (.text name) = none) :
    ∃ e, resolve index (names.map .text) = .error e ∧ e.isOwn = true := by
  cases h : resolve index (names.map .text) with
  | error e => exact ⟨e, rfl, isOwn_of_resolve_texts_error h⟩
  | ok q =>
    obtain ⟨f, -, k, hk, hf⟩ := exists_found h (List.mem_map_of_mem (f := Value.text) hname)
    cases hk
    rw [hmissing] at hf
    cases hf

theorem includable_of_resolve {names : List Value}
    (hindex : ∀ {k f}, index.get? k = some f → f.Includable) (hp : resolve index names = .ok p) :
    ∀ f ∈ p.features, f.Includable := by
  intro f hf
  obtain ⟨-, -, k, -, hk⟩ := (mem_features_of_resolve hp f).1 hf
  exact hindex hk

end Plan

namespace Draft

variable {d : Draft} {index : Index} {clock : Clock} {time : Option Clock.Time} {e : Failure}

theorem sketch_error (h : (d.sketch index clock time).result = .error e) :
    e.isReported = e.isOwn := by
  cases hp : Plan.resolve index d.features with
  | error e' =>
    rw [sketch_of_unresolved hp] at h
    cases h
    obtain ⟨name, -, rfl | rfl | ⟨m, rfl, -⟩⟩ := Plan.resolveFrom_error hp <;> rfl
  | ok p =>
    rw [sketch_of_resolved hp] at h
    rcases bind_error h with hm | ⟨m, -, hs⟩
    · obtain ⟨t, -, rfl⟩ := mapError_error hm
      rfl
    · obtain ⟨t, -, rfl⟩ := mapError_error hs
      rfl

/-- If the headers can be included and the clock can show the time, a draft without a sketch has a name
that is not resolved. -/
theorem unresolved_of_sketch_error {m : Clock.Moment}
    (hindex : ∀ {k f}, index.get? k = some f → f.Includable) (hm : clock.momentOf time = .ok m)
    (h : (d.sketch index clock time).result = .error e) :
    Plan.resolve index d.features = .error e := by
  cases hp : Plan.resolve index d.features with
  | error e' =>
    rw [sketch_of_unresolved hp] at h
    cases h
    rfl
  | ok p =>
    obtain ⟨s, hs⟩ := Sketch.ofPlan_total (Plan.resolve_consistent hp)
      (Plan.includable_of_resolve hindex hp) d.filename d.baud m
    rw [sketch_of_ofPlan hp hm hs] at h
    cases h

/-- With names that are texts and headers that can be included, only the clock can fail on its own. -/
theorem isOwn_of_sketch_error {names : List String} {m : Clock.Moment}
    (hnames : d.features = names.map .text)
    (hindex : ∀ {k f}, index.get? k = some f → f.Includable) (hm : clock.momentOf time = .ok m)
    (h : (d.sketch index clock time).result = .error e) : e.isOwn = true :=
  Plan.isOwn_of_resolve_texts_error (hnames ▸ unresolved_of_sketch_error hindex hm h)

theorem level_of_mem_events {v : Event} (h : v ∈ (d.sketch index clock time).events) :
    v.level = .debug := by
  cases hp : Plan.resolve index d.features with
  | error e =>
    rw [sketch_of_unresolved hp] at h
    cases h
  | ok p =>
    rw [sketch_of_resolved hp, List.mem_singleton] at h
    rw [h]
    rfl

theorem generate_result :
    (d.generate index clock time).result = (d.sketch index clock time).result.map Sketch.text := by
  unfold generate Traced.andThen
  cases (d.sketch index clock time).result <;> rfl

/-- Generates the text of a sketch and hands it to a writer, with the name of the sketch. -/
def handTo {α : Type} (d : Draft) (index : Index) (clock : Clock) (time : Option Clock.Time)
    (writer : Value → String → Except Failure α) : Except Failure α := do
  let text ← (d.generate index clock time).result
  writer d.filename text

theorem save_result (disk : Disk) (folder : PathName) :
    (d.save index clock time disk folder).2.result =
      d.handTo index clock time fun name text => (disk.saveSketch folder name text).2.result := by
  unfold save handTo
  cases h : (d.generate index clock time).result <;> simp only [h] <;> rfl

end Draft

/-- The file name of a sketch stands in its second line. -/
theorem Sketch.IsOf.text_start {s : Sketch} {p : Plan} {d : Draft} {m : Clock.Moment}
    (h : s.IsOf p d m) :
    ∃ rest, s.text =
      Text.unlines ["/*", " * " ++ d.sketchFilename ++ " generated by FirmataBuilder"] ++ rest := by
  have hbanner : s.banner.text = Text.unlines
      (["/*", " * " ++ d.sketchFilename ++ " generated by FirmataBuilder"] ++
        [" * " ++ m.stamp, " */", "", "#include <" ++ protocolHeader ++ ">", ""]) := by
    have hname : " * " ++ d.sketchFilename ++ " generated by FirmataBuilder" =
        " * " ++ (d.sketchFilename ++ " generated by FirmataBuilder") := String.append_assoc
    rw [h.banner, hname]
    rfl
  rw [s.text_eq, hbanner, Text.unlines_append, String.append_assoc, String.append_assoc]
  exact ⟨_, rfl⟩

theorem Catalog.shippedIndex_className (home : PathName) {k : Key} {f : Feature}
    (h : (shippedIndex home).get? k = some f) :
    ∀ d ∈ f.dependencies, ∃ library, d.className = .text library := by
  obtain ⟨entry, hentry, rfl⟩ := Option.map_eq_some_iff.1 h
  obtain ⟨before, after, hsplit, -⟩ := List.lookup_eq_some_iff.1 hentry
  have hmem : (k, entry) ∈ (shippedIndex home).entries := by simp [hsplit]
  obtain ⟨supply, -, hsupply⟩ := List.mem_map.1 hmem
  cases hsupply
  intro d hd
  obtain ⟨library, -, rfl⟩ := List.mem_map.1 hd
  exact ⟨library, rfl⟩

theorem Catalog.shippedIndex_includable (home : PathName) {k : Key} {f : Feature}
    (h : (shippedIndex home).get? k = some f) : f.Includable := by
  intro d hd
  obtain ⟨library, hlibrary⟩ := shippedIndex_className home h d hd
  exact ⟨.text library, by rw [hlibrary]; rfl⟩

/-- A selection that was made, with its sketch from the shipped catalog. -/
def Selection.drawn (home : PathName) (clock : Clock) (made : Except Failure Selection) :
    Except Failure (Selection × Sketch) := do
  let s ← made
  let sketch ← (s.draft.sketch (Catalog.shippedIndex home) clock none).result
  return (s, sketch)

end FirmataSketch
