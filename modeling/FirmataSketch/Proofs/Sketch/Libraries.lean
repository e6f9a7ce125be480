import FirmataSketch.Proofs.Sketch.Assembly
import FirmataSketch.Proofs.Sketch.PlanLines
import Mathlib.Data.List.Nodup

/-! Headers of libraries: each of them is included once, before the first feature that needs it.
Which headers are included does not depend on the order of the features. -/

namespace FirmataSketch

namespace Sketch.Block

/-- The headers that are included for others: no instance is declared right after them. -/
def libraries : Block → List String
  | .include _ :: .declare _ _ :: items => libraries items
  | .include header :: items => header :: libraries items
  | _ :: items => libraries items
  | [] => []

/-- Of the dependencies of the features, the block includes one for each class name. -/
def IncludesOnce (b : Block) (fs : List Feature) : Prop :=
  ∃ ds : List Dependency, b.libraries = ds.map Dependency.header ∧
    (ds.map Dependency.className).Nodup ∧ ∀ d, d ∈ ds ↔ ∃ f ∈ fs, d ∈ f.dependencies

theorem IncludesOnce.of_perm {b : Block} {fs gs : List Feature} (h : b.IncludesOnce fs)
    (hperm : fs.Perm gs) : b.IncludesOnce gs := by
  obtain ⟨ds, hlibraries, hnodup, hmem⟩ := h
  refine ⟨ds, hlibraries, hnodup, fun d => (hmem d).trans ?_⟩
  simp only [hperm.mem_iff]

theorem libraries_include_append {b : Block} {header : String}
    (hb : ∀ c n items, b ≠ .declare c n :: items) :
    libraries (.include header :: b) = header :: libraries b := by
  cases b with
  | nil => rfl
  | cons i items =>
    cases i with
    | declare c n => exact absurd rfl (hb c n items)
    | _ => rfl

end Sketch.Block

namespace Plan

open Sketch

variable {included middle last : List Value} {ds es fresh : List Dependency} {d : Dependency}

theorem freshDependencies_append {first rest : List Dependency}
    (hds : freshDependencies included ds = (.ok first, middle))
    (hes : freshDependencies middle es = (.ok rest, last)) :
    freshDependencies included (ds ++ es) = (.ok (first ++ rest), last) := by
  induction ds generalizing included first with
  | nil =>
    cases hds
    exact hes
  | cons d ds ih =>
    obtain ⟨k, hk, ⟨hamong, htail⟩ | ⟨hamong, tail, rfl, htail⟩⟩ := freshDependencies_cons_ok hds
    · rw [List.cons_append, freshDependencies, Value.key_eq_ok_iff.2 hk]
      simp only [hamong, if_true]
      exact ih htail
    · rw [List.cons_append, freshDependencies, Value.key_eq_ok_iff.2 hk]
      simp only [hamong, Bool.false_eq_true, if_false, ih htail]
      rfl

theorem isAmong_cons {k : Key} {v : Value} :
    k.isAmong (v :: included) = true ↔ v.key? = some k ∨ k.isAmong included = true := by
  simp [Key.isAmong]

/-- One dependency is fresh for each class name that was not included before. -/
theorem freshDependencies_spec (h : freshDependencies included ds = (.ok fresh, last)) :
    (fresh.map (·.className.key?)).Nodup ∧
    (∀ e ∈ fresh, ∀ k, e.className.key? = some k → k.isAmong included = false) ∧
    ∀ e ∈ ds, ∃ k, e.className.key? = some k ∧
      (k.isAmong included = true ∨ ∃ e' ∈ fresh, e'.className.key? = some k) := by
  induction ds generalizing included fresh with
  | nil =>
    cases h
    simp
  | cons d ds ih =>
    obtain ⟨k, hk, ⟨hamong, hds⟩ | ⟨hamong, rest, rfl, hds⟩⟩ := freshDependencies_cons_ok h
    · obtain ⟨hnodup, hfresh, hall⟩ := ih hds
      refine ⟨hnodup, hfresh, List.forall_mem_cons.2 ⟨⟨k, hk, .inl hamong⟩, hall⟩⟩
    · obtain ⟨hnodup, hfresh, hall⟩ := ih hds
      have hother : ∀ e ∈ rest, ∀ j, e.className.key? = some j →
          d.className.key? ≠ some j ∧ j.isAmong included = false := by
        intro e he j hj
        have hnot := hfresh e he j hj
        rw [← Bool.not_eq_true, isAmong_cons, not_or, Bool.not_eq_true] at hnot
        exact hnot
      refine ⟨?_, ?_, ?_⟩
      · rw [List.map_cons, List.nodup_cons, List.mem_map]
        refine ⟨?_, hnodup⟩
        rintro ⟨e, he, hsame⟩
        exact (hother e he k (hsame.trans hk)).1 hk
      · rw [List.forall_mem_cons]
        refine ⟨fun j hj => ?_, fun e he j hj => (hother e he j hj).2⟩
        rw [hk, Option.some.injEq] at hj
        exact hj ▸ hamong
      · rw [List.forall_mem_cons]
        refine ⟨⟨k, hk, .inr ⟨d, List.mem_cons_self, hk⟩⟩, fun e he => ?_⟩
        obtain ⟨j, hj, hthere⟩ := hall e he
        refine ⟨j, hj, ?_⟩
        rw [isAmong_cons] at hthere
        rcases hthere with (hd | hthere) | ⟨e', he', hkey⟩
        · exact .inr ⟨d, List.mem_cons_self, hd⟩
        · exact .inl hthere
        · exact .inr ⟨e', List.mem_cons_of_mem d he', hkey⟩

/-- If a class name stands for one dependency, all dependencies are fresh at first, each once. -/
theorem mem_freshDependencies (h : freshDependencies [] ds = (.ok fresh, last))
    (hsame : ∀ d ∈ ds, ∀ e ∈ ds, d.className.key? = e.className.key? → d = e) :
    d ∈ fresh ↔ d ∈ ds := by
  obtain ⟨-, -, hall⟩ := freshDependencies_spec h
  have hsub := (freshDependencies_sublist h).subset
  refine ⟨fun hd => hsub hd, fun hd => ?_⟩
  obtain ⟨k, hk, hthere | ⟨e, he, hkey⟩⟩ := hall d hd
  · cases hthere
  · exact hsame d hd e (hsub he) (hk.trans hkey.symm) ▸ he

theorem freshDependencies_perm {fresh' : List Dependency} {last' : List Value}
    (hperm : ds.Perm es) (hsame : ∀ d ∈ ds, ∀ e ∈ ds, d.className.key? = e.className.key? → d = e)
    (hds : freshDependencies [] ds = (.ok fresh, last))
    (hes : freshDependencies [] es = (.ok fresh', last')) : fresh.Perm fresh' := by
  have hnodup := List.Nodup.of_map _ (freshDependencies_spec hds).1
  have hnodup' := List.Nodup.of_map _ (freshDependencies_spec hes).1
  rw [List.perm_ext_iff_of_nodup hnodup hnodup']
  intro d
  rw [mem_freshDependencies hds hsame, mem_freshDependencies hes, hperm.mem_iff]
  exact fun d hd e he => hsame d (hperm.mem_iff.2 hd) e (hperm.mem_iff.2 he)

/-- The lines of a feature without those of its dependencies. -/
def ownLines (f : Feature) : List String :=
  ["#include <" ++ f.header ++ ">", f.classText ++ " " ++ f.instanceText ++ ";", ""]

theorem libraries_featureBlock_append (f : Feature) (fresh : List Dependency) (rest : Block) :
    (featureBlock f fresh ++ rest).libraries = fresh.map Dependency.header ++ rest.libraries := by
  induction fresh with
  | nil => rfl
  | cons d fresh ih =>
    have hcons : featureBlock f (d :: fresh) ++ rest =
        .include d.header :: (featureBlock f fresh ++ rest) := rfl
    have hnext : ∀ c n items, featureBlock f fresh ++ rest ≠ .declare c n :: items := by
      cases fresh <;> exact fun _ _ _ h => nomatch h
    rw [hcons, Block.libraries_include_append hnext, ih]
    rfl

theorem featureBlocks_fresh {fs : List Feature} {b : Block}
    (h : featureBlocks included fs = (.ok b, last)) :
    ∃ fresh, freshDependencies included (fs.flatMap Feature.dependencies) = (.ok fresh, last) ∧
      b.lines.Perm (fresh.map (fun d => "#include <" ++ d.header ++ ">") ++ fs.flatMap ownLines) ∧
      ∀ rest, (b ++ rest).libraries = fresh.map Dependency.header ++ Block.libraries rest := by
  induction fs generalizing included b with
  | nil =>
    cases h
    exact ⟨[], rfl, .refl _, fun _ => rfl⟩
  | cons f fs ih =>
    obtain ⟨first, middle, tail, hfirst, htail, rfl⟩ := featureBlocks_cons_ok h
    obtain ⟨others, hothers, hlines, hlibraries⟩ := ih htail
    refine ⟨first ++ others, freshDependencies_append hfirst hothers, ?_, fun rest => ?_⟩
    · rw [Block.lines_append, lines_featureBlock, List.map_append, List.flatMap_cons,
        List.append_assoc, List.append_assoc]
      exact .append_left _ ((hlines.append_left _).trans (List.perm_append_comm_assoc _ _ _))
    · rw [List.append_assoc, libraries_featureBlock_append, hlibraries, List.map_append,
        List.append_assoc]

end Plan

namespace Sketch.IsOf

variable {s : Sketch} {p : Plan} {d : Draft} {m : Clock.Moment}

/-- The lines of the headers and the instances: those of the fresh dependencies, those of the features
and those of the registry. -/
theorem includes_fresh (h : s.IsOf p d m) (hincluded : p.included = []) :
    ∃ fresh last, Plan.freshDependencies [] (p.features.flatMap Feature.dependencies) =
        (.ok fresh, last) ∧
      s.includes.lines.Perm (fresh.map (fun d => "#include <" ++ d.header ++ ">") ++
        p.features.flatMap Plan.ownLines ++ Plan.registryBlock.lines) ∧
      s.includes.libraries = fresh.map Dependency.header := by
  obtain ⟨blocks, last, hblocks, hincludes⟩ := h.includes
  rw [hincluded] at hblocks
  obtain ⟨fresh, hfresh, hlines, hlibraries⟩ := Plan.featureBlocks_fresh hblocks
  refine ⟨fresh, last, hfresh, ?_, ?_⟩
  · rw [hincludes, Block.lines_append]
    exact hlines.append_right _
  · rw [hincludes, hlibraries]
    exact List.append_nil _

theorem includesOnce (h : s.IsOf p d m) (hincluded : p.included = [])
    (hsame : ∀ d ∈ p.features.flatMap Feature.dependencies,
      ∀ e ∈ p.features.flatMap Feature.dependencies,
        d.className.key? = e.className.key? → d = e) :
    s.includes.IncludesOnce p.features := by
  obtain ⟨fresh, last, hfresh, -, hlibraries⟩ := h.includes_fresh hincluded
  have hnodup := (Plan.freshDependencies_spec hfresh).1
  refine ⟨fresh, hlibraries, ?_, fun d => ?_⟩
  · refine List.Nodup.of_map Value.key? ?_
    rw [List.map_map]
    exact hnodup
  · rw [Plan.mem_freshDependencies hfresh hsame, List.mem_flatMap]

end Sketch.IsOf

end FirmataSketch
