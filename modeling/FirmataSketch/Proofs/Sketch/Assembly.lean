import FirmataSketch.Proofs.Outcome
import FirmataSketch.Proofs.Sketch.LoopCode
import FirmataSketch.Sketch.Generate

/-! What a generated sketch is put together from: a resolved plan, a moment, and the blocks of the
features with the headers that each of them is the first to need. Only a dependency whose class name
cannot be a key keeps a resolved plan from becoming a sketch. -/

namespace FirmataSketch

open Outcome (bind_ok mapError_ok map_ok)
open Sketch (Block bannerBlock)

namespace Plan

theorem freshDependencies_cons_ok {included last : List Value} {d : Dependency}
    {ds fresh : List Dependency} (h : freshDependencies included (d :: ds) = (.ok fresh, last)) :
    ∃ k, d.className.key? = some k ∧
      (k.isAmong included = true ∧ freshDependencies included ds = (.ok fresh, last) ∨
        k.isAmong included = false ∧ ∃ rest, fresh = d :: rest ∧
          freshDependencies (d.className :: included) ds = (.ok rest, last)) := by
  rw [freshDependencies] at h
  split at h
  next => cases h
  next k hk =>
    refine ⟨k, Value.key_eq_ok_iff.1 hk, ?_⟩
    split at h
    next hamong => exact .inl ⟨hamong, h⟩
    next hamong =>
      cases hrest : freshDependencies (d.className :: included) ds with
      | mk rest after =>
        rw [hrest] at h
        cases rest with
        | error m => cases h
        | ok rest =>
          cases h
          exact .inr ⟨by simpa using hamong, rest, rfl, rfl⟩

theorem freshDependencies_sublist {included included' : List Value} {ds fresh : List Dependency}
    (h : freshDependencies included ds = (.ok fresh, included')) : fresh.Sublist ds := by
  induction ds generalizing included fresh with
  | nil =>
    cases h
    exact List.Sublist.slnil
  | cons d ds ih =>
    obtain ⟨k, -, ⟨-, htail⟩ | ⟨-, rest, rfl, htail⟩⟩ := freshDependencies_cons_ok h
    · exact (ih htail).cons d
    · exact (ih htail).cons_cons d

/-- The blocks of a feature and of those after it. -/
theorem featureBlocks_cons_ok {included last : List Value} {f : Feature} {fs : List Feature}
    {b : Block} (h : featureBlocks included (f :: fs) = (.ok b, last)) :
    ∃ fresh after rest, freshDependencies included f.dependencies = (.ok fresh, after) ∧
      featureBlocks after fs = (.ok rest, last) ∧ b = featureBlock f fresh ++ rest := by
  rw [featureBlocks] at h
  split at h
  next => cases h
  next fresh after hfresh =>
    cases hrest : featureBlocks after fs with
    | mk rest last' =>
      rw [hrest] at h
      cases rest with
      | error m => cases h
      | ok rest =>
        cases h
        exact ⟨fresh, after, rest, hfresh, hrest, rfl⟩

theorem featureBlocks_ok {included included' : List Value} {fs : List Feature} {b : Block}
    (h : featureBlocks included fs = (.ok b, included')) :
    ∃ freshes, List.Forall₂ (fun f fresh => List.Sublist fresh f.dependencies) fs freshes ∧
      b = (List.zipWith featureBlock fs freshes).flatten := by
  induction fs generalizing included included' b with
  | nil =>
    cases h
    exact ⟨[], .nil, rfl⟩
  | cons f fs ih =>
    obtain ⟨fresh, after, rest, hfresh, hrest, rfl⟩ := featureBlocks_cons_ok h
    obtain ⟨freshes, hsub, rfl⟩ := ih hrest
    exact ⟨fresh :: freshes, .cons (freshDependencies_sublist hfresh) hsub, rfl⟩

theorem featureBlocks_append {included last : List Value} {fs gs : List Feature} {b : Block}
    (h : featureBlocks included (fs ++ gs) = (.ok b, last)) :
    ∃ first middle rest, featureBlocks included fs = (.ok first, middle) ∧
      featureBlocks middle gs = (.ok rest, last) ∧ b = first ++ rest := by
  induction fs generalizing included b with
  | nil => exact ⟨[], included, b, rfl, h, rfl⟩
  | cons f fs ih =>
    obtain ⟨fresh, after, tail, hfresh, htail, rfl⟩ := featureBlocks_cons_ok h
    obtain ⟨first, middle, rest, hfirst, hrest, rfl⟩ := ih htail
    refine ⟨featureBlock f fresh ++ first, middle, rest, ?_, hrest, (List.append_assoc ..).symm⟩
    rw [featureBlocks, hfresh]
    simp only [hfirst]
    rfl

end Plan

/-- The class names of all dependencies can be keys. -/
def Feature.Includable (f : Feature) : Prop := ∀ d ∈ f.dependencies, ∃ k, d.className.key = .ok k

namespace Plan

theorem freshDependencies_total {ds : List Dependency}
    (h : ∀ d ∈ ds, ∃ k, d.className.key = .ok k) (included : List Value) :
    ∃ fresh after, freshDependencies included ds = (.ok fresh, after) := by
  induction ds generalizing included with
  | nil => exact ⟨[], included, rfl⟩
  | cons d ds ih =>
    obtain ⟨k, hk⟩ := h d List.mem_cons_self
    have hds := ih fun d' hd' => h d' (List.mem_cons_of_mem d hd')
    simp only [freshDependencies, hk]
    split
    · exact hds included
    · obtain ⟨fresh, after, hfresh⟩ := hds (d.className :: included)
      rw [hfresh]
      exact ⟨d :: fresh, after, rfl⟩

theorem featureBlocks_total {fs : List Feature} (h : ∀ f ∈ fs, f.Includable)
    (included : List Value) : ∃ b after, featureBlocks included fs = (.ok b, after) := by
  -- what an earlier feature included is left open, as the later ones start from it
  induction fs generalizing included with
  | nil => exact ⟨[], included, rfl⟩
  | cons f fs ih =>
    obtain ⟨fresh, after, hfresh⟩ := freshDependencies_total (h f List.mem_cons_self) included
    obtain ⟨b, last, hb⟩ := ih (fun g hg => h g (List.mem_cons_of_mem f hg)) after
    rw [featureBlocks, hfresh]
    simp only [hb]
    exact ⟨featureBlock f fresh ++ b, last, rfl⟩

end Plan

namespace Sketch

/-- The parts of a sketch are those of a plan. -/
structure IsOf (s : Sketch) (p : Plan) (d : Draft) (m : Clock.Moment) : Prop where
  banner : s.banner = bannerBlock d.filename m
  includes : ∃ blocks included', Plan.featureBlocks p.included p.features = (.ok blocks, included') ∧
    s.includes = blocks ++ Plan.registryBlock
  shared : s.shared = p.shared
  reset : s.reset = p.resetBlock
  setup : s.setup = p.setup d.baud
  loop : p.loop = .ok s.loop

theorem isOf_of_ofPlan {p : Plan} {d : Draft} {m : Clock.Moment} {s : Sketch}
    (h : ofPlan p d.filename d.baud m = .ok s) : s.IsOf p d m := by
  unfold ofPlan Plan.includes at h
  cases hb : Plan.featureBlocks p.included p.features with
  | mk blocks included' =>
    simp only [hb] at h
    obtain ⟨includes, hincludes, h⟩ := bind_ok h
    obtain ⟨loop, hloop, h⟩ := bind_ok h
    obtain ⟨block, rfl, rfl⟩ := map_ok hincludes
    cases h
    exact ⟨rfl, ⟨block, included', hb, rfl⟩, rfl, rfl, rfl, hloop⟩

theorem ofPlan_of_featureBlocks {p : Plan} (h : p.Consistent) {blocks : Block} {after : List Value}
    (hblocks : Plan.featureBlocks p.included p.features = (.ok blocks, after)) (filename : Value)
    (baud : Option Value) (m : Clock.Moment) : ∃ s, ofPlan p filename baud m = .ok s := by
  -- what was included has no say in the loop
  have hp : Plan.Consistent { p with included := after } := ⟨h.has_iff, h.reporting_eq, h.update_eq⟩
  unfold ofPlan Plan.includes
  simp only [hblocks, hp.loop_eq]
  exact ⟨_, rfl⟩

theorem ofPlan_total {p : Plan} (h : p.Consistent) (hfeatures : ∀ f ∈ p.features, f.Includable)
    (filename : Value) (baud : Option Value) (m : Clock.Moment) :
    ∃ s, ofPlan p filename baud m = .ok s := by
  obtain ⟨blocks, after, hblocks⟩ := Plan.featureBlocks_total hfeatures p.included
  exact ofPlan_of_featureBlocks h hblocks filename baud m

end Sketch

namespace Draft

variable {d : Draft} {index : Index} {clock : Clock} {time : Option Clock.Time}

theorem sketch_of_unresolved {e : Failure}
    (h : Plan.resolve index d.features = .error e) :
    d.sketch index clock time = ⟨[], .error e⟩ := by
  unfold sketch Traced.andThen Traced.ofExcept
  rw [h]

theorem sketch_of_resolved {p : Plan} (h : Plan.resolve index d.features = .ok p) :
    d.sketch index clock time = ⟨[.resolved p], do
      let m ← (clock.momentOf time).mapError .time
      (Sketch.ofPlan p d.filename d.baud m).mapError .misuse⟩ := by
  unfold sketch Traced.andThen Traced.ofExcept
  rw [h]
  rfl

theorem sketch_ok {s : Sketch} (h : (d.sketch index clock time).result = .ok s) :
    ∃ p m, Plan.resolve index d.features = .ok p ∧ clock.momentOf time = .ok m ∧
      s.IsOf p d m := by
  cases hp : Plan.resolve index d.features with
  | error e =>
    rw [sketch_of_unresolved hp] at h
    cases h
  | ok p =>
    rw [sketch_of_resolved hp] at h
    obtain ⟨m, hm, hs⟩ := bind_ok h
    exact ⟨p, m, rfl, mapError_ok hm, Sketch.isOf_of_ofPlan (mapError_ok hs)⟩

theorem sketch_of_ofPlan {p : Plan} {m : Clock.Moment} {s : Sketch}
    (hp : Plan.resolve index d.features = .ok p) (hm : clock.momentOf time = .ok m)
    (hs : Sketch.ofPlan p d.filename d.baud m = .ok s) :
    (d.sketch index clock time).result = .ok s := by
  rw [sketch_of_resolved hp]
  simp only [hm, hs, Except.mapError, bind, Except.bind]

/-- Different names that are found, with headers that can be included, have a sketch. -/
theorem exists_sketch {fs : List Feature} {m : Clock.Moment}
    (hnodup : (d.features.map Value.key?).Nodup) (hfs : List.Forall₂ index.Finds d.features fs)
    (hincludable : ∀ f ∈ fs, f.Includable) (hm : clock.momentOf time = .ok m) :
    ∃ s, (d.sketch index clock time).result = .ok s := by
  have hfound : ∀ name ∈ d.features, ∃ f, index.Finds name f := by
    intro name hname
    obtain ⟨i, hi, rfl⟩ := List.mem_iff_getElem.1 hname
    exact ⟨_, hfs.get hi (hfs.length_eq ▸ hi)⟩
  obtain ⟨p, hp⟩ := Plan.exists_resolve_iff.2 ⟨hnodup, hfound⟩
  have hfeatures : p.features = fs := index.finds_unique.forall₂ (Plan.resolve_finds hp) hfs
  obtain ⟨s, hs⟩ := Sketch.ofPlan_total (Plan.resolve_consistent hp)
    (hfeatures ▸ hincludable) d.filename d.baud m
  exact ⟨s, sketch_of_ofPlan hp hm hs⟩

end Draft

end FirmataSketch
