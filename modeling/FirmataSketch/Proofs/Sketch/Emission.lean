import FirmataSketch.Proofs.Sketch.Drawing
import FirmataSketch.Proofs.Sketch.Libraries
import FirmataSketch.Sketch.Session

/-! Emission: the six parts of a sketch, each written for itself, and what keeps one of them from being
written. The flags of a resolved plan and the providers of capabilities agree, so the loop always finds
its scheduler; only a time that cannot be shown is left. -/

namespace FirmataSketch

open Outcome (exists_error exists_mapError_error_iff map_ok)
open Sketch (Block)

/-- The feature is the first one in the list that declares the capability. -/
def Feature.IsFirstWith (fs : List Feature) (c : Capability) (f : Feature) : Prop :=
  f.capability = some c ∧
    ∃ before after, fs = before ++ f :: after ∧ ∀ g ∈ before, g.capability ≠ some c

/-- The class names of the dependencies of all features are texts. -/
def Index.HasTexts (index : Index) : Prop :=
  ∀ k f, index.get? k = some f → ∀ d ∈ f.dependencies, ∃ s, d.className = .text s

theorem Index.HasTexts.includable {index : Index} (h : index.HasTexts) {k : Key} {f : Feature}
    (hf : index.get? k = some f) : f.Includable := by
  intro d hd
  obtain ⟨s, hs⟩ := h k f hf d hd
  exact ⟨.text s, by rw [hs]; rfl⟩

namespace Sketch

/-- A part of a sketch, with what is needed for it beside a plan. -/
inductive Part where
  | banner (filename : Value) (time : Option Clock.Time)
  | includes
  | shared
  | reset
  | setup (baud : Option Value)
  | loop

/-- The use of a plan that writes a part. The time of a banner has to be settled first. -/
def Part.use (clock : Clock) : Part → Except Failure Use
  | .banner filename time => ((clock.momentOf time).mapError .time).map (Use.banner filename)
  | .includes => .ok .includes
  | .shared => .ok .shared
  | .reset => .ok .reset
  | .setup baud => .ok (.setup baud)
  | .loop => .ok .loop

end Sketch

open Sketch (Part)

namespace Plan

variable {p : Plan} {clock : Clock} {part : Part} {c : Capability}

def emit (p : Plan) (clock : Clock) (part : Part) : Except Failure Block := do
  let u ← part.use clock
  (p.use u).1.mapError .misuse

/-- What keeps a part from being written. -/
inductive Blocked (p : Plan) (clock : Clock) : Part → Prop
  | banner {filename : Value} {time : Option Clock.Time} {fault : Clock.Fault}
      (h : clock.momentOf time = .error fault) : Blocked p clock (.banner filename time)
  | includes {f : Feature} (hf : f ∈ p.features) (h : ¬ f.Includable) : Blocked p clock .includes
  | loop (h : p.has .scheduler = true) (hnone : ∀ f ∈ p.features, f.capability ≠ some .scheduler) :
      Blocked p clock .loop

theorem provider?_eq_none_iff : p.provider? c = none ↔ ∀ f ∈ p.features, f.capability ≠ some c := by
  rw [provider?, List.find?_eq_none]
  simp only [beq_iff_eq, ne_eq]

theorem provider?_eq_some_iff {f : Feature} :
    p.provider? c = some f ↔ Feature.IsFirstWith p.features c f := by
  rw [provider?, List.find?_eq_some_iff_append, Feature.IsFirstWith]
  simp only [beq_iff_eq, Bool.not_eq_true', beq_eq_false_iff_ne, ne_eq]

theorem exists_loop_error_iff : (∃ m, p.loop = .error m) ↔
    p.has .scheduler = true ∧ ∀ f ∈ p.features, f.capability ≠ some .scheduler := by
  rw [← provider?_eq_none_iff]
  have hdrain : (∃ m, p.drain = .error m) ↔
      p.has .scheduler = true ∧ p.provider? .scheduler = none := by
    unfold drain
    cases p.has .scheduler with
    | false => simp
    | true => cases p.provider? .scheduler <;> simp
  rw [← hdrain, loop, loopBody]
  cases p.drain <;> simp [bind, Except.bind, pure, Except.pure]

theorem includable_of_featureBlocks {included last : List Value} {fs : List Feature} {b : Block}
    (h : featureBlocks included fs = (.ok b, last)) : ∀ f ∈ fs, f.Includable := by
  induction fs generalizing included b with
  | nil => exact List.forall_mem_nil _
  | cons f fs ih =>
    obtain ⟨fresh, after, rest, hfresh, hrest, -⟩ := featureBlocks_cons_ok h
    obtain ⟨-, -, hkeys⟩ := freshDependencies_spec hfresh
    refine List.forall_mem_cons.2 ⟨fun d hd => ?_, ih hrest⟩
    obtain ⟨k, hk, -⟩ := hkeys d hd
    exact ⟨k, Value.key_eq_ok_iff.2 hk⟩

/-- An include pass stops at a class name that cannot be a key. -/
theorem exists_includes_error_iff :
    (∃ m, p.includes.1 = .error m) ↔ ∃ f ∈ p.features, ¬ f.Includable := by
  constructor
  · rintro ⟨m, hm⟩
    by_contra hall
    push Not at hall
    obtain ⟨b, last, hb⟩ := featureBlocks_total hall p.included
    rw [includes, hb] at hm
    cases hm
  · rintro ⟨f, hf, hnot⟩
    refine exists_error fun ⟨b, hb⟩ => hnot ?_
    cases hblocks : featureBlocks p.included p.features with
    | mk blocks last =>
      rw [includes, hblocks] at hb
      obtain ⟨blocks, rfl, -⟩ := map_ok hb
      exact includable_of_featureBlocks hblocks f hf

/-- A part is written unless something keeps it from being written. -/
theorem exists_emit_error_iff : (∃ e, p.emit clock part = .error e) ↔ p.Blocked clock part := by
  have hnever {b : Block} (hb : p.emit clock part = .ok b) : ¬ ∃ e, p.emit clock part = .error e := by
    rintro ⟨e, he⟩
    cases hb.symm.trans he
  cases part with
  | banner filename time =>
    cases hm : clock.momentOf time with
    | error fault =>
      have herror : p.emit clock (.banner filename time) = .error (.time fault) := by
        rw [emit, Part.use, hm]
        rfl
      exact ⟨fun _ => .banner hm, fun _ => ⟨_, herror⟩⟩
    | ok m =>
      have hok : p.emit clock (.banner filename time) = .ok (Sketch.bannerBlock filename m) := by
        rw [emit, Part.use, hm]
        rfl
      refine ⟨fun h => absurd h (hnever hok), fun h => ?_⟩
      cases h with
      | banner h => cases hm.symm.trans h
  | includes =>
    have hincludes : (∃ e, p.emit clock .includes = .error e) ↔ ∃ f ∈ p.features, ¬ f.Includable :=
      exists_mapError_error_iff.trans exists_includes_error_iff
    refine hincludes.trans ⟨fun ⟨f, hf, hnot⟩ => .includes hf hnot, fun h => ?_⟩
    cases h with
    | includes hf hnot => exact ⟨_, hf, hnot⟩
  | loop =>
    have hloop : (∃ e, p.emit clock .loop = .error e) ↔
        p.has .scheduler = true ∧ ∀ f ∈ p.features, f.capability ≠ some .scheduler :=
      exists_mapError_error_iff.trans exists_loop_error_iff
    refine hloop.trans ⟨fun ⟨hhas, hnone⟩ => .loop hhas hnone, fun h => ?_⟩
    cases h with
    | loop hhas hnone => exact ⟨hhas, hnone⟩
  | shared => exact ⟨fun h => absurd h (hnever rfl), fun h => nomatch h⟩
  | reset => exact ⟨fun h => absurd h (hnever rfl), fun h => nomatch h⟩
  | setup baud => exact ⟨fun h => absurd h (hnever rfl), fun h => nomatch h⟩

theorem Consistent.not_blocked_loop (h : p.Consistent) : ¬ p.Blocked clock .loop := by
  rintro ⟨⟩
  next hhas hnone =>
    obtain ⟨f, hf, hcapability⟩ := (h.has_iff _).1 hhas
    exact hnone f hf hcapability

/-- With the flags and the features of a plan in step, only a time can keep a part from being written. -/
theorem Consistent.exists_emit (h : p.Consistent) (hfeatures : ∀ f ∈ p.features, f.Includable)
    (clock : Clock) (part : Part) :
    (∃ b, p.emit clock part = .ok b) ∨
      ∃ filename time fault, part = .banner filename time ∧ clock.momentOf time = .error fault := by
  by_contra hnot
  rw [not_or] at hnot
  obtain ⟨e, he⟩ := exists_error hnot.1
  cases exists_emit_error_iff.1 ⟨e, he⟩ with
  | banner hfault => exact hnot.2 ⟨_, _, _, rfl, hfault⟩
  | includes hf hincludable => exact hincludable (hfeatures _ hf)
  | loop hhas hnone =>
    have hblocked : p.Blocked clock .loop := .loop hhas hnone
    exact h.not_blocked_loop hblocked

end Plan

end FirmataSketch
