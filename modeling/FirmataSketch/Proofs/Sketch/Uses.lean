import FirmataSketch.Proofs.Sketch.FirstUse
import FirmataSketch.Sketch.Session

/-! Runs of uses of one plan. The plan remembers what was included at first, what was added to it, and
after an include pass all of its dependencies. The first pass brings their headers and all later ones
none; no other block depends on what is included. -/

namespace FirmataSketch

open Sketch

namespace Use

/-- The uses that can add to what a plan has included. -/
def adds : Use → Bool
  | .includes | .mark _ => true
  | _ => false

def isPass : Use → Bool
  | .includes => true
  | _ => false

theorem isPass_iff {u : Use} : u.isPass = true ↔ u = .includes := by
  cases u <;> simp [isPass]

end Use

namespace Plan

variable {p q r : Plan} {u : Use} {us vs : List Use} {k : Key}

/-- The plan as it is apart from what was included. -/
def bare (p : Plan) : Plan := { p with included := [] }

theorem eq_of_bare (h : q.bare = p.bare) : q = { p with included := q.included } :=
  congrArg (fun b : Plan => { b with included := q.included }) h

theorem features_of_bare (h : q.bare = p.bare) : q.features = p.features :=
  (congrArg Plan.features h :)

theorem use_of_not_adds (hu : u.adds = false) : (p.use u).2 = p := by
  cases u with
  | includes => cases hu
  | mark className => cases hu
  | _ => rfl

/-- What an adding use did before is not seen in the blocks of the others. -/
theorem use_congr (hu : u.adds = false) (h : q.bare = p.bare) : (q.use u).1 = (p.use u).1 := by
  rw [eq_of_bare h]
  cases u with
  | includes => cases hu
  | mark className => cases hu
  | _ => rfl

theorem mark_ok {v : Value} (hk : v.key? = some k) :
    p.mark v = .ok (if k.isAmong p.included then p else { p with included := v :: p.included }) := by
  rw [mark, Value.key_eq_ok_iff.2 hk]
  rfl

theorem use_mark_of_not_key {v : Value} (hv : v.key? = none) : (p.use (.mark v)).2 = p := by
  rw [use, mark, Value.key, hv]
  rfl

theorem use_mark {v : Value} (hk : v.key? = some k) : (p.use (.mark v)).2 =
    if k.isAmong p.included then p else { p with included := v :: p.included } := by
  rw [use, mark_ok hk]

theorem bare_use (p : Plan) (u : Use) : (p.use u).2.bare = p.bare := by
  cases u with
  | mark v =>
    cases hv : v.key? with
    | none => rw [use_mark_of_not_key hv]
    | some k =>
      rw [use_mark hv]
      split <;> rfl
  | _ => rfl

/-- The class names of the dependencies of a plan. -/
def classNames (p : Plan) : List Value :=
  (p.features.flatMap Feature.dependencies).map Dependency.className

theorem classNames_of_bare (h : q.bare = p.bare) : q.classNames = p.classNames := by
  rw [classNames, features_of_bare h, classNames]

/-- What becomes of a plan by some uses: only what is included grows, by the class names that are added
and, with an include pass, by those of all dependencies. -/
structure Becomes (p : Plan) (us : List Use) (q : Plan) : Prop where
  bare : q.bare = p.bare
  grows : p.included <:+ q.included
  isAmong_iff : ∀ k : Key, k.isAmong q.included = true ↔ k.isAmong p.included = true ∨
    (∃ v, .mark v ∈ us ∧ v.key? = some k) ∨ .includes ∈ us ∧ k.isAmong p.classNames = true

theorem Becomes.refl (p : Plan) : p.Becomes [] p :=
  ⟨rfl, List.suffix_refl _, fun k => by simp⟩

theorem Becomes.trans (hq : p.Becomes us q) (hr : q.Becomes vs r) : p.Becomes (us ++ vs) r := by
  refine ⟨hr.bare.trans hq.bare, hq.grows.trans hr.grows, fun k => ?_⟩
  rw [hr.isAmong_iff, hq.isAmong_iff, classNames_of_bare hq.bare]
  simp only [List.mem_append, or_and_right, exists_or]
  grind

theorem becomes_use (h : ∀ f ∈ p.features, f.Includable) (u : Use) : p.Becomes [u] (p.use u).2 := by
  cases u with
  | includes =>
    obtain ⟨last, hlast, hkeys, hgrows⟩ := includes_users h
    have huse : (p.use .includes).2 = { p with included := last } := by rw [use, hlast]
    rw [huse]
    refine ⟨rfl, hgrows, fun k => ?_⟩
    rw [hkeys k, Key.isAmong_append, Bool.or_eq_true]
    simp [classNames]
  | mark v =>
    cases hv : v.key? with
    | none =>
      rw [use_mark_of_not_key hv]
      exact ⟨rfl, List.suffix_refl _, fun k => by simp [hv]⟩
    | some j =>
      rw [use_mark hv]
      cases hj : j.isAmong p.included with
      | true =>
        refine ⟨rfl, List.suffix_refl _, fun k => ?_⟩
        simp only [if_true, List.mem_singleton, Use.mark.injEq, exists_eq_left, hv,
          Option.some.injEq, reduceCtorEq, false_and, or_false]
        exact ⟨.inl, fun hk => hk.elim id fun e => e ▸ hj⟩
      | false =>
        refine ⟨rfl, List.suffix_cons _ _, fun k => ?_⟩
        simp only [Bool.false_eq_true, if_false, isAmong_cons, List.mem_singleton, Use.mark.injEq,
          exists_eq_left, hv, Option.some.injEq, reduceCtorEq, false_and, or_false]
        exact or_comm
  | _ => exact ⟨rfl, List.suffix_refl _, fun k => by simp [use]⟩

/-- The plan after some uses of it. -/
def after (p : Plan) (us : List Use) : Plan := us.foldl (fun p u => (p.use u).2) p

theorem becomes_after (h : ∀ f ∈ p.features, f.Includable) (us : List Use) :
    p.Becomes us (p.after us) := by
  induction us generalizing p with
  | nil => exact .refl p
  | cons u us ih =>
    have hu := becomes_use h u
    rw [← features_of_bare hu.bare] at h
    exact hu.trans (ih h)

/-- The uses of a plan, each with what it gives. -/
def run (p : Plan) : List Use → List (Use × Except Misuse Block)
  | [] => []
  | u :: us => (u, (p.use u).1) :: (p.use u).2.run us

/-- What the include passes give. -/
def passes (p : Plan) (us : List Use) : List (Except Misuse Block) :=
  ((p.run us).filter fun a => a.1.isPass).map Prod.snd

theorem passes_cons (p : Plan) (u : Use) (us : List Use) : p.passes (u :: us) =
    (if u.isPass then [(p.use u).1] else []) ++ (p.use u).2.passes us := by
  rw [passes, run, List.filter_cons]
  split <;> rfl

theorem passes_append (p : Plan) (us vs : List Use) :
    p.passes (us ++ vs) = p.passes us ++ (p.after us).passes vs := by
  induction us generalizing p with
  | nil => rfl
  | cons u us ih =>
    rw [List.cons_append, passes_cons, passes_cons, ih, List.append_assoc]
    rfl

theorem passes_eq_nil (h : .includes ∉ us) : p.passes us = [] := by
  induction us generalizing p with
  | nil => rfl
  | cons u us ih =>
    rw [List.mem_cons, not_or] at h
    have hu : ¬ u.isPass = true := fun hpass => h.1 (Use.isPass_iff.1 hpass).symm
    rw [passes_cons, if_neg hu, List.nil_append, ih h.2]

/-- The headers of all dependencies are included. -/
def Covered (p : Plan) : Prop := ∀ k : Key, k.isAmong p.classNames = true → k.isAmong p.included = true

theorem Becomes.covered (h : p.Becomes us q) (hp : p.Covered ∨ .includes ∈ us) : q.Covered := by
  intro k hk
  rw [classNames_of_bare h.bare] at hk
  rw [h.isAmong_iff]
  exact hp.elim (fun hp => .inl (hp k hk)) fun hpass => .inr (.inr ⟨hpass, hk⟩)

theorem firstUses_eq_nil {included : List Value} {earlier ds : List Dependency}
    (h : ∀ d ∈ ds, ∃ k, d.className.key? = some k ∧ k.isAmong included = true) :
    firstUses included earlier ds = [] := by
  induction ds generalizing earlier with
  | nil => rfl
  | cons d ds ih =>
    obtain ⟨⟨k, hk, hamong⟩, hds⟩ := List.forall_mem_cons.1 h
    rw [firstUses_cons, isNew_eq hk, Key.isAmong_append, hamong, ih hds]
    rfl

theorem users_eq_map {included : List Value} {earlier : List Dependency} {fs : List Feature}
    (h : ∀ f ∈ fs, ∀ d ∈ f.dependencies,
      ∃ k, d.className.key? = some k ∧ k.isAmong included = true) :
    users included earlier fs = fs.map fun f => (f, []) := by
  induction fs generalizing earlier with
  | nil => rfl
  | cons f fs ih =>
    obtain ⟨hf, hfs⟩ := List.forall_mem_cons.1 h
    rw [users_cons, firstUses_eq_nil hf, ih hfs, List.map_cons]

/-- What an include pass brings if all headers of libraries are there. -/
def ownBlock (p : Plan) : Block := passBlock (p.features.map fun f => (f, []))

theorem Covered.includes (hp : p.Covered) (h : ∀ f ∈ p.features, f.Includable) :
    p.includes.1 = .ok p.ownBlock := by
  obtain ⟨last, hlast, -⟩ := includes_users h
  have hthere : ∀ f ∈ p.features, ∀ d ∈ f.dependencies,
      ∃ k, d.className.key? = some k ∧ k.isAmong p.included = true := by
    intro f hf d hd
    obtain ⟨k, hk⟩ := h f hf d hd
    rw [Value.key_eq_ok_iff] at hk
    refine ⟨k, hk, hp k ?_⟩
    rw [Key.isAmong, List.any_eq_true]
    exact ⟨d.className, List.mem_map_of_mem (List.mem_flatMap_of_mem hf hd), beq_iff_eq.2 hk⟩
  rw [hlast, users_eq_map hthere, ownBlock]

theorem Covered.passes (hp : p.Covered) (h : ∀ f ∈ p.features, f.Includable) :
    ∀ b ∈ p.passes us, b = .ok p.ownBlock := by
  induction us generalizing p with
  | nil => exact fun b hb => nomatch hb
  | cons u us ih =>
    have hu := becomes_use h u
    have hfeatures := features_of_bare hu.bare
    have hown : (p.use u).2.ownBlock = p.ownBlock := by rw [ownBlock, hfeatures, ownBlock]
    rw [passes_cons, List.forall_mem_append]
    constructor
    · intro b hb
      split at hb
      next hpass =>
        rw [List.mem_singleton.1 hb, Use.isPass_iff.1 hpass]
        exact hp.includes h
      next => cases hb
    · rw [← hown]
      exact ih (hu.covered (.inl hp)) (hfeatures.symm ▸ h)

/-- The first of all passes over a plan brings the libraries that are not included by then, and the
later ones bring none. -/
theorem passes_of_first (h : ∀ f ∈ p.features, f.Includable) (hus : .includes ∉ us)
    (vs : List Use) :
    ∃ later, p.passes (us ++ .includes :: vs) =
        .ok (passBlock (users (p.after us).included [] p.features)) :: later ∧
      ∀ b ∈ later, b = .ok p.ownBlock := by
  have hus' := becomes_after h us
  have hfeatures := features_of_bare hus'.bare
  rw [← hfeatures] at h
  have hpass := becomes_use h .includes
  have hfeatures' := features_of_bare hpass.bare
  have hown : ((p.after us).use .includes).2.ownBlock = p.ownBlock := by
    rw [ownBlock, hfeatures', hfeatures, ownBlock]
  obtain ⟨last, hlast, -⟩ := includes_users h
  refine ⟨((p.after us).use .includes).2.passes vs, ?_, ?_⟩
  · rw [passes_append, passes_eq_nil hus, passes_cons, ← hfeatures, use, hlast]
    rfl
  · rw [← hown]
    exact (hpass.covered (.inr List.mem_cons_self)).passes (hfeatures'.symm ▸ h)

/-- What a pass includes for others has different class names, and none that was included. -/
theorem users_nodup {included : List Value} {fs : List Feature} (h : ∀ f ∈ fs, f.Includable) :
    (((users included [] fs).flatMap Prod.snd).map fun d => d.className.key?).Nodup ∧
      ∀ d ∈ (users included [] fs).flatMap Prod.snd, ∀ k,
        d.className.key? = some k → k.isAmong included = false := by
  have hkeys : ∀ d ∈ fs.flatMap Feature.dependencies, ∃ k, d.className.key = .ok k := by
    intro d hd
    obtain ⟨f, hf, hd⟩ := List.mem_flatMap.1 hd
    exact h f hf d hd
  obtain ⟨last, hlast, -⟩ := freshDependencies_firstUses (sameKeys_start included) hkeys
  obtain ⟨hnodup, hnew, -⟩ := freshDependencies_spec hlast
  rw [flatMap_users]
  exact ⟨hnodup, hnew⟩

end Plan

end FirmataSketch
