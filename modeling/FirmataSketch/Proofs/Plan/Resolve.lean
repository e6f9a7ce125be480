import FirmataSketch.Sketch.Plan
import Mathlib.Data.List.Forall2

/-! Resolving: what a plan holds once every name of a selection was found. The flags and the lists
of a resolved plan are those that its features call for. -/

namespace FirmataSketch

theorem Value.key_eq_ok_iff {v : Value} {k : Key} : v.key = .ok k ↔ v.key? = some k := by
  unfold Value.key
  cases v.key? <;> simp

theorem Value.eq_text_of_key? {v : Value} {s : String} (h : v.key? = some (.text s)) : v = .text s := by
  cases v <;> simp [Value.key?] at h ⊢
  · split at h <;> cases h
  · exact h

/-- The feature is the one that is found under the name. -/
def Index.Finds (index : Index) (name : Value) (f : Feature) : Prop :=
  ∃ k, name.key? = some k ∧ index.get? k = some f

theorem Index.finds_unique (index : Index) : Relator.RightUnique index.Finds := by
  rintro name f g ⟨k, hk, hf⟩ ⟨k', hk', hg⟩
  rw [hk, Option.some.injEq] at hk'
  subst hk'
  rw [hf, Option.some.injEq] at hg
  exact hg

namespace Plan

/-- The features of a plan settle its other parts. -/
structure Consistent (p : Plan) : Prop where
  has_iff : ∀ c, p.has c = true ↔ ∃ f ∈ p.features, f.capability = some c
  reporting_eq : p.reporting = p.features.filter (·.reporting)
  update_eq : p.update = p.features.filter (·.update)

variable {index : Index} {seen : List Key} {p q : Plan} {f : Feature}

theorem consistent_empty : empty.Consistent := by
  refine ⟨fun c => ?_, rfl, rfl⟩
  simp [has, empty]

theorem has_iff_mem (p : Plan) (c : Capability) : p.has c = true ↔ c ∈ p.capabilities := by
  rw [has, List.contains_iff_mem]

theorem has_add (p : Plan) (f : Feature) (c : Capability) :
    (p.add f).has c = true ↔ p.has c = true ∨ f.capability = some c := by
  simp only [has_iff_mem, add]
  cases f.capability with
  | none => simp
  | some d =>
    by_cases hd : d ∈ p.capabilities
    · have hdup : d = c → c ∈ p.capabilities := fun e => e ▸ hd
      simpa [hd] using hdup
    · simp [hd, eq_comm]

theorem Consistent.add (h : p.Consistent) (f : Feature) : (p.add f).Consistent := by
  refine ⟨fun c => ?_, ?_, ?_⟩
  · rw [has_add, h.has_iff]
    simp [Plan.add, or_and_right, exists_or]
  · cases hf : f.reporting <;> simp [Plan.add, hf, h.reporting_eq, List.filter_append]
  · cases hf : f.update <;> simp [Plan.add, hf, h.update_eq, List.filter_append]

theorem Consistent.reporting_subset (h : p.Consistent) : p.reporting ⊆ p.features := by
  rw [h.reporting_eq]
  exact List.filter_subset_self _

theorem Consistent.update_subset (h : p.Consistent) : p.update ⊆ p.features := by
  rw [h.update_eq]
  exact List.filter_subset_self _

theorem Consistent.provider?_isSome_iff (h : p.Consistent) (c : Capability) :
    (p.provider? c).isSome = true ↔ p.has c = true := by
  rw [h.has_iff, provider?, List.find?_isSome]
  simp only [beq_iff_eq]

theorem resolveFrom_cons_ok_iff {name : Value} {names : List Value} :
    resolveFrom index seen p (name :: names) = .ok q ↔
      ∃ k f, name.key? = some k ∧ k ∉ seen ∧ index.get? k = some f ∧
        resolveFrom index (k :: seen) (p.add f) names = .ok q := by
  rw [resolveFrom]
  cases hk : name.key with
  | error m =>
    have hn : name.key? = none := by
      cases h : name.key? with
      | none => rfl
      | some k => rw [Value.key_eq_ok_iff.2 h] at hk; cases hk
    simp [Except.mapError, bind, Except.bind, hn]
  | ok k =>
    rw [Value.key_eq_ok_iff] at hk
    by_cases hs : k ∈ seen
    · simp [Except.mapError, bind, Except.bind, hs, hk]
    · cases hf : index.get? k with
      | none => simp [Except.mapError, bind, Except.bind, hs, hk, hf]
      | some f => simp [Except.mapError, bind, Except.bind, hs, hk, hf]

/-- What a run of `resolveFrom` adds to a plan. -/
theorem resolveFrom_ok {names : List Value} (h : resolveFrom index seen p names = .ok q) :
    (p.Consistent → q.Consistent) ∧ (∀ k ∈ seen, some k ∉ names.map Value.key?) ∧
      (names.map Value.key?).Nodup ∧
      ∃ fs, List.Forall₂ index.Finds names fs ∧ q.features = p.features ++ fs := by
  -- the names before are in `seen`, the features before in `p`; both grow with every name
  induction names generalizing seen p with
  | nil =>
    cases h
    exact ⟨id, by simp, List.nodup_nil, [], .nil, (List.append_nil _).symm⟩
  | cons name names ih =>
    obtain ⟨k, f, hk, hs, hf, hrest⟩ := resolveFrom_cons_ok_iff.1 h
    obtain ⟨hc, hseen, hnodup, fs, hfs, hq⟩ := ih hrest
    refine ⟨fun hp => hc (hp.add f), fun j hj => ?_, ?_, f :: fs, .cons ⟨k, hk, hf⟩ hfs, ?_⟩
    · rw [List.map_cons, hk, List.mem_cons, not_or]
      exact ⟨fun e => hs (Option.some.inj e ▸ hj), hseen j (List.mem_cons_of_mem _ hj)⟩
    · rw [List.map_cons, hk, List.nodup_cons]
      exact ⟨hseen k List.mem_cons_self, hnodup⟩
    · simp [hq, add]

theorem resolveFrom_included {names : List Value} (h : resolveFrom index seen p names = .ok q) :
    q.included = p.included := by
  induction names generalizing seen p with
  | nil =>
    cases h
    rfl
  | cons name names ih =>
    obtain ⟨k, f, -, -, -, hrest⟩ := resolveFrom_cons_ok_iff.1 h
    exact (ih hrest).trans rfl

theorem exists_resolveFrom_iff {names : List Value} :
    (∃ q, resolveFrom index seen p names = .ok q) ↔ (∀ k ∈ seen, some k ∉ names.map Value.key?) ∧
      (names.map Value.key?).Nodup ∧ ∀ name ∈ names, ∃ f, index.Finds name f := by
  constructor
  · rintro ⟨q, h⟩
    obtain ⟨-, hseen, hnodup, fs, hfs, -⟩ := resolveFrom_ok h
    refine ⟨hseen, hnodup, fun name hname => ?_⟩
    obtain ⟨i, hi, rfl⟩ := List.mem_iff_getElem.1 hname
    exact ⟨_, hfs.get hi (hfs.length_eq ▸ hi)⟩
  · induction names generalizing seen p with
    | nil => exact fun _ => ⟨p, rfl⟩
    | cons name names ih =>
      rintro ⟨hseen, hnodup, hfound⟩
      obtain ⟨f, k, hk, hf⟩ := hfound name List.mem_cons_self
      rw [List.map_cons, hk] at hseen hnodup
      obtain ⟨hnew, hnodup⟩ := List.nodup_cons.1 hnodup
      have hnames : ∀ j ∈ k :: seen, some j ∉ names.map Value.key? := by
        intro j hj
        rcases List.mem_cons.1 hj with rfl | hj
        · exact hnew
        · exact fun hmem => hseen j hj (List.mem_cons_of_mem _ hmem)
      obtain ⟨q, hq⟩ := ih (p := p.add f)
        ⟨hnames, hnodup, fun other hother => hfound other (List.mem_cons_of_mem _ hother)⟩
      exact ⟨q, resolveFrom_cons_ok_iff.2
        ⟨k, f, hk, fun hmem => hseen k hmem List.mem_cons_self, hf, hq⟩⟩

variable {names : List Value}

/-- Names are resolved exactly if they are different and each of them is found. -/
theorem exists_resolve_iff :
    (∃ p, resolve index names = .ok p) ↔
      (names.map Value.key?).Nodup ∧ ∀ name ∈ names, ∃ f, index.Finds name f := by
  unfold resolve
  rw [exists_resolveFrom_iff]
  simp

theorem resolve_included (h : resolve index names = .ok p) : p.included = [] :=
  resolveFrom_included h

theorem resolve_consistent (h : resolve index names = .ok p) : p.Consistent :=
  (resolveFrom_ok h).1 consistent_empty

theorem resolve_nodup (h : resolve index names = .ok p) : (names.map Value.key?).Nodup :=
  (resolveFrom_ok h).2.2.1

theorem resolve_finds (h : resolve index names = .ok p) :
    List.Forall₂ index.Finds names p.features := by
  obtain ⟨fs, hfs, hp⟩ := (resolveFrom_ok h).2.2.2
  rwa [hp]

theorem exists_found (h : resolve index names = .ok p) {name : Value} (hname : name ∈ names) :
    ∃ f ∈ p.features, index.Finds name f := by
  have hfs := resolve_finds h
  obtain ⟨i, hi, rfl⟩ := List.mem_iff_getElem.1 hname
  have hj : i < p.features.length := hfs.length_eq ▸ hi
  exact ⟨p.features[i], List.getElem_mem hj, hfs.get hi hj⟩

theorem mem_features_of_resolve (h : resolve index names = .ok p) (f : Feature) :
    f ∈ p.features ↔ ∃ name ∈ names, index.Finds name f := by
  constructor
  · intro hf
    have hfs := resolve_finds h
    obtain ⟨i, hi, rfl⟩ := List.mem_iff_getElem.1 hf
    have hj : i < names.length := hfs.length_eq ▸ hi
    exact ⟨names[i], List.getElem_mem hj, hfs.get hj hi⟩
  · rintro ⟨name, hname, hf⟩
    obtain ⟨g, hg, hfound⟩ := exists_found h hname
    exact index.finds_unique hf hfound ▸ hg

end Plan

end FirmataSketch
