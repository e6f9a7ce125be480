import FirmataSketch.Proofs.Plan.Resolve
import Mathlib.Data.Fintype.Basic
import Mathlib.Order.Bounds.Basic
import Mathlib.Order.WellFounded

/-! Names that cannot be resolved. The first name that is unknown or comes a second time decides how
resolving fails, whatever comes after it. Without such a name there is a plan, which holds the
features under the names and sorts them. -/

namespace FirmataSketch

/-- No feature is found under the name. -/
def Index.Misses (index : Index) (name : Value) : Prop := ∀ f, ¬ index.Finds name f

namespace Plan

variable {index : Index} {seen : List Key} {p q : Plan} {names before rest : List Value}
  {name : Value} {k : Key}

theorem resolveFrom_of_found {f : Feature} (hk : name.key? = some k) (hs : k ∉ seen)
    (hf : index.get? k = some f) (names : List Value) :
    resolveFrom index seen p (name :: names) = resolveFrom index (k :: seen) (p.add f) names := by
  simp [resolveFrom, Value.key_eq_ok_iff.2 hk, Except.mapError, bind, Except.bind, hs, hf]

theorem resolveFrom_of_repeated (hk : name.key? = some k) (hs : k ∈ seen) (names : List Value) :
    resolveFrom index seen p (name :: names) = .error (.repeatedFeature name) := by
  rw [resolveFrom, Value.key_eq_ok_iff.2 hk]
  simp only [Except.mapError, bind, Except.bind, List.contains_iff_mem, hs, if_true]
  rfl

theorem resolveFrom_of_unknown (hk : name.key? = some k) (hs : k ∉ seen)
    (hf : index.get? k = none) (names : List Value) :
    resolveFrom index seen p (name :: names) = .error (.unknownFeature name) := by
  rw [resolveFrom, Value.key_eq_ok_iff.2 hk]
  simp only [Except.mapError, bind, Except.bind, List.contains_iff_mem, hs, if_false, hf]
  rfl

theorem resolveFrom_of_misuse {m : Misuse} (hm : name.key = .error m) (names : List Value) :
    resolveFrom index seen p (name :: names) = .error (.misuse m) := by
  rw [resolveFrom, hm]
  rfl

/-- Names that are resolved leave their keys behind for the names that follow. -/
theorem resolveFrom_append (h : resolveFrom index seen p before = .ok q) :
    ∃ seen', (∀ k, k ∈ seen' ↔ k ∈ seen ∨ some k ∈ before.map Value.key?) ∧
      ∀ rest, resolveFrom index seen p (before ++ rest) = resolveFrom index seen' q rest := by
  induction before generalizing seen p with
  | nil =>
    cases h
    exact ⟨seen, by simp, fun _ => rfl⟩
  | cons name before ih =>
    obtain ⟨k, f, hk, hs, hf, hbefore⟩ := resolveFrom_cons_ok_iff.1 h
    obtain ⟨seen', hseen, hrest⟩ := ih hbefore
    refine ⟨seen', fun j => ?_, fun rest => ?_⟩
    · rw [hseen, List.mem_cons, List.map_cons, List.mem_cons, hk, Option.some.injEq]
      tauto
    · rw [List.cons_append, resolveFrom_of_found hk hs hf, hrest]

theorem add_capabilities_nodup (h : p.capabilities.Nodup) (f : Feature) :
    (p.add f).capabilities.Nodup := by
  simp only [add]
  cases f.capability with
  | none => exact h
  | some c =>
    by_cases hc : p.has c = true
    · simpa only [hc, if_true] using h
    · simp only [hc]
      rw [has_iff_mem] at hc
      exact h.append (List.nodup_singleton c) (List.disjoint_singleton.2 hc)

theorem resolveFrom_capabilities_nodup (h : resolveFrom index seen p names = .ok q)
    (hp : p.capabilities.Nodup) : q.capabilities.Nodup := by
  induction names generalizing seen p with
  | nil =>
    cases h
    exact hp
  | cons name names ih =>
    obtain ⟨k, f, -, -, -, hrest⟩ := resolveFrom_cons_ok_iff.1 h
    exact ih hrest (add_capabilities_nodup hp f)

/-- The plan has the features under the names, in their order, sorted by what they bring along. -/
structure IsFor (p : Plan) (index : Index) (names : List Value) : Prop where
  features : List.Forall₂ index.Finds names p.features
  reporting : p.reporting = p.features.filter (·.reporting)
  update : p.update = p.features.filter (·.update)
  capabilities : ∀ c, c ∈ p.capabilities ↔ ∃ f ∈ p.features, f.capability = some c
  capabilities_nodup : p.capabilities.Nodup
  included : p.included = []

theorem isFor_of_resolve (h : resolve index names = .ok p) : p.IsFor index names := by
  have hconsistent := resolve_consistent h
  refine ⟨resolve_finds h, hconsistent.reporting_eq, hconsistent.update_eq, fun c => ?_, ?_,
    resolve_included h⟩
  · rw [← has_iff_mem, hconsistent.has_iff]
  · exact resolveFrom_capabilities_nodup h List.nodup_nil

/-- The name at the position stands at an earlier one as well. -/
def Repeats (names : List Value) (i : Fin names.length) : Prop :=
  ∃ j < i, names[j].key? = names[i].key?

/-- The positions of the names that are unknown or come again. -/
def faults (index : Index) (names : List Value) : Set (Fin names.length) :=
  {i | index.Misses names[i] ∨ Repeats names i}

/-- The names before a position are resolved if none of them is at fault. -/
theorem exists_resolve_take {n : ℕ}
    (h : ∀ i : Fin names.length, i.val < n → i ∉ faults index names) :
    ∃ p, resolve index (names.take n) = .ok p := by
  rw [exists_resolve_iff]
  constructor
  · rw [List.nodup_iff_pairwise_ne, List.pairwise_iff_getElem]
    intro a b ha hb hab hkey
    simp only [List.length_map, List.length_take, lt_min_iff] at ha hb
    simp only [List.getElem_map, List.getElem_take] at hkey
    exact h ⟨b, hb.2⟩ hb.1 (.inr ⟨⟨a, ha.2⟩, hab, hkey⟩)
  · intro name hname
    obtain ⟨a, ha, rfl⟩ := List.mem_iff_getElem.1 hname
    rw [List.length_take, lt_min_iff] at ha
    rw [List.getElem_take]
    by_contra hmiss
    exact h ⟨a, ha.2⟩ ha.1 (.inl fun f hf => hmiss ⟨f, hf⟩)

theorem exists_isLeast_faults (h : ¬ ∃ p, resolve index names = .ok p) :
    ∃ i, IsLeast (faults index names) i := by
  have hsome : (faults index names).Nonempty := by
    by_contra hnone
    rw [Set.not_nonempty_iff_eq_empty] at hnone
    have hall : ∃ p, resolve index (names.take names.length) = .ok p := by
      refine exists_resolve_take fun i _ hi => ?_
      rw [hnone] at hi
      exact hi
    rw [List.take_length] at hall
    exact h hall
  obtain ⟨i, hi, hmin⟩ := wellFounded_lt.has_min _ hsome
  exact ⟨i, hi, fun j hj => not_lt.1 (hmin j hj)⟩

section Least

variable {i : Fin names.length} (hi : IsLeast (faults index names) i)

include hi

theorem exists_finds_of_lt {j : Fin names.length} (hj : j < i) : ∃ f, index.Finds names[j] f := by
  by_contra hmiss
  exact absurd (hi.2 (.inl fun f hf => hmiss ⟨f, hf⟩)) (not_le.2 hj)

/-- What comes first has no fault, so the first fault is not both of them. -/
theorem xor_of_isLeast : Xor (index.Misses names[i]) (Repeats names i) := by
  have hnot : Repeats names i → ¬ index.Misses names[i] := by
    rintro ⟨j, hj, hkey⟩ hmiss
    obtain ⟨f, k, hk, hf⟩ := exists_finds_of_lt hi hj
    exact hmiss f ⟨k, hkey ▸ hk, hf⟩
  rcases hi.1 with hmiss | hrepeats
  · exact .inl ⟨hmiss, fun hrepeats => hnot hrepeats hmiss⟩
  · exact .inr ⟨hrepeats, hnot hrepeats⟩

/-- The names before the first fault are resolved, and those after it are not looked at. -/
theorem resolve_at_isLeast : ∃ seen p, (∀ k, k ∈ seen ↔ ∃ j < i, names[j].key? = some k) ∧
    ∀ rest, resolve index (names.take (i + 1) ++ rest) =
      resolveFrom index seen p (names[i] :: rest) := by
  obtain ⟨p, hp⟩ := exists_resolve_take fun j (hj : j < i) hfault => not_le.2 hj (hi.2 hfault)
  obtain ⟨seen, hseen, hrest⟩ := resolveFrom_append hp
  refine ⟨seen, p, fun k => ?_, fun rest => ?_⟩
  · rw [hseen]
    simp only [List.not_mem_nil, false_or, List.mem_map, List.mem_take_iff_getElem]
    constructor
    · rintro ⟨name, ⟨a, ha, rfl⟩, hk⟩
      rw [lt_min_iff] at ha
      exact ⟨⟨a, ha.2⟩, ha.1, hk⟩
    · rintro ⟨j, hj, hk⟩
      exact ⟨names[j], ⟨j, lt_min hj j.isLt, rfl⟩, hk⟩
  · rw [List.take_succ_eq_append_getElem i.isLt, List.append_assoc, resolve, hrest]
    rfl

end Least

/-- Names are resolved exactly if they are different and all known, and then to the plan for them.
Otherwise there is a first name at fault; it is either unknown or a repeated one, and fails as such
whatever names follow. What is no name at all, as nothing is found under it, fails as that. -/
theorem resolve_spec (index : Index) (names : List Value) :
    ((∃ p, resolve index names = .ok p) ↔
      (names.map Value.key?).Nodup ∧ ∀ name ∈ names, ∃ f, index.Finds name f) ∧
    (∀ p, resolve index names = .ok p → p.IsFor index names) ∧
    ((¬ ∃ p, resolve index names = .ok p) → ∃ i, IsLeast (faults index names) i) ∧
    ∀ i, IsLeast (faults index names) i →
      Xor (index.Misses names[i]) (Repeats names i) ∧
      ∀ rest,
        (Repeats names i →
          resolve index (names.take (i + 1) ++ rest) = .error (.repeatedFeature names[i])) ∧
        (index.Misses names[i] → (∃ k, names[i].key = .ok k) →
          resolve index (names.take (i + 1) ++ rest) = .error (.unknownFeature names[i])) ∧
        ∀ m, names[i].key = .error m →
          resolve index (names.take (i + 1) ++ rest) = .error (.misuse m) := by
  refine ⟨exists_resolve_iff, fun p => isFor_of_resolve, exists_isLeast_faults, fun i hi => ?_⟩
  have hxor := xor_of_isLeast hi
  obtain ⟨seen, p, hseen, hresolve⟩ := resolve_at_isLeast hi
  refine ⟨hxor, fun rest => ?_⟩
  rw [hresolve]
  refine ⟨?_, ?_, fun m hm => resolveFrom_of_misuse hm rest⟩
  · rintro ⟨j, hj, hkey⟩
    obtain ⟨f, k, hk, -⟩ := exists_finds_of_lt hi hj
    exact resolveFrom_of_repeated (hkey ▸ hk) ((hseen k).2 ⟨j, hj, hk⟩) rest
  · rintro hmiss ⟨k, hk⟩
    rw [Value.key_eq_ok_iff] at hk
    have hnew : k ∉ seen := by
      intro hmem
      obtain ⟨j, hj, hkey⟩ := (hseen k).1 hmem
      exact hxor.elim (fun h => h.2 ⟨j, hj, hkey.trans hk.symm⟩) fun h => h.2 hmiss
    refine resolveFrom_of_unknown hk hnew ?_ rest
    exact Option.eq_none_iff_forall_ne_some.2 fun f hf => hmiss f ⟨k, hk, hf⟩

/-- The first of two equal names is at fault before it is repeated. -/
example : resolve ⟨[]⟩ [.text "Led", .text "Led"] = .error (.unknownFeature (.text "Led")) := rfl

end Plan

end FirmataSketch
