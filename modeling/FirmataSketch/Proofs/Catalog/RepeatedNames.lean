import FirmataSketch.Catalog.Validation
import FirmataSketch.Proofs.Outcome
import FirmataSketch.Proofs.Plan.Resolve
import Mathlib.Data.List.Nodup

/-! Repeated names: every name is counted wherever it occurs, and reported with its count if that is
more than one. -/

namespace FirmataSketch.Catalog

open Outcome (bind_ok)

variable {fs : List Feature} {ts : List Tally}

/-- How often the name of a key was counted. -/
def countOf (ts : List Tally) (k : Key) : Nat :=
  ((ts.find? fun t => t.key == k).map Tally.count).getD 0

theorem countOf_cons (t : Tally) (ts : List Tally) (j : Key) :
    countOf (t :: ts) j = if t.key = j then t.count else countOf ts j := by
  rw [countOf, List.find?_cons]
  by_cases hj : t.key = j
  · simp [hj]
  · rw [beq_eq_false_iff_ne.2 hj, if_neg hj, countOf]

theorem countOf_countName (k : Key) (name : Value) (ts : List Tally) (j : Key) :
    countOf (countName k name ts) j = countOf ts j + [some k].count (some j) := by
  induction ts with
  | nil =>
    rw [countName, countOf_cons]
    by_cases hj : k = j <;> simp [countOf, hj]
  | cons t ts ih =>
    rw [countName]
    by_cases ht : t.key = k
    · rw [if_pos ht, countOf_cons, countOf_cons, ht]
      by_cases hj : k = j <;> simp [hj]
    · rw [if_neg ht, countOf_cons, countOf_cons, ih]
      by_cases hj : t.key = j
      · have hother : k ≠ j := fun h => ht (hj.trans h.symm)
        simp [hj, hother]
      · rw [if_neg hj, if_neg hj]

theorem mem_countName {k : Key} {name : Value} {t : Tally} (h : t ∈ countName k name ts) :
    (∃ t' ∈ ts, t.key = t'.key ∧ t.name = t'.name) ∨ t.key = k ∧ t.name = name := by
  induction ts with
  | nil =>
    rw [List.mem_singleton.1 h]
    exact .inr ⟨rfl, rfl⟩
  | cons t' ts ih =>
    rw [countName] at h
    split at h
    · rcases List.mem_cons.1 h with rfl | h
      · exact .inl ⟨t', List.mem_cons_self, rfl, rfl⟩
      · exact .inl ⟨t, List.mem_cons_of_mem t' h, rfl, rfl⟩
    · rcases List.mem_cons.1 h with rfl | h
      · exact .inl ⟨t, List.mem_cons_self, rfl, rfl⟩
      · refine (ih h).imp_left ?_
        rintro ⟨u, hu, hsame⟩
        exact ⟨u, List.mem_cons_of_mem t' hu, hsame⟩

theorem keys_countName (k : Key) (name : Value) (ts : List Tally) :
    (countName k name ts).map Tally.key =
      ts.map Tally.key ++ if k ∈ ts.map Tally.key then [] else [k] := by
  induction ts with
  | nil => rfl
  | cons t ts ih =>
    rw [countName]
    by_cases ht : t.key = k
    · simp [ht]
    · have hmem : k ∈ (t :: ts).map Tally.key ↔ k ∈ ts.map Tally.key := by
        rw [List.map_cons, List.mem_cons, or_iff_right (Ne.symm ht)]
      rw [if_neg ht, List.map_cons, ih, List.map_cons, List.cons_append]
      simp only [← List.map_cons, hmem]

/-- What holds of the tallies of a list of features. -/
structure Counts (ts : List Tally) (names : List (Option Key)) : Prop where
  nodup : (ts.map Tally.key).Nodup
  named : ∀ t ∈ ts, t.name.key? = some t.key
  counted : ∀ k, countOf ts k = names.count (some k)

theorem Counts.countName {names : List (Option Key)} {k : Key} {name : Value}
    (h : Counts ts names) (hk : name.key? = some k) :
    Counts (countName k name ts) (names ++ [some k]) := by
  refine ⟨?_, fun t ht => ?_, fun j => ?_⟩
  · rw [keys_countName]
    split
    · rw [List.append_nil]
      exact h.nodup
    next hnew => exact List.nodup_append_comm.1 (List.nodup_cons.2 ⟨hnew, h.nodup⟩)
  · rcases mem_countName ht with ⟨t', ht', hkey, hname⟩ | ⟨hkey, hname⟩
    · rw [hkey, hname]
      exact h.named t' ht'
    · rw [hkey, hname]
      exact hk
  · rw [countOf_countName, h.counted, List.count_append]

/-- What a fold over the keys of the names keeps, feature by feature, holds of what it comes to. -/
theorem foldlM_name_induction {β : Type} (step : Key → Feature → β → β) {b b' : β}
    (holds : List Feature → β → Prop) (hnil : holds [] b)
    (hstep : ∀ done f k b, holds done b → f.name.key? = some k → holds (done ++ [f]) (step k f b))
    (h : fs.foldlM (fun b f => do return step (← f.name.key) f b) b = .ok b') : holds fs b' := by
  suffices hfold : ∀ fs done b, holds done b →
      fs.foldlM (fun b f => do return step (← f.name.key) f b) b = .ok b' → holds (done ++ fs) b' from
    hfold fs [] b hnil h
  intro fs
  induction fs with
  | nil =>
    intro done b hdone h
    cases h
    rwa [List.append_nil]
  | cons f fs ih =>
    intro done b hdone h
    rw [List.foldlM_cons] at h
    obtain ⟨b₁, hb₁, h⟩ := bind_ok h
    obtain ⟨k, hk, hb₁⟩ := bind_ok hb₁
    cases hb₁
    rw [List.append_cons]
    exact ih _ _ (hstep done f k b hdone (Value.key_eq_ok_iff.1 hk)) h

theorem counts_tallies (h : tallies fs = .ok ts) : Counts ts (fs.map fun f => f.name.key?) := by
  have hnone : Counts [] [] := ⟨List.nodup_nil, by simp, fun k => rfl⟩
  refine foldlM_name_induction (fun k f => countName k f.name)
    (fun done ts => Counts ts (done.map fun f => f.name.key?)) hnone
    (fun done f k ts hdone hk => ?_) h
  rw [List.map_append, List.map_singleton, hk]
  exact hdone.countName hk

theorem countOf_of_mem {t : Tally} (hnodup : (ts.map Tally.key).Nodup) (ht : t ∈ ts) :
    countOf ts t.key = t.count := by
  induction ts with
  | nil => cases ht
  | cons t' ts ih =>
    rw [List.map_cons, List.nodup_cons] at hnodup
    rw [countOf_cons]
    rcases List.mem_cons.1 ht with rfl | ht
    · rw [if_pos rfl]
    · rw [if_neg fun hsame => hnodup.1 (List.mem_map.2 ⟨t, ht, hsame.symm⟩), ih hnodup.2 ht]

/-- Among features whose names are texts, a name is reported as repeated exactly if it occurs more than
once, and the report tells how often. -/
theorem mem_repeatedNames_iff (htexts : ∀ f ∈ fs, ∃ s, f.name = .text s)
    (h : tallies fs = .ok ts) {v : Value} {n : Nat} :
    ⟨v, .repeatedName n⟩ ∈ repeatedNames ts ↔
      n = (fs.map fun f => f.name.key?).count v.key? ∧ 1 < n := by
  obtain ⟨hnodup, hnamed, hcounted⟩ := counts_tallies h
  have hreported : ⟨v, .repeatedName n⟩ ∈ repeatedNames ts ↔
      ∃ t ∈ ts, t.name = v ∧ t.count = n ∧ 1 < n := by
    rw [repeatedNames, List.mem_filterMap]
    refine exists_congr fun t => and_congr_right fun _ => ?_
    split
    next hmany =>
      rw [Option.some.injEq, Problem.mk.injEq, Defect.repeatedName.injEq]
      exact ⟨fun ⟨hv, hn⟩ => ⟨hv, hn, hn ▸ hmany⟩, fun ⟨hv, hn, _⟩ => ⟨hv, hn⟩⟩
    next hfew => exact ⟨fun hp => (nomatch hp), fun ⟨_, hn, hmany⟩ => (hfew (hn ▸ hmany)).elim⟩
  rw [hreported]
  constructor
  · rintro ⟨t, ht, rfl, rfl, hmany⟩
    rw [hnamed t ht, ← hcounted, countOf_of_mem hnodup ht]
    exact ⟨rfl, hmany⟩
  · rintro ⟨hn, hmany⟩
    have hmem : v.key? ∈ fs.map fun f => f.name.key? := List.count_pos_iff.1 (by omega)
    obtain ⟨f, hf, hkey⟩ := List.mem_map.1 hmem
    obtain ⟨s, hs⟩ := htexts f hf
    have hv : v.key? = some (.text s) := by rw [← hkey, hs]; rfl
    have hcount : countOf ts (.text s) = n := by rw [hcounted, ← hv, hn]
    rw [countOf] at hcount
    cases hfind : ts.find? (fun t => t.key == .text s) with
    | none =>
      rw [hfind] at hcount
      simp at hcount
      omega
    | some t =>
      rw [hfind] at hcount
      have ht := List.mem_of_find?_eq_some hfind
      have htkey : t.key = .text s := by simpa using List.find?_some hfind
      refine ⟨t, ht, ?_, hcount, hmany⟩
      rw [Value.eq_text_of_key? hv, Value.eq_text_of_key? ((hnamed t ht).trans (congrArg some htkey))]

end FirmataSketch.Catalog
