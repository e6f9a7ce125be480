import FirmataSketch.Proofs.Catalog.Loading
import FirmataSketch.Proofs.Text.Word

/-! Checks: what the checks of a catalog find in features whose fields are texts. Nothing is found
exactly if every feature is valid and no two of them share a name, an instance or a capability. What is
found between features does not depend on their order. -/

namespace FirmataSketch

open Outcome (mapM_ok_iff exists_mapM_ok_iff)

/-- The fields of a dependency are texts. -/
def Dependency.IsTextual (d : Dependency) : Prop := ∃ path name, d = ⟨.text path, .text name⟩

namespace Feature

/-- The fields that the checks look at are texts. -/
structure IsTextual (f : Feature) : Prop where
  name : ∃ s, f.name = .text s
  path : ∃ s, f.path = .text s
  className : ∃ s, f.className = .text s
  instanceName : ∃ s, f.instanceName = .text s
  dependencies : ∀ d ∈ f.dependencies, d.IsTextual

/-- A name that the checks let through: not empty and, up to one line end after it, a name as users are
told to choose it. -/
def IsSpelling (v : Value) : Prop :=
  ∃ s, v = .text s ∧ s ≠ "" ∧ (Text.IsName s ∨ ∃ t, Text.IsName t ∧ s = t ++ "\n")

/-- Nothing is wrong with a feature for itself. -/
structure IsValid (f : Feature) : Prop where
  className : IsSpelling f.className
  instanceName : IsSpelling f.instanceName
  path : ∃ s, f.path = .text s ∧ (s = "" ∨ s.toList.getLast? = some '/')
  dependencies : ∀ d ∈ f.dependencies, d.className ≠ .text ""

theorem IsTextual.isSpelled {f : Feature} (h : f.IsTextual) : f.IsSpelled :=
  ⟨fun _ => h.className, fun _ => h.instanceName, fun _ => h.path⟩

theorem IsTextual.isKeyed {f : Feature} (h : f.IsTextual) : f.IsKeyed := by
  obtain ⟨name, hname⟩ := h.name
  obtain ⟨inst, hinstance⟩ := h.instanceName
  exact ⟨⟨.text name, by rw [hname]; rfl⟩, ⟨.text inst, by rw [hinstance]; rfl⟩⟩

theorem isPresent_text (s : String) : (Value.text s).isPresent = false ↔ s = "" := by
  rw [Value.isPresent, bne_eq_false_iff_eq]

theorem nameDefects_nil_iff (which : DeclaredName) (s : String) :
    nameDefects which (.text s) = .ok [] ↔ IsSpelling (.text s) := by
  constructor
  · intro h
    obtain ⟨t, ht, hword⟩ := word_of_nameDefects_nil h
    cases ht
    refine ⟨s, rfl, ?_, Text.acceptsWord_iff.1 hword⟩
    rintro rfl
    exact absurd hword (by decide)
  · rintro ⟨t, ht, hne, hspelling⟩
    cases ht
    have hpresent : (Value.text s).isPresent = true := by
      rw [← Bool.not_eq_false, isPresent_text]
      exact hne
    rw [nameDefects, hpresent]
    simp only [Bool.not_true, Bool.false_eq_true, if_false, if_pos (Text.acceptsWord_iff.2 hspelling)]

theorem pathDefects_nil_iff (s : String) :
    pathDefects (.text s) = .ok [] ↔ s = "" ∨ s.toList.getLast? = some '/' := by
  unfold pathDefects
  rw [← isPresent_text]
  cases (Value.text s).isPresent <;> simp

theorem dependencyDefects_nil_iff {ds : List Dependency} :
    dependencyDefects ds = [] ↔ ∀ d ∈ ds, d.className.isPresent = true := by
  rw [dependencyDefects, List.filterMap_eq_nil_iff]
  constructor
  · intro h d hd
    obtain ⟨i, hi, rfl⟩ := List.mem_iff_getElem.1 hd
    have hmem : (ds[i], i) ∈ ds.zipIdx := List.mem_iff_getElem.2 ⟨i, by simpa using hi, by simp⟩
    by_contra habsent
    have hnone := h _ hmem
    rw [if_neg habsent] at hnone
    cases hnone
  · rintro h ⟨d, i⟩ hmem
    exact if_pos (h d (List.fst_mem_of_mem_zipIdx hmem))

theorem problems_nil_iff_isValid {f : Feature} (h : f.IsTextual) : f.problems = .ok [] ↔ f.IsValid := by
  obtain ⟨p, hp⟩ := h.path
  obtain ⟨c, hc⟩ := h.className
  obtain ⟨i, hi⟩ := h.instanceName
  have hdependencies : dependencyDefects f.dependencies = [] ↔
      ∀ d ∈ f.dependencies, d.className ≠ .text "" := by
    rw [dependencyDefects_nil_iff]
    refine forall₂_congr fun d hd => ?_
    obtain ⟨path, name, rfl⟩ := h.dependencies d hd
    rw [← Bool.not_eq_false, isPresent_text, ne_eq, Value.text.injEq]
  rw [problems_nil_iff, hc, hi, hp, nameDefects_nil_iff, nameDefects_nil_iff, pathDefects_nil_iff,
    hdependencies, ← hc, ← hi]
  constructor
  · rintro ⟨hclass, hinstance, hpath, hds⟩
    exact ⟨hclass, hinstance, ⟨p, hp, hpath⟩, hds⟩
  · rintro ⟨hclass, hinstance, ⟨q, hq, hpath⟩, hds⟩
    cases hp.symm.trans hq
    exact ⟨hclass, hinstance, hpath, hds⟩

end Feature

namespace Index

variable {fs : List Feature} {index : Index}

theorem insertEntry_of_new {k : Key} {name : Value} {f : Feature} {es : List (Key × Value × Feature)}
    (hnew : k ∉ es.map Prod.fst) : insertEntry k name f es = es ++ [(k, name, f)] := by
  induction es with
  | nil => rfl
  | cons e es ih =>
    rw [List.map_cons, List.mem_cons, not_or] at hnew
    rw [insertEntry, if_neg (Ne.symm hnew.1), ih hnew.2, List.cons_append]

theorem keys_of_entries {es : List (Key × Value × Feature)}
    (h : es.map (fun e => (some e.1, e.2)) = fs.map fun f => (f.name.key?, f.name, f)) :
    (es.map fun e => some e.1) = fs.map fun f => f.name.key? := by
  have hfirst := congrArg (List.map Prod.fst) h
  rwa [List.map_map, List.map_map] at hfirst

/-- Features with different names have one entry each, in their order. -/
theorem entries_of_nodup (h : ofFeatures fs = .ok index)
    (hnodup : (fs.map fun f => f.name.key?).Nodup) :
    index.entries.map (fun e => (some e.1, e.2)) = fs.map fun f => (f.name.key?, f.name, f) := by
  refine Catalog.foldlM_name_induction (fun k f i => Index.mk (insertEntry k f.name f i.entries))
    (fun done i => (done.map fun f => f.name.key?).Nodup →
      i.entries.map (fun e => (some e.1, e.2)) = done.map fun f => (f.name.key?, f.name, f))
    (fun _ => rfl) (fun done f k i hdone hk hnodup => ?_) h hnodup
  rw [List.map_append, List.nodup_append_comm, List.map_singleton, List.singleton_append,
    List.nodup_cons] at hnodup
  have hentries := hdone hnodup.2
  have hnew : k ∉ i.entries.map Prod.fst := by
    intro hmem
    obtain ⟨e, he, rfl⟩ := List.mem_map.1 hmem
    refine hnodup.1 ?_
    rw [← keys_of_entries hentries, hk]
    exact List.mem_map.2 ⟨e, he, rfl⟩
  rw [insertEntry_of_new hnew, List.map_append, hentries, List.map_append, List.map_singleton,
    List.map_singleton, hk]

theorem get?_of_mem {e : Key × Value × Feature} (hnodup : (index.entries.map Prod.fst).Nodup)
    (he : e ∈ index.entries) : index.get? e.1 = some e.2.2 := by
  obtain ⟨before, after, hentries⟩ := List.append_of_mem he
  have hfirst : ∀ p ∈ before, (e.1 != p.1) = true := by
    intro p hp
    rw [hentries, List.map_append, List.map_cons, List.nodup_append] at hnodup
    rw [bne_iff_ne]
    exact (hnodup.2.2 p.1 (List.mem_map_of_mem hp) e.1 List.mem_cons_self).symm
  rw [get?, List.lookup_eq_some_iff.2 ⟨before, after, hentries, by simpa using hfirst⟩]
  rfl

/-- Features with different names are found, each under its own. -/
theorem finds_of_nodup (h : ofFeatures fs = .ok index)
    (hnodup : (fs.map fun f => f.name.key?).Nodup) : ∀ f ∈ fs, index.Finds f.name f := by
  intro f hf
  have hentries := entries_of_nodup h hnodup
  have hmem : (f.name.key?, f.name, f) ∈ index.entries.map fun e => (some e.1, e.2) := by
    rw [hentries]
    exact List.mem_map.2 ⟨f, hf, rfl⟩
  obtain ⟨e, he, hsame⟩ := List.mem_map.1 hmem
  rw [Prod.mk.injEq] at hsame
  refine ⟨e.1, hsame.1.symm, ?_⟩
  rw [get?_of_mem ?_ he, hsame.2]
  rw [← keys_of_entries hentries] at hnodup
  exact List.Nodup.of_map some (by rwa [List.map_map])

end Index

namespace Catalog

variable {fs gs : List Feature}

/-- What the checks find in features, each by itself and all of them together. -/
structure Findings (fs : List Feature) (own : List (List Problem)) (between : List Problem) :
    Prop where
  none_iff : own.flatten ++ between = [] ↔ (∀ f ∈ fs, f.IsValid) ∧ (fs.map Feature.name).Nodup ∧
    (fs.map Feature.instanceName).Nodup ∧ (fs.filterMap Feature.capability).Nodup
  instance_iff : ∀ v, (∃ name owner, ⟨name, .takenInstance v owner⟩ ∈ between) ↔
    ∃ f ∈ fs, ∃ g ∈ fs, f.instanceName = v ∧ g.instanceName = v ∧ f.name ≠ g.name
  capability_iff : ∀ a, (∃ name owner, ⟨name, .takenCapability a owner⟩ ∈ between) ↔
    ∃ f ∈ fs, ∃ g ∈ fs, f.capability = some a ∧ g.capability = some a ∧ f.name ≠ g.name
  repeated_iff : ∀ v n, ⟨v, .repeatedName n⟩ ∈ between ↔
    n = (fs.map fun f => f.name.key?).count v.key? ∧ 1 < n

theorem Findings.of_perm {own : List (List Problem)} {between : List Problem}
    (h : Findings fs own between) (hperm : fs.Perm gs) : Findings gs own between := by
  obtain ⟨hnone, hinstance, hcapability, hrepeated⟩ := h
  refine ⟨?_, fun v => ?_, fun a => ?_, fun v n => ?_⟩
  · rw [hnone, (hperm.map _).nodup_iff, (hperm.map _).nodup_iff, (hperm.filterMap _).nodup_iff]
    simp only [hperm.mem_iff]
  · rw [hinstance]
    simp only [hperm.mem_iff]
  · rw [hcapability]
    simp only [hperm.mem_iff]
  · rw [hrepeated, (hperm.map _).count_eq]

theorem clashes_ok {ps : List Problem} (h : clashes fs = .ok ps) :
    ∃ ts qs, tallies fs = .ok ts ∧ clashesFrom {} fs = .ok qs ∧ ps = repeatedNames ts ++ qs := by
  obtain ⟨ts, hts, h⟩ := Outcome.bind_ok h
  obtain ⟨qs, hqs, h⟩ := Outcome.bind_ok h
  exact ⟨ts, qs, hts, hqs, (Except.ok.inj h).symm⟩

theorem defect_of_mem_repeatedNames {ts : List Tally} {p : Problem} (h : p ∈ repeatedNames ts) :
    ∃ n, p.defect = .repeatedName n := by
  obtain ⟨t, -, ht⟩ := List.mem_filterMap.1 h
  split at ht
  · cases ht
    exact ⟨_, rfl⟩
  · cases ht

theorem eq_of_key?_eq {v w : Value} (hv : ∃ s, v = .text s) (h : w.key? = v.key?) : w = v := by
  obtain ⟨s, rfl⟩ := hv
  exact Value.eq_text_of_key? h

theorem nodup_map_key?_iff {field : Feature → Value} (h : ∀ f ∈ fs, ∃ s, field f = .text s) :
    (fs.map fun f => (field f).key?).Nodup ↔ (fs.map field).Nodup := by
  unfold List.Nodup
  rw [List.pairwise_map, List.pairwise_map]
  refine List.Pairwise.iff_of_mem fun {f g} hf hg => not_congr ⟨fun hkey => ?_, fun heq => heq ▸ rfl⟩
  exact eq_of_key?_eq (h g hg) hkey

theorem nodup_filterMap_key?_iff {field : Feature → Value}
    (h : ∀ f ∈ fs, ∃ s, field f = .text s) :
    (fs.filterMap fun f => (field f).key?).Nodup ↔ (fs.map field).Nodup := by
  rw [← nodup_map_key?_iff h, List.Nodup, List.Nodup, List.pairwise_filterMap, List.pairwise_map]
  refine List.Pairwise.iff_of_mem fun {f g} hf hg => ?_
  obtain ⟨s, hs⟩ := h f hf
  obtain ⟨t, ht⟩ := h g hg
  simp [hs, ht, Value.key?]

theorem repeatedNames_nil_iff {ts : List Tally} (htexts : ∀ f ∈ fs, ∃ s, f.name = .text s)
    (h : tallies fs = .ok ts) : repeatedNames ts = [] ↔ (fs.map Feature.name).Nodup := by
  rw [← nodup_map_key?_iff htexts, List.nodup_iff_count_le_one, List.eq_nil_iff_forall_not_mem]
  constructor
  · intro hnone k
    by_contra hmany
    rw [Nat.not_le] at hmany
    obtain ⟨f, -, rfl⟩ := List.mem_map.1 (List.count_pos_iff.1 (Nat.zero_lt_of_lt hmany))
    exact hnone _ ((mem_repeatedNames_iff htexts h).2 ⟨rfl, hmany⟩)
  · rintro hfew ⟨v, defect⟩ hp
    obtain ⟨n, rfl⟩ := defect_of_mem_repeatedNames hp
    obtain ⟨rfl, hmany⟩ := (mem_repeatedNames_iff htexts h).1 hp
    exact absurd (hfew v.key?) (Nat.not_le.2 hmany)

theorem clashesFrom_nil_iff {qs : List Problem} (h : clashesFrom {} fs = .ok qs) :
    qs = [] ↔ (∀ f ∈ fs, ∀ k owner, ¬ Taken (·.instanceName.key?) [] fs f k owner) ∧
      ∀ f ∈ fs, ∀ a owner, ¬ Taken Feature.capability [] fs f a owner := by
  constructor
  · rintro rfl
    exact not_taken_of_clashesFrom_nil h
  · rintro ⟨hinstances, hcapabilities⟩
    refine List.eq_nil_iff_forall_not_mem.2 fun p hp => ?_
    rcases (mem_clashesFrom_iff h).1 hp with ⟨f, hf, ⟨k, owner, htaken, -⟩ | ⟨a, owner, htaken, -⟩⟩
    · exact hinstances f hf k owner htaken
    · exact hcapabilities f hf a owner htaken

theorem flatten_problems_nil_iff {own : List (List Problem)}
    (h : fs.mapM Feature.problems = .ok own) :
    own.flatten = [] ↔ ∀ f ∈ fs, f.problems = .ok [] := by
  have hown := mapM_ok_iff.1 h
  clear h
  induction hown with
  | nil => simp
  | cons hf _ ih => simp [hf, ih]

theorem exists_takenInstance_iff {qs : List Problem} (htexts : ∀ f ∈ fs, f.IsTextual)
    (h : clashesFrom {} fs = .ok qs) (v : Value) :
    (∃ name owner, ⟨name, .takenInstance v owner⟩ ∈ qs) ↔
      ∃ f ∈ fs, ∃ g ∈ fs, f.instanceName = v ∧ g.instanceName = v ∧ f.name ≠ g.name := by
  have hnames : ∀ f ∈ fs, ∃ s, f.name = .text s := fun f hf => (htexts f hf).name
  simp only [mem_clashesFrom_iff h]
  constructor
  · rintro ⟨name, owner, e, he, ⟨k, owner', htaken, hp⟩ | ⟨a, owner', -, hp⟩⟩
    · obtain ⟨f, hf, g, hg, hfk, hgk, hne⟩ := (exists_taken_iff _ hnames).1 ⟨e, he, owner', htaken⟩
      cases hp
      have hinstance := (htexts e he).instanceName
      exact ⟨f, hf, g, hg, eq_of_key?_eq hinstance (hfk.trans htaken.has.symm),
        eq_of_key?_eq hinstance (hgk.trans htaken.has.symm), hne⟩
    · cases hp
  · rintro ⟨f, hf, g, hg, rfl, hgf, hne⟩
    obtain ⟨s, hs⟩ := (htexts f hf).instanceName
    have hfk : f.instanceName.key? = some (.text s) := by rw [hs]; rfl
    obtain ⟨e, he, owner, htaken⟩ := (exists_taken_iff (·.instanceName.key?) hnames).2
      ⟨f, hf, g, hg, hfk, hgf ▸ hfk, hne⟩
    refine ⟨e.name, owner, e, he, .inl ⟨.text s, owner, htaken, ?_⟩⟩
    rw [eq_of_key?_eq ⟨s, hs⟩ (htaken.has.trans hfk.symm)]

theorem exists_takenCapability_iff {qs : List Problem} (htexts : ∀ f ∈ fs, f.IsTextual)
    (h : clashesFrom {} fs = .ok qs) (a : Capability) :
    (∃ name owner, ⟨name, .takenCapability a owner⟩ ∈ qs) ↔
      ∃ f ∈ fs, ∃ g ∈ fs, f.capability = some a ∧ g.capability = some a ∧ f.name ≠ g.name := by
  rw [← exists_taken_iff Feature.capability fun f hf => (htexts f hf).name]
  simp only [mem_clashesFrom_iff h]
  constructor
  · rintro ⟨name, owner, e, he, ⟨k, owner', -, hp⟩ | ⟨b, owner', htaken, hp⟩⟩
    · cases hp
    · cases hp
      exact ⟨e, he, owner, htaken⟩
  · rintro ⟨e, he, owner, htaken⟩
    exact ⟨e.name, owner, e, he, .inr ⟨a, owner, htaken, rfl⟩⟩

theorem findings_of_ok {own : List (List Problem)} {between : List Problem}
    (htexts : ∀ f ∈ fs, f.IsTextual) (hown : fs.mapM Feature.problems = .ok own)
    (hbetween : clashes fs = .ok between) : Findings fs own between := by
  obtain ⟨ts, qs, hts, hqs, rfl⟩ := clashes_ok hbetween
  have hnames : ∀ f ∈ fs, ∃ s, f.name = .text s := fun f hf => (htexts f hf).name
  have hinstances : ∀ f ∈ fs, ∃ s, f.instanceName = .text s := fun f hf => (htexts f hf).instanceName
  have hrepeats {p : Problem} (h : ∀ n, p.defect ≠ .repeatedName n) :
      p ∈ repeatedNames ts ++ qs ↔ p ∈ qs :=
    List.mem_append.trans (or_iff_right fun hp => (defect_of_mem_repeatedNames hp).elim h)
  refine ⟨?_, fun v => ?_, fun a => ?_, fun v n => ?_⟩
  · have hvalid : (∀ f ∈ fs, f.problems = .ok []) ↔ ∀ f ∈ fs, f.IsValid :=
      forall₂_congr fun f hf => Feature.problems_nil_iff_isValid (htexts f hf)
    rw [List.append_eq_nil_iff, List.append_eq_nil_iff, flatten_problems_nil_iff hown, hvalid,
      repeatedNames_nil_iff hnames hts]
    -- what the owners tell of clashes presupposes that the names are different
    refine and_congr_right fun _ => and_congr_right fun hnodup => ?_
    rw [clashesFrom_nil_iff hqs, not_taken_iff _ hnames hnodup, not_taken_iff _ hnames hnodup,
      nodup_filterMap_key?_iff hinstances]
  · rw [← exists_takenInstance_iff htexts hqs]
    exact exists₂_congr fun _ _ => hrepeats fun _ h => nomatch h
  · rw [← exists_takenCapability_iff htexts hqs]
    exact exists₂_congr fun _ _ => hrepeats fun _ h => nomatch h
  · rw [← mem_repeatedNames_iff hnames hts, List.mem_append, or_iff_left]
    intro hp
    obtain ⟨f, -, ⟨k, owner, -, hp⟩ | ⟨b, owner, -, hp⟩⟩ := (mem_clashesFrom_iff hqs).1 hp <;>
      cases hp

theorem exists_findings (htexts : ∀ f ∈ fs, f.IsTextual) :
    ∃ own between, fs.mapM Feature.problems = .ok own ∧ clashes fs = .ok between ∧
      Findings fs own between := by
  obtain ⟨own, hown⟩ : ∃ own, fs.mapM Feature.problems = .ok own :=
    exists_mapM_ok_iff.2 fun f hf => Feature.exists_problems_iff.2 (htexts f hf).isSpelled
  obtain ⟨between, hbetween⟩ := exists_clashes_iff.2 fun f hf => (htexts f hf).isKeyed
  exact ⟨own, between, hown, hbetween, findings_of_ok htexts hown hbetween⟩

/-- Each feature of the list is found under its name, and the entries are in the order of the list. -/
def Indexed (fs : List Feature) (index : Index) : Prop :=
  index.entries.map Prod.snd = fs.map (fun f => (f.name, f)) ∧ ∀ f ∈ fs, index.Finds f.name f

theorem exists_indexed (htexts : ∀ f ∈ fs, ∃ s, f.name = .text s)
    (hnodup : (fs.map Feature.name).Nodup) :
    ∃ index, Index.ofFeatures fs = .ok index ∧ Indexed fs index := by
  rw [← nodup_map_key?_iff htexts] at hnodup
  obtain ⟨index, hindex⟩ := Index.ofFeatures_ok fun f hf => by
    obtain ⟨s, hs⟩ := htexts f hf
    exact ⟨.text s, by rw [hs]; rfl⟩
  refine ⟨index, hindex, ?_, Index.finds_of_nodup hindex hnodup⟩
  have hentries := congrArg (List.map Prod.snd) (Index.entries_of_nodup hindex hnodup)
  rwa [List.map_map, List.map_map] at hentries

/-- The checks find nothing in features whose fields are texts exactly if every feature is valid and no
two share a name, an instance or a capability. In whatever order the features come, they report every
name, instance and capability that is shared, and no other. Without problems every feature is found
under its name, in order. -/
theorem checks_report (htexts : ∀ f ∈ fs, f.IsTextual) (hperm : fs.Perm gs) :
    ∃ own between, gs.mapM Feature.problems = .ok own ∧ clashes gs = .ok between ∧
      Findings fs own between ∧
      (own.flatten ++ between = [] →
        ∃ index, Catalog.index ⟨gs, []⟩ = .ok index ∧ Indexed gs index) := by
  have htexts' : ∀ f ∈ gs, f.IsTextual := fun f hf => htexts f (hperm.mem_iff.2 hf)
  obtain ⟨own, between, hown, hbetween, hfindings⟩ := exists_findings htexts'
  refine ⟨own, between, hown, hbetween, hfindings.of_perm hperm.symm, fun hnone => ?_⟩
  exact exists_indexed (fun f hf => (htexts' f hf).name) (hfindings.none_iff.1 hnone).2.1

/-- A feature with nothing but a name and an instance. -/
def bare (name inst : String) : Feature where
  name := .text name
  path := .text ""
  className := .text name
  instanceName := .text inst
  reporting := false
  update := false
  capability := none
  dependencies := []
  description := .text ""
  source := ""

theorem isTextual_bare (name inst : String) : (bare name inst).IsTextual :=
  ⟨⟨name, rfl⟩, ⟨"", rfl⟩, ⟨name, rfl⟩, ⟨inst, rfl⟩, fun _ hd => nomatch hd⟩

/-- Two features that are called alike and one that shares their instance are told of; two that share
nothing are found under their names. -/
theorem checks_report_bare :
    (∃ between, clashes [bare "Led" "hub", bare "Fan" "hub", bare "Fan" "hub"] = .ok between ∧
      ⟨.text "Fan", .repeatedName 2⟩ ∈ between ∧
      ∃ name owner, ⟨name, .takenInstance (.text "hub") owner⟩ ∈ between) ∧
    ∃ index, Catalog.index ⟨[bare "Led" "led", bare "Fan" "fan"], []⟩ = .ok index ∧
      Indexed [bare "Led" "led", bare "Fan" "fan"] index := by
  constructor
  · have htexts : ∀ f ∈ [bare "Fan" "hub", bare "Led" "hub", bare "Fan" "hub"], f.IsTextual := by
      simp only [List.forall_mem_cons, isTextual_bare, true_and]
      exact fun _ hf => nomatch hf
    obtain ⟨own, between, -, hbetween, hfindings, -⟩ := checks_report htexts (List.Perm.swap _ _ _)
    refine ⟨between, hbetween, (hfindings.repeated_iff _ _).2 (by decide), ?_⟩
    refine (hfindings.instance_iff _).2 ⟨bare "Fan" "hub", by simp, bare "Led" "hub", by simp, rfl,
      rfl, ?_⟩
    simp [bare]
  · have htexts : ∀ f ∈ [bare "Fan" "fan", bare "Led" "led"], f.IsTextual := by
      simp only [List.forall_mem_cons, isTextual_bare, true_and]
      exact fun _ hf => nomatch hf
    obtain ⟨own, between, hown, hbetween, -, hindex⟩ := checks_report htexts (List.Perm.swap _ _ _)
    cases hown
    cases hbetween
    exact hindex rfl

end Catalog

end FirmataSketch
