import FirmataSketch.Catalog.Load
import FirmataSketch.Proofs.Catalog.Clashes
import FirmataSketch.Proofs.Catalog.RepeatedNames

/-! Uniqueness: what a catalog without problems guarantees. Every instance name is a word, and
features with the same instance have the same name. -/

namespace FirmataSketch

open Disk (PathName)
open Outcome (bind_ok mapError_ok mapM_ok_mem)

namespace Feature

theorem problems_nil_iff {f : Feature} :
    f.problems = .ok [] ↔ nameDefects .className f.className = .ok [] ∧
      nameDefects .instanceName f.instanceName = .ok [] ∧ pathDefects f.path = .ok [] ∧
      dependencyDefects f.dependencies = [] := by
  constructor
  · intro h
    obtain ⟨ofClass, hclass, h⟩ := bind_ok h
    obtain ⟨ofInstance, hinstance, h⟩ := bind_ok h
    obtain ⟨ofPath, hpath, h⟩ := bind_ok h
    have hnil := List.map_eq_nil_iff.1 (Except.ok.inj h)
    simp only [List.append_eq_nil_iff] at hnil
    obtain ⟨⟨⟨rfl, rfl⟩, rfl⟩, hdependencies⟩ := hnil
    exact ⟨hclass, hinstance, hpath, hdependencies⟩
  · rintro ⟨hclass, hinstance, hpath, hdependencies⟩
    rw [problems, hclass, hinstance, hpath, hdependencies]
    rfl

theorem word_of_nameDefects_nil {which : DeclaredName} {v : Value}
    (h : nameDefects which v = .ok []) : ∃ s, v = .text s ∧ Text.acceptsWord s = true := by
  unfold nameDefects at h
  split at h
  · cases h
  · split at h
    next s _ =>
      refine ⟨s, rfl, ?_⟩
      by_contra hword
      rw [if_neg hword] at h
      cases h
    next => cases h

/-- A path in which nothing was found is absent, or a text that ends with a slash. -/
theorem path_of_pathDefects_nil {v : Value} (h : pathDefects v = .ok []) :
    v.isPresent = false ∨ ∃ p, v = .text p ∧ p.toList.getLast? = some '/' := by
  unfold pathDefects at h
  split at h
  next habsent =>
    rw [Bool.not_eq_true'] at habsent
    exact .inl habsent
  next =>
    split at h
    next p _ =>
      refine .inr ⟨p, rfl, ?_⟩
      by_contra hopen
      rw [if_neg hopen] at h
      cases h
    next => cases h

theorem instanceName_of_problems_nil {f : Feature} (h : f.problems = .ok []) :
    ∃ s, f.instanceName = .text s ∧ Text.acceptsWord s = true :=
  word_of_nameDefects_nil (problems_nil_iff.1 h).2.1

end Feature

namespace Catalog

theorem not_taken_of_clashesFrom_nil {o : Owners} {fs : List Feature}
    (h : clashesFrom o fs = .ok []) :
    (∀ f ∈ fs, ∀ k owner, ¬ Taken (·.instanceName.key?) o.ofInstance fs f k owner) ∧
      ∀ f ∈ fs, ∀ a owner, ¬ Taken Feature.capability o.ofCapability fs f a owner :=
  ⟨fun f hf k owner htaken => List.not_mem_nil
      ((mem_clashesFrom_iff h).2 ⟨f, hf, .inl ⟨k, owner, htaken, rfl⟩⟩),
    fun f hf a owner htaken => List.not_mem_nil
      ((mem_clashesFrom_iff h).2 ⟨f, hf, .inr ⟨a, owner, htaken, rfl⟩⟩)⟩

theorem clashes_nil {fs : List Feature} (h : clashes fs = .ok []) :
    (∃ ts, tallies fs = .ok ts) ∧ clashesFrom {} fs = .ok [] := by
  obtain ⟨ts, hts, h⟩ := bind_ok h
  obtain ⟨ps, hps, h⟩ := bind_ok h
  have hnil := Except.ok.inj h
  rw [List.append_eq_nil_iff] at hnil
  exact ⟨⟨ts, hts⟩, hnil.2 ▸ hps⟩

theorem key_of_foldlM {β : Type} {step : Key → Feature → β → β} {fs : List Feature} {b b' : β}
    (h : fs.foldlM (fun b f => do return step (← f.name.key) f b) b = .ok b') :
    ∀ f ∈ fs, ∃ k, f.name.key? = some k := by
  refine foldlM_name_induction step (fun done _ => ∀ f ∈ done, ∃ k, f.name.key? = some k) (by simp)
    (fun done f k b hdone hk => ?_) h
  rw [List.forall_mem_append, List.forall_mem_singleton]
  exact ⟨hdone, k, hk⟩

theorem contribution_ok {d : Disk} {folder : PathName} {name : String} {f : Feature}
    {ps : List Problem} (h : contribution d folder name = .ok (some f, ps)) :
    f.problems = .ok ps := by
  obtain ⟨read, hread, h⟩ := bind_ok h
  cases read with
  | error p => cases h
  | ok g =>
    obtain ⟨qs, hqs, h⟩ := bind_ok h
    cases h
    exact mapError_ok hqs

/-- What holds of the features of a catalog in which no problems were found. -/
structure Sound (c : Catalog) : Prop where
  keyed : ∀ f ∈ c.features, ∃ k, f.name.key? = some k
  named : ∀ f ∈ c.features, ∃ s, f.instanceName = .text s ∧ Text.acceptsWord s = true
  own : ∀ f ∈ c.features, ∀ g ∈ c.features,
    f.instanceName.key? = g.instanceName.key? → f.name.key? = g.name.key?
  capable : ∀ f ∈ c.features, ∀ g ∈ c.features, ∀ a,
    f.capability = some a → g.capability = some a → f.name.key? = g.name.key?

theorem problems_of_load {d : Disk} {folder : PathName} {c : Catalog} (h : load d folder = .ok c)
    (hok : c.isOk = true) : (∀ f ∈ c.features, f.problems = .ok []) ∧ clashes c.features = .ok [] := by
  obtain ⟨names, -, h⟩ := bind_ok h
  split at h
  · cases h
  obtain ⟨parts, hparts, h⟩ := bind_ok h
  obtain ⟨between, hbetween, h⟩ := bind_ok h
  cases h
  rw [isOk, List.isEmpty_iff, List.append_eq_nil_iff, List.flatMap_eq_nil_iff] at hok
  obtain ⟨hfiles, rfl⟩ := hok
  refine ⟨fun f hf => ?_, mapError_ok hbetween⟩
  obtain ⟨⟨_, ps⟩, hpart, rfl⟩ := List.mem_filterMap.1 hf
  obtain ⟨name, -, hname⟩ := mapM_ok_mem hparts hpart
  have hnil : ps = [] := hfiles _ hpart
  exact hnil ▸ contribution_ok hname

theorem load_sound {d : Disk} {folder : PathName} {c : Catalog} (h : load d folder = .ok c)
    (hok : c.isOk = true) : c.Sound := by
  obtain ⟨hproblems, hbetween⟩ := problems_of_load h hok
  obtain ⟨⟨ts, hts⟩, hclashes⟩ := clashes_nil hbetween
  obtain ⟨hinstances, hcapabilities⟩ := not_taken_of_clashesFrom_nil hclashes
  have hnamed : ∀ f ∈ c.features, ∃ s, f.instanceName = .text s ∧ Text.acceptsWord s = true :=
    fun f hf => Feature.instanceName_of_problems_nil (hproblems f hf)
  refine ⟨key_of_foldlM hts, hnamed, fun f hf g hg hsame => ?_, fun f hf g hg a ha hb =>
    name_key_eq_of_not_taken hcapabilities hf hg ha hb⟩
  obtain ⟨s, hs, -⟩ := hnamed f hf
  have hkey : f.instanceName.key? = some (.text s) := by rw [hs]; rfl
  exact name_key_eq_of_not_taken hinstances hf hg hkey (hsame ▸ hkey)

end Catalog

namespace Index

theorem mem_insertEntry {k : Key} {name : Value} {f : Feature} {es : List (Key × Value × Feature)}
    {e : Key × Value × Feature} (h : e ∈ insertEntry k name f es) :
    (e.1 = k ∧ e.2.2 = f) ∨ e ∈ es := by
  induction es with
  | nil =>
    rw [List.mem_singleton.1 h]
    exact .inl ⟨rfl, rfl⟩
  | cons e' es ih =>
    rw [insertEntry] at h
    split at h
    · rcases List.mem_cons.1 h with rfl | h
      · exact .inl ⟨rfl, rfl⟩
      · exact .inr (List.mem_cons_of_mem e' h)
    · rcases List.mem_cons.1 h with rfl | h
      · exact .inr List.mem_cons_self
      · exact (ih h).imp_right (List.mem_cons_of_mem e')

theorem mem_of_ofFeatures {fs : List Feature} {index : Index} (h : ofFeatures fs = .ok index) :
    ∀ e ∈ index.entries, e.2.2 ∈ fs ∧ e.2.2.name.key? = some e.1 := by
  refine Catalog.foldlM_name_induction (fun k f i => Index.mk (insertEntry k f.name f i.entries))
    (fun done i => ∀ e ∈ i.entries, e.2.2 ∈ done ∧ e.2.2.name.key? = some e.1) (by simp)
    (fun done f k i hdone hk e he => ?_) h
  rcases mem_insertEntry he with ⟨rfl, rfl⟩ | he
  · exact ⟨List.mem_append_right done (List.mem_singleton_self _), hk⟩
  · exact ⟨List.mem_append_left _ (hdone e he).1, (hdone e he).2⟩

theorem Finds.mem {fs : List Feature} {index : Index} (h : ofFeatures fs = .ok index)
    {name : Value} {f : Feature} (hf : index.Finds name f) :
    f ∈ fs ∧ f.name.key? = name.key? := by
  obtain ⟨k, hk, hget⟩ := hf
  obtain ⟨found, hlookup, rfl⟩ := Option.map_eq_some_iff.1 hget
  obtain ⟨before, after, hentries, -⟩ := List.lookup_eq_some_iff.1 hlookup
  obtain ⟨hmem, hkey⟩ := mem_of_ofFeatures h (k, found) (by simp [hentries])
  exact ⟨hmem, hkey.trans hk.symm⟩

theorem ofFeatures_ok {fs : List Feature} (h : ∀ f ∈ fs, ∃ k, f.name.key? = some k) :
    ∃ index, ofFeatures fs = .ok index := by
  have hfold : ∀ i, ∃ index, fs.foldlM insert i = .ok index := by
    induction fs with
    | nil => exact fun i => ⟨i, rfl⟩
    | cons f fs ih =>
      intro i
      obtain ⟨k, hk⟩ := h f List.mem_cons_self
      obtain ⟨index, hindex⟩ := ih (fun g hg => h g (List.mem_cons_of_mem f hg))
        ⟨insertEntry k f.name f i.entries⟩
      refine ⟨index, ?_⟩
      rw [List.foldlM_cons, insert, Value.key_eq_ok_iff.2 hk]
      exact hindex
  exact hfold ⟨[]⟩

end Index

end FirmataSketch
