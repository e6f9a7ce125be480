import FirmataSketch.Proofs.Catalog.Uniqueness

/-! Loading: which feature files end the loading of a whole catalog. Every other file that holds no
feature adds one problem to the catalog, and the catalog is else what it is without that file. -/

namespace FirmataSketch

open Disk (PathName)
open Outcome (bind_ok ok_of_toOption mapError_ok exists_bind_ok_iff mapM_ok_iff exists_mapM_ok_iff
  mapM_congr exists_mapError_ok_iff)

namespace Feature

/-- The names and the path are texts, as far as they are there. -/
structure IsSpelled (f : Feature) : Prop where
  className : f.className.isPresent = true → ∃ s, f.className = .text s
  instanceName : f.instanceName.isPresent = true → ∃ s, f.instanceName = .text s
  path : f.path.isPresent = true → ∃ s, f.path = .text s

/-- The feature can be told apart from others by its name and by its instance. -/
structure IsKeyed (f : Feature) : Prop where
  name : ∃ k, f.name.key? = some k
  instanceName : ∃ k, f.instanceName.key? = some k

theorem exists_nameDefects_iff (which : DeclaredName) {v : Value} :
    (∃ ds, nameDefects which v = .ok ds) ↔ (v.isPresent = true → ∃ s, v = .text s) := by
  unfold nameDefects
  cases hv : v.isPresent with
  | false => simp
  | true => cases v <;> simp

theorem exists_pathDefects_iff {v : Value} :
    (∃ ds, pathDefects v = .ok ds) ↔ (v.isPresent = true → ∃ s, v = .text s) := by
  unfold pathDefects
  cases hv : v.isPresent with
  | false => simp
  | true => cases v <;> simp

theorem exists_problems_iff {f : Feature} : (∃ ps, f.problems = .ok ps) ↔ f.IsSpelled := by
  constructor
  · rintro ⟨ps, h⟩
    obtain ⟨ofClass, hclass, h⟩ := bind_ok h
    obtain ⟨ofInstance, hinstance, h⟩ := bind_ok h
    obtain ⟨ofPath, hpath, h⟩ := bind_ok h
    exact ⟨(exists_nameDefects_iff _).1 ⟨_, hclass⟩, (exists_nameDefects_iff _).1 ⟨_, hinstance⟩,
      exists_pathDefects_iff.1 ⟨_, hpath⟩⟩
  · rintro ⟨hclass, hinstance, hpath⟩
    obtain ⟨ofClass, hclass⟩ := (exists_nameDefects_iff .className).2 hclass
    obtain ⟨ofInstance, hinstance⟩ := (exists_nameDefects_iff .instanceName).2 hinstance
    obtain ⟨ofPath, hpath⟩ := exists_pathDefects_iff.2 hpath
    unfold problems
    rw [hclass, hinstance, hpath]
    exact ⟨_, rfl⟩

end Feature

namespace Catalog

theorem exists_foldlM_name_iff {β : Type} {step : Key → Feature → β → β} {fs : List Feature}
    {b : β} :
    (∃ b', fs.foldlM (fun b f => do return step (← f.name.key) f b) b = .ok b') ↔
      ∀ f ∈ fs, ∃ k, f.name.key? = some k := by
  refine ⟨fun ⟨b', h⟩ => key_of_foldlM h, fun h => ?_⟩
  induction fs generalizing b with
  | nil => exact ⟨b, rfl⟩
  | cons f fs ih =>
    obtain ⟨k, hk⟩ := h f List.mem_cons_self
    rw [List.foldlM_cons, Value.key_eq_ok_iff.2 hk]
    exact ih fun g hg => h g (List.mem_cons_of_mem f hg)

theorem exists_clashesFrom_iff {o : Owners} {fs : List Feature} :
    (∃ ps, clashesFrom o fs = .ok ps) ↔ ∀ f ∈ fs, ∃ k, f.instanceName.key? = some k := by
  induction fs generalizing o with
  | nil => simp [clashesFrom]
  | cons f fs ih =>
    rw [List.forall_mem_cons]
    constructor
    · rintro ⟨ps, h⟩
      obtain ⟨hkey, rest, hrest, -⟩ := clashesFrom_cons_ok h
      exact ⟨hkey, ih.1 ⟨rest, hrest⟩⟩
    · rintro ⟨⟨k, hk⟩, hfs⟩
      rw [clashesFrom, Owners.claimInstance, Value.key_eq_ok_iff.2 hk]
      refine exists_bind_ok_iff.2 ⟨_, rfl, exists_bind_ok_iff.2 ?_⟩
      -- the owners after a feature are not those before it, but no key depends on them
      obtain ⟨rest, hrest⟩ := ih.2 hfs
      exact ⟨rest, hrest, _, rfl⟩

theorem exists_clashes_iff {fs : List Feature} :
    (∃ ps, clashes fs = .ok ps) ↔ ∀ f ∈ fs, f.IsKeyed := by
  have hnames : (∃ ts, tallies fs = .ok ts) ↔ ∀ f ∈ fs, ∃ k, f.name.key? = some k :=
    exists_foldlM_name_iff
  have hinstances : (∃ ps, clashesFrom {} fs = .ok ps) ↔
      ∀ f ∈ fs, ∃ k, f.instanceName.key? = some k := exists_clashesFrom_iff
  constructor
  · rintro ⟨ps, h⟩ f hf
    obtain ⟨ts, hts, h⟩ := bind_ok h
    obtain ⟨qs, hqs, -⟩ := bind_ok h
    exact ⟨hnames.1 ⟨ts, hts⟩ f hf, hinstances.1 ⟨qs, hqs⟩ f hf⟩
  · intro h
    obtain ⟨ts, hts⟩ := hnames.2 fun f hf => (h f hf).name
    obtain ⟨qs, hqs⟩ := hinstances.2 fun f hf => (h f hf).instanceName
    exact exists_bind_ok_iff.2 ⟨ts, hts, exists_bind_ok_iff.2 ⟨qs, hqs, _, rfl⟩⟩

/-- The document of the file at a path. -/
def document? (d : Disk) (path : PathName) : Option Value :=
  (d.readFile path).toOption.bind fun bytes => (readDocument bytes).toOption

/-- The feature that the file at a path holds. -/
def feature? (d : Disk) (path : PathName) : Option Feature :=
  (document? d path).bind fun v => (Feature.ofValue path.text v).toOption

/-- The problem that a file without a feature adds to the catalog. -/
inductive Reports (d : Disk) (path : PathName) (stem : String) : Problem → Prop
  | unreadable {r : Disk.Refusal} (h : d.readFile path = .error r) :
      Reports d path stem ⟨.text stem, .unreadable path.text r⟩
  | notJson {bytes : ByteArray} {f : Json.Fault} (hread : d.readFile path = .ok bytes)
      (h : readDocument bytes = .error (.notJson (.fault f))) :
      Reports d path stem ⟨.text stem, .notJson f⟩
  | misshapen {v : Value} {m : Misuse} (hv : document? d path = some v)
      (h : Feature.ofValue path.text v = .error m) :
      Reports d path stem ⟨reportedName stem v, .misshapen m⟩

/-- The file at a path is not read to its end: for its encoding, or for a limit of the reader. -/
inductive Unread (d : Disk) (path : PathName) : Prop
  | notUtf8 {bytes : ByteArray} {f : Text.Utf8.Fault} (hread : d.readFile path = .ok bytes)
      (h : readDocument bytes = .error (.notUtf8 f))
  | tooManyDigits {bytes : ByteArray} {n : Nat} (hread : d.readFile path = .ok bytes)
      (h : readDocument bytes = .error (.notJson (.tooManyDigits n)))
  | tooDeep {bytes : ByteArray} {c : Json.Container} (hread : d.readFile path = .ok bytes)
      (h : readDocument bytes = .error (.notJson (.tooDeep c)))

/-- The file at a path does not keep the catalog from being loaded. -/
structure Loadable (d : Disk) (path : PathName) : Prop where
  read : ¬ Unread d path
  spelled : ∀ f, feature? d path = some f → f.IsSpelled
  keyed : ∀ f, feature? d path = some f → f.IsKeyed

/-- What reading a feature file can come to. -/
inductive Reading (d : Disk) (path : PathName) (stem : String) :
    Except Failure (Except Problem Feature) → Prop
  | problem {p : Problem} (h : Reports d path stem p) (hf : feature? d path = none)
      (hread : ¬ Unread d path) : Reading d path stem (.ok (.error p))
  | feature {f : Feature} (hf : feature? d path = some f) (hread : ¬ Unread d path) :
      Reading d path stem (.ok (.ok f))
  | failure {e : Failure} (h : Unread d path) (hf : feature? d path = none) :
      Reading d path stem (.error e)

theorem readDocument_error {bytes : ByteArray} {e : Failure} (h : readDocument bytes = .error e) :
    (∃ f, e = .notUtf8 f) ∨ ∃ r, e = .notJson r := by
  rcases Outcome.bind_error h with h | ⟨cs, -, h⟩
  · obtain ⟨f, -, rfl⟩ := Outcome.mapError_error h
    exact .inl ⟨f, rfl⟩
  · obtain ⟨r, -, rfl⟩ := Outcome.mapError_error h
    exact .inr ⟨r, rfl⟩

variable {d : Disk} {path : PathName} {stem : String}

theorem not_unread_of_refusal {r : Disk.Refusal} (hread : d.readFile path = .error r) :
    ¬ Unread d path := by
  rintro (⟨hbytes, -⟩ | ⟨hbytes, -⟩ | ⟨hbytes, -⟩) <;>
    exact absurd (hread.symm.trans hbytes) fun h => nomatch h

/-- A file is unread exactly if its reading ends for a reason that is not told. -/
theorem unread_iff {bytes : ByteArray} (hread : d.readFile path = .ok bytes) :
    Unread d path ↔ ∃ e, readDocument bytes = .error e ∧ e.isReported = false := by
  have hsame {bytes' : ByteArray} (h : d.readFile path = .ok bytes') : bytes' = bytes :=
    Except.ok.inj (h.symm.trans hread)
  constructor
  · rintro (⟨hbytes, h⟩ | ⟨hbytes, h⟩ | ⟨hbytes, h⟩)
    · exact ⟨_, hsame hbytes ▸ h, rfl⟩
    · exact ⟨_, hsame hbytes ▸ h, rfl⟩
    · exact ⟨_, hsame hbytes ▸ h, rfl⟩
  · rintro ⟨e, h, hquiet⟩
    rcases readDocument_error h with ⟨f, rfl⟩ | ⟨r, rfl⟩
    · exact .notUtf8 hread h
    · cases r with
      | fault f => cases hquiet
      | tooManyDigits n => exact .tooManyDigits hread h
      | tooDeep c => exact .tooDeep hread h

theorem not_unread_of_document {bytes : ByteArray} {v : Value} (hread : d.readFile path = .ok bytes)
    (hv : readDocument bytes = .ok v) : ¬ Unread d path := by
  rw [unread_iff hread, hv]
  rintro ⟨e, h, -⟩
  cases h

theorem reading_readFeature (d : Disk) (path : PathName) (stem : String) :
    Reading d path stem (readFeature d path stem) := by
  unfold readFeature
  cases hread : d.readFile path with
  | error r =>
    refine .problem (.unreadable hread) ?_ (not_unread_of_refusal hread)
    simp [feature?, document?, hread, Except.toOption]
  | ok bytes =>
    dsimp only
    cases hv : readDocument bytes with
    | error e =>
      have hnone : feature? d path = none := by
        simp [feature?, document?, hread, hv, Except.toOption]
      rcases readDocument_error hv with ⟨f, rfl⟩ | ⟨r, rfl⟩
      · exact .failure (.notUtf8 hread hv) hnone
      · cases r with
        | fault f =>
          refine .problem (.notJson hread hv) hnone ?_
          rw [unread_iff hread, hv]
          rintro ⟨e, he, hquiet⟩
          cases he
          cases hquiet
        | tooManyDigits n => exact .failure (.tooManyDigits hread hv) hnone
        | tooDeep c => exact .failure (.tooDeep hread hv) hnone
    | ok v =>
      have hunread : ¬ Unread d path := not_unread_of_document hread hv
      have hdocument : document? d path = some v := by
        simp [document?, hread, hv, Except.toOption]
      have hfeature : feature? d path = (Feature.ofValue path.text v).toOption := by
        rw [feature?, hdocument]
        rfl
      dsimp only
      cases hf : Feature.ofValue path.text v with
      | error m => exact .problem (.misshapen hdocument hf) (by rw [hfeature, hf]; rfl) hunread
      | ok f => exact .feature (by rw [hfeature, hf]; rfl) hunread

variable {folder : PathName} {name : String}

theorem exists_contribution_iff :
    (∃ part, contribution d folder name = .ok part) ↔ ¬ Unread d (folder.child name) ∧
      ∀ f, feature? d (folder.child name) = some f → f.IsSpelled := by
  have hreading := reading_readFeature d (folder.child name) (Disk.stem name)
  unfold contribution
  rw [exists_bind_ok_iff]
  cases hread : readFeature d (folder.child name) (Disk.stem name) with
  | error e =>
    rw [hread] at hreading
    cases hreading with
    | failure h hf => simp [h]
  | ok read =>
    rw [hread] at hreading
    cases hreading with
    | problem h hf hunread => simp [hunread, hf, pure, Except.pure]
    | @feature f hf hunread =>
      have hkept : (∃ part, (do return (some f, ← f.problems.mapError .misuse) :
          Except Failure (Option Feature × List Problem)) = .ok part) ↔ f.IsSpelled := by
        rw [exists_bind_ok_iff, ← Feature.exists_problems_iff,
          ← exists_mapError_ok_iff (g := Failure.misuse)]
        simp [pure, Except.pure]
      have hspelled : f.IsSpelled ↔ ¬ Unread d (folder.child name) ∧
          ∀ g, feature? d (folder.child name) = some g → g.IsSpelled := by
        simp [hunread, hf]
      rw [← hspelled, ← hkept]
      constructor
      · rintro ⟨read, hf', hpart⟩
        cases hf'
        exact hpart
      · exact fun hpart => ⟨_, rfl, hpart⟩

/-- What a file adds to the catalog is the feature that it holds, or else one problem. -/
theorem contribution_spec {part : Option Feature × List Problem}
    (h : contribution d folder name = .ok part) :
    part.1 = feature? d (folder.child name) ∧ (part.1 = none →
      ∃ p, Reports d (folder.child name) (Disk.stem name) p ∧ part.2 = [p]) := by
  have hreading := reading_readFeature d (folder.child name) (Disk.stem name)
  obtain ⟨read, hread, h⟩ := bind_ok h
  rw [hread] at hreading
  cases hreading with
  | problem hp hf hunread =>
    cases h
    exact ⟨hf.symm, fun _ => ⟨_, hp, rfl⟩⟩
  | feature hf hunread =>
    obtain ⟨ps, -, h⟩ := bind_ok h
    cases h
    exact ⟨hf.symm, fun hnone => nomatch hnone⟩

variable {names : List String} {parts : List (Option Feature × List Problem)}

theorem features_of_parts (h : names.mapM (contribution d folder) = .ok parts) :
    parts.filterMap Prod.fst = names.filterMap fun name => feature? d (folder.child name) := by
  have hparts := mapM_ok_iff.1 h
  clear h
  induction hparts with
  | nil => rfl
  | cons hpart _ ih => rw [List.filterMap_cons, List.filterMap_cons, (contribution_spec hpart).1, ih]

/-- The features of a catalog that was loaded can be told apart. -/
theorem isKeyed_of_load {c : Catalog} (h : load d folder = .ok c) : ∀ f ∈ c.features, f.IsKeyed := by
  obtain ⟨names, -, h⟩ := bind_ok h
  split at h
  · cases h
  obtain ⟨parts, -, h⟩ := bind_ok h
  obtain ⟨between, hbetween, h⟩ := bind_ok h
  cases h
  exact exists_clashes_iff.1 ⟨between, mapError_ok hbetween⟩

theorem load_of_files (hfiles : featureFiles d folder = .ok names) (hne : names ≠ []) :
    load d folder = (do
      let parts ← names.mapM (contribution d folder)
      let between ← (clashes (parts.filterMap Prod.fst)).mapError .misuse
      return ⟨parts.filterMap Prod.fst, parts.flatMap Prod.snd ++ between⟩) := by
  unfold load
  rw [hfiles]
  simp [Except.mapError, bind, Except.bind, hne]

theorem load_ok_iff_parts (hfiles : featureFiles d folder = .ok names) (hne : names ≠ [])
    {c : Catalog} :
    load d folder = .ok c ↔ ∃ parts between, names.mapM (contribution d folder) = .ok parts ∧
      clashes (parts.filterMap Prod.fst) = .ok between ∧
      c = ⟨parts.filterMap Prod.fst, parts.flatMap Prod.snd ++ between⟩ := by
  rw [load_of_files hfiles hne]
  constructor
  · intro h
    obtain ⟨parts, hparts, h⟩ := bind_ok h
    obtain ⟨between, hbetween, h⟩ := bind_ok h
    cases h
    exact ⟨parts, between, hparts, mapError_ok hbetween, rfl⟩
  · rintro ⟨parts, between, hparts, hbetween, rfl⟩
    rw [hparts]
    simp only [bind, Except.bind, hbetween, Except.mapError]
    rfl

/-- Once the names of the files are known, what a look at the catalog shows can be computed. -/
theorem exists_load_of_parts (hfiles : featureFiles d folder = .ok names) (hne : names ≠ [])
    {α : Type} (look : Catalog → Option α) {a : α}
    (h : ((names.mapM (contribution d folder)).toOption.bind fun parts =>
      (clashes (parts.filterMap Prod.fst)).toOption.bind fun between =>
        look ⟨parts.filterMap Prod.fst, parts.flatMap Prod.snd ++ between⟩) = some a) :
    ∃ c, load d folder = .ok c ∧ look c = some a := by
  simp only [Option.bind_eq_some_iff] at h
  obtain ⟨parts, hparts, between, hbetween, hlook⟩ := h
  exact ⟨_, (load_ok_iff_parts hfiles hne).2
    ⟨parts, between, ok_of_toOption hparts, ok_of_toOption hbetween, rfl⟩, hlook⟩

theorem not_load_of_parts (hfiles : featureFiles d folder = .ok names) (hne : names ≠ [])
    (h : ((names.mapM (contribution d folder)).toOption.bind fun parts =>
      (clashes (parts.filterMap Prod.fst)).toOption).isNone = true) :
    ¬ ∃ c, load d folder = .ok c := by
  rintro ⟨c, hc⟩
  obtain ⟨parts, between, hparts, hbetween, -⟩ := (load_ok_iff_parts hfiles hne).1 hc
  rw [hparts] at h
  simp [Except.toOption, hbetween] at h

theorem exists_load_iff (hfiles : featureFiles d folder = .ok names) (hne : names ≠ []) :
    (∃ c, load d folder = .ok c) ↔ ∀ name ∈ names, Loadable d (folder.child name) := by
  have hfeatures (f : Feature) : f ∈ names.filterMap (fun name => feature? d (folder.child name)) ↔
      ∃ name ∈ names, feature? d (folder.child name) = some f := List.mem_filterMap
  constructor
  · rintro ⟨c, h⟩ name hname
    obtain ⟨parts, between, hparts, hbetween, -⟩ := (load_ok_iff_parts hfiles hne).1 h
    obtain ⟨hread, hspelled⟩ :=
      exists_contribution_iff.1 (exists_mapM_ok_iff.1 ⟨parts, hparts⟩ name hname)
    refine ⟨hread, hspelled, fun f hf => ?_⟩
    rw [features_of_parts hparts] at hbetween
    exact exists_clashes_iff.1 ⟨between, hbetween⟩ f ((hfeatures f).2 ⟨name, hname, hf⟩)
  · intro h
    obtain ⟨parts, hparts⟩ := exists_mapM_ok_iff.2 fun name hname =>
      exists_contribution_iff.2 ⟨(h name hname).read, (h name hname).spelled⟩
    have hkeyed : ∀ f ∈ parts.filterMap Prod.fst, f.IsKeyed := by
      intro f hf
      rw [features_of_parts hparts, hfeatures] at hf
      obtain ⟨name, hname, hf⟩ := hf
      exact (h name hname).keyed f hf
    obtain ⟨between, hbetween⟩ := exists_clashes_iff.2 hkeyed
    exact ⟨_, (load_ok_iff_parts hfiles hne).2 ⟨parts, between, hparts, hbetween, rfl⟩⟩

theorem contribution_congr {d' : Disk}
    (h : d'.readFile (folder.child name) = d.readFile (folder.child name)) :
    contribution d' folder name = contribution d folder name := by
  unfold contribution readFeature
  rw [h]

/-- A file without a feature can be left out: the catalog only loses the problem of that file. -/
theorem load_without {before after : List String} {bad : String} {c : Catalog}
    (hfiles : featureFiles d folder = .ok (before ++ bad :: after)) (h : load d folder = .ok c)
    (hbad : feature? d (folder.child bad) = none) :
    ∃ p front rest, Reports d (folder.child bad) (Disk.stem bad) p ∧
      c.problems = front ++ p :: rest ∧
      ∀ d' : Disk, featureFiles d' folder = .ok (before ++ after) → before ++ after ≠ [] →
        (∀ name ∈ before ++ after, d'.readFile (folder.child name) = d.readFile (folder.child name)) →
        load d' folder = .ok ⟨c.features, front ++ rest⟩ := by
  obtain ⟨parts, between, hparts, hbetween, rfl⟩ := (load_ok_iff_parts hfiles (by simp)).1 h
  rw [List.mapM_append] at hparts
  obtain ⟨front, hfront, hparts⟩ := bind_ok hparts
  obtain ⟨others, hothers, hparts⟩ := bind_ok hparts
  rw [List.mapM_cons] at hothers
  obtain ⟨part, hpart, hothers⟩ := bind_ok hothers
  obtain ⟨rest, hrest, hothers⟩ := bind_ok hothers
  cases hothers
  cases hparts
  obtain ⟨hfeature, hproblem⟩ := contribution_spec hpart
  have hnone : part.1 = none := hfeature.trans hbad
  obtain ⟨p, hp, honly⟩ := hproblem hnone
  have hfeatures :
      (front ++ part :: rest).filterMap Prod.fst = (front ++ rest).filterMap Prod.fst := by
    rw [List.filterMap_append, List.filterMap_cons, hnone, List.filterMap_append]
  refine ⟨p, front.flatMap Prod.snd, rest.flatMap Prod.snd ++ between, hp, ?_, ?_⟩
  · simp [honly]
  · intro d' hfiles' hne hsame
    have hparts' : (before ++ after).mapM (contribution d' folder) = .ok (front ++ rest) := by
      rw [mapM_congr fun name hname => contribution_congr (hsame name hname), List.mapM_append,
        hfront, hrest]
      rfl
    refine (load_ok_iff_parts hfiles' hne).2 ⟨front ++ rest, between, hparts', ?_, ?_⟩
    · rw [← hfeatures]
      exact hbetween
    · simp only [hfeatures, List.flatMap_append, List.append_assoc]

/-- A catalog is loaded exactly if all of its files are loadable. Then it has the feature of every
file that holds one, and a file that holds none adds one problem and changes nothing else: without
the file the catalog is the same, less that problem. -/
theorem load_ok_iff (hfiles : featureFiles d folder = .ok names) (hne : names ≠ []) :
    ((∃ c, load d folder = .ok c) ↔ ∀ name ∈ names, Loadable d (folder.child name)) ∧
    ∀ c, load d folder = .ok c →
      c.features = names.filterMap (fun name => feature? d (folder.child name)) ∧
      ∀ before bad after, names = before ++ bad :: after →
        feature? d (folder.child bad) = none →
        ∃ p front rest, Reports d (folder.child bad) (Disk.stem bad) p ∧
          c.problems = front ++ p :: rest ∧
          ∀ d' : Disk, featureFiles d' folder = .ok (before ++ after) → before ++ after ≠ [] →
            (∀ name ∈ before ++ after,
              d'.readFile (folder.child name) = d.readFile (folder.child name)) →
            load d' folder = .ok ⟨c.features, front ++ rest⟩ := by
  refine ⟨exists_load_iff hfiles hne, fun c hc => ⟨?_, ?_⟩⟩
  · obtain ⟨parts, between, hparts, -, rfl⟩ := (load_ok_iff_parts hfiles hne).1 hc
    exact features_of_parts hparts
  · rintro before bad after rfl hbad
    exact load_without hfiles hc hbad

/-- The file of a feature. -/
def ledFile : ByteArray :=
  "\x7b\"name\": \"Led\", \"class_name\": \"Led\", \"instance_name\": \"led\"\x7d".toUTF8

theorem featureFiles_of_sorted (hnames : d.entryNames folder = .ok names)
    (hjson : ∀ name ∈ names, isFeatureFile name = true)
    (hsorted : names.Pairwise fun a b => a ≤ b) : featureFiles d folder = .ok names := by
  have hfiltered : names.filter isFeatureFile = names := List.filter_eq_self.2 hjson
  have hsame : (names.mergeSort fun a b => a ≤ b) = names :=
    List.mergeSort_of_pairwise (by simpa using hsorted)
  rw [featureFiles, hnames, Except.map, hfiltered, hsame]

/-- A folder with two feature files. -/
def twoFiles (fan led : ByteArray) : Disk :=
  ⟨.folder [("fan.json", .file fan), ("led.json", .file led)], []⟩

theorem featureFiles_twoFiles (fan led : ByteArray) :
    featureFiles (twoFiles fan led) ⟨.root, []⟩ = .ok ["fan.json", "led.json"] :=
  featureFiles_of_sorted rfl (by decide) (by decide)

/-- A file that breaks off costs one problem, and the feature beside it is there. -/
theorem load_ok_beside_fragment :
    ∃ c p, load (twoFiles "\x7b".toUTF8 ledFile) ⟨.root, []⟩ = .ok c ∧
      (∀ name ∈ ["fan.json", "led.json"],
        Loadable (twoFiles "\x7b".toUTF8 ledFile) ⟨.root, [name]⟩) ∧
      c.features.length = 1 ∧ c.problems = [p] ∧
      load ⟨.folder [("led.json", .file ledFile)], []⟩ ⟨.root, []⟩ = .ok ⟨c.features, []⟩ := by
  have hfiles := featureFiles_twoFiles "\x7b".toUTF8 ledFile
  obtain ⟨c, hload, hcounts⟩ := exists_load_of_parts hfiles (by simp)
    (fun c => some (c.features.length, c.problems.length)) (a := (1, 1)) (by decide +kernel)
  obtain ⟨hone, hlength⟩ := Prod.mk.inj (Option.some.inj hcounts)
  obtain ⟨hloadable, hloaded⟩ := load_ok_iff hfiles (by simp)
  obtain ⟨p, front, rest, -, hp, hless⟩ := (hloaded c hload).2 [] "fan.json" ["led.json"] rfl
    (Option.isNone_iff_eq_none.1 (by decide +kernel))
  have hnil : front ++ rest = [] := by
    rw [hp, List.length_append, List.length_cons] at hlength
    rw [← List.length_eq_zero_iff, List.length_append]
    omega
  obtain ⟨rfl, rfl⟩ := List.append_eq_nil_iff.1 hnil
  have halone : featureFiles ⟨.folder [("led.json", .file ledFile)], []⟩ ⟨.root, []⟩ =
      .ok ["led.json"] := featureFiles_of_sorted rfl (by decide) (by decide)
  refine ⟨c, p, hload, hloadable.1 ⟨c, hload⟩, hone, hp, hless _ halone (by simp) ?_⟩
  rintro name hname
  rw [List.mem_singleton.1 hname]
  rfl

/-- Loading ends at a byte that is no UTF-8, at a class name that is a number and at a name that is a
list, though the other file holds a feature. -/
theorem load_stopped :
    (feature? (twoFiles ⟨#[0xff]⟩ ledFile) ⟨.root, ["led.json"]⟩).isSome = true ∧
    (¬ ∃ c, load (twoFiles ⟨#[0xff]⟩ ledFile) ⟨.root, []⟩ = .ok c) ∧
    (¬ ∃ c, load (twoFiles ("\x7b\"name\": \"Fan\", \"class_name\": 1, " ++
      "\"instance_name\": \"fan\"\x7d").toUTF8 ledFile) ⟨.root, []⟩ = .ok c) ∧
    (¬ ∃ c, load (twoFiles ("\x7b\"name\": [], \"class_name\": \"Fan\", " ++
      "\"instance_name\": \"fan\"\x7d").toUTF8 ledFile) ⟨.root, []⟩ = .ok c) := by
  refine ⟨by decide +kernel, ?_, ?_, ?_⟩
  · exact not_load_of_parts (featureFiles_twoFiles _ _) (by simp) (by decide +kernel)
  · exact not_load_of_parts (featureFiles_twoFiles _ _) (by simp) (by decide +kernel)
  · exact not_load_of_parts (featureFiles_twoFiles _ _) (by simp) (by decide +kernel)

end Catalog

end FirmataSketch
