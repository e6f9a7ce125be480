import FirmataSketch.Catalog.Validation
import FirmataSketch.Proofs.Outcome
import FirmataSketch.Proofs.Plan.Resolve
import Mathlib.Data.List.Pairwise

/-! Clashes: which problems the checks between features report. The checks remember the first owner of
an instance and of a capability only, but a feature is reported exactly if it has another name than
that owner, so no clash gets by in any order. -/

namespace FirmataSketch.Catalog

open Outcome (bind_ok)

section Owners

variable {α : Type} [BEq α] [LawfulBEq α] {key : Feature → Option α} {owners : List (α × Value)}
  {f : Feature} {fs : List Feature} {k : α}

/-- The owners after a feature has claimed its key, if it has one. -/
def claimBy (key : Feature → Option α) (f : Feature) (owners : List (α × Value)) :
    List (α × Value) :=
  match key f with
  | none => owners
  | some k => (claim k f.name owners).2

/-- The problem of a feature that claims the key of another name. -/
def reported (key : Feature → Option α) (defect : α → Value → Defect) (owners : List (α × Value))
    (f : Feature) : List Problem :=
  match key f with
  | none => []
  | some k =>
    if equalNames (claim k f.name owners).1 f.name then []
    else [⟨f.name, defect k (claim k f.name owners).1⟩]

/-- The owner of a key once some features have claimed theirs: the one from before, or the first of
the features that has it. -/
def ownerOf? (key : Feature → Option α) (owners : List (α × Value)) (fs : List Feature) (k : α) :
    Option Value :=
  (owners.lookup k).or ((fs.find? fun f => key f == some k).map Feature.name)

/-- Among the features, one has a key that belongs to another name. -/
structure Taken (key : Feature → Option α) (owners : List (α × Value)) (fs : List Feature)
    (f : Feature) (k : α) (owner : Value) : Prop where
  has : key f = some k
  owned : ownerOf? key owners fs k = some owner
  other : equalNames owner f.name = false

omit [LawfulBEq α] in
theorem claim_fst (k : α) (name : Value) (owners : List (α × Value)) :
    (claim k name owners).1 = (owners.lookup k).getD name := by
  unfold claim
  cases owners.lookup k <;> rfl

theorem lookup_claim (k : α) (name : Value) (owners : List (α × Value)) (j : α) :
    (claim k name owners).2.lookup j =
      (owners.lookup j).or (if j == k then some name else none) := by
  unfold claim
  cases hk : owners.lookup k with
  | some owner =>
    by_cases hj : j = k
    · simp [hj, hk]
    · simp [hj]
  | none =>
    have hlast : [(k, name)].lookup j = if j == k then some name else none := by
      rw [List.lookup_cons]
      cases j == k <;> rfl
    rw [List.lookup_append, hlast]

theorem ownerOf?_claimBy (key : Feature → Option α) (owners : List (α × Value)) (f : Feature)
    (fs : List Feature) : ownerOf? key (claimBy key f owners) fs = ownerOf? key owners (f :: fs) := by
  funext j
  unfold ownerOf? claimBy
  rw [List.find?_cons]
  cases hf : key f with
  | none => rfl
  | some k =>
    have hsymm : (some k == some j) = (j == k) := by
      rw [Bool.eq_iff_iff, beq_iff_eq, beq_iff_eq, Option.some.injEq, eq_comm]
    simp only [lookup_claim, Option.or_assoc, hsymm]
    cases j == k <;> rfl

theorem ownerOf?_cons_self (hf : key f = some k) :
    ownerOf? key owners (f :: fs) k = some (claim k f.name owners).1 := by
  have hfound : (f :: fs).find? (fun g => key g == some k) = some f :=
    List.find?_cons_of_pos (by rw [hf, beq_self_eq_true])
  rw [ownerOf?, hfound, claim_fst]
  cases owners.lookup k <;> rfl

theorem taken_claimBy_iff {g : Feature} {owner : Value} :
    Taken key (claimBy key f owners) fs g k owner ↔ Taken key owners (f :: fs) g k owner := by
  constructor
  · rintro ⟨hhas, howned, hother⟩
    exact ⟨hhas, ownerOf?_claimBy key owners f fs ▸ howned, hother⟩
  · rintro ⟨hhas, howned, hother⟩
    exact ⟨hhas, ownerOf?_claimBy key owners f fs ▸ howned, hother⟩

theorem mem_reported_iff (fs : List Feature) {defect : α → Value → Defect} {p : Problem} :
    p ∈ reported key defect owners f ↔
      ∃ k owner, Taken key owners (f :: fs) f k owner ∧ p = ⟨f.name, defect k owner⟩ := by
  unfold reported
  cases hf : key f with
  | none =>
    refine ⟨fun hp => (nomatch hp), ?_⟩
    rintro ⟨k, owner, hk, -⟩
    cases hf.symm.trans hk.has
  | some k =>
    dsimp only
    constructor
    · intro hp
      split at hp
      · cases hp
      next hother =>
        exact ⟨k, _, ⟨hf, ownerOf?_cons_self hf, by simpa using hother⟩, List.mem_singleton.1 hp⟩
    · rintro ⟨j, owner, ⟨hhas, howned, hother⟩, rfl⟩
      obtain rfl := Option.some.inj (hhas.symm.trans hf)
      obtain rfl := Option.some.inj ((ownerOf?_cons_self hf).symm.trans howned)
      rw [if_neg (by simp [hother])]
      exact List.mem_singleton_self _

end Owners

theorem claimInstance_ok {o o' : Owners} {f : Feature} {ps : List Problem}
    (h : o.claimInstance f = .ok (ps, o')) :
    (∃ k, f.instanceName.key? = some k) ∧
      ps = reported (·.instanceName.key?) (fun _ => .takenInstance f.instanceName) o.ofInstance f ∧
      o' = { o with ofInstance := claimBy (·.instanceName.key?) f o.ofInstance } := by
  obtain ⟨k, hk, h⟩ := bind_ok h
  rw [Value.key_eq_ok_iff] at hk
  obtain ⟨hps, ho⟩ := Prod.mk.inj (Except.ok.inj h)
  refine ⟨⟨k, hk⟩, ?_, ?_⟩
  · rw [reported, hk]
    exact hps.symm
  · rw [claimBy, hk]
    exact ho.symm

theorem claimCapability_eq (o : Owners) (f : Feature) :
    o.claimCapability f = (reported Feature.capability .takenCapability o.ofCapability f,
      { o with ofCapability := claimBy Feature.capability f o.ofCapability }) := by
  unfold Owners.claimCapability reported claimBy
  cases f.capability <;> rfl

theorem clashesFrom_cons_ok {o : Owners} {f : Feature} {fs : List Feature} {ps : List Problem}
    (h : clashesFrom o (f :: fs) = .ok ps) :
    (∃ k, f.instanceName.key? = some k) ∧ ∃ rest,
      clashesFrom ⟨claimBy (·.instanceName.key?) f o.ofInstance,
        claimBy Feature.capability f o.ofCapability⟩ fs = .ok rest ∧
      ps = reported (·.instanceName.key?) (fun _ => .takenInstance f.instanceName) o.ofInstance f ++
        reported Feature.capability .takenCapability o.ofCapability f ++ rest := by
  obtain ⟨⟨ofInstance, o₁⟩, hclaim, h⟩ := bind_ok h
  obtain ⟨hkey, rfl, rfl⟩ := claimInstance_ok hclaim
  dsimp only at h
  rw [claimCapability_eq] at h
  obtain ⟨rest, hrest, h⟩ := bind_ok h
  exact ⟨hkey, rest, hrest, (Except.ok.inj h).symm⟩

/-- A feature is reported for its instance, and for its capability, if it is taken. -/
theorem mem_clashesFrom_iff {o : Owners} {fs : List Feature} {ps : List Problem}
    (h : clashesFrom o fs = .ok ps) {p : Problem} :
    p ∈ ps ↔ ∃ f ∈ fs,
      (∃ k owner, Taken (·.instanceName.key?) o.ofInstance fs f k owner ∧
        p = ⟨f.name, .takenInstance f.instanceName owner⟩) ∨
      ∃ a owner, Taken Feature.capability o.ofCapability fs f a owner ∧
        p = ⟨f.name, .takenCapability a owner⟩ := by
  -- a feature that was claimed for counts like one that is still to come
  induction fs generalizing o ps with
  | nil =>
    cases h
    simp
  | cons f fs ih =>
    obtain ⟨-, rest, hrest, rfl⟩ := clashesFrom_cons_ok h
    have hfs := ih hrest
    simp only [taken_claimBy_iff] at hfs
    rw [List.mem_append, List.mem_append, hfs, mem_reported_iff fs, mem_reported_iff fs,
      List.exists_mem_cons_iff]

section Sharing

variable {α : Type} [BEq α] [LawfulBEq α] {key : Feature → Option α} {fs : List Feature}
  {f g : Feature} {k : α}

theorem exists_owner (hf : f ∈ fs) (hk : key f = some k) :
    ∃ first ∈ fs, key first = some k ∧ ownerOf? key [] fs k = some first.name := by
  obtain ⟨first, hfirst⟩ : ∃ first, fs.find? (fun g => key g == some k) = some first := by
    rw [← Option.isSome_iff_exists, List.find?_isSome]
    exact ⟨f, hf, by rw [hk, beq_self_eq_true]⟩
  refine ⟨first, List.mem_of_find?_eq_some hfirst, by simpa using List.find?_some hfirst, ?_⟩
  rw [ownerOf?, hfirst]
  rfl

theorem key_eq_of_equalNames {a b : Value} (h : equalNames a b = true) : a.key? = b.key? := by
  unfold equalNames at h
  split at h
  next j k hj hk =>
    rw [Key.equal, Bool.and_eq_true, beq_iff_eq] at h
    rw [hj, hk, h.1]
  next => cases h

/-- Features with one key have one name, if none of them is reported for it. -/
theorem name_key_eq_of_not_taken (h : ∀ f ∈ fs, ∀ k owner, ¬ Taken key [] fs f k owner)
    (hf : f ∈ fs) (hg : g ∈ fs) (hfk : key f = some k) (hgk : key g = some k) :
    f.name.key? = g.name.key? := by
  obtain ⟨first, -, -, howner⟩ := exists_owner hf hfk
  have hname {e : Feature} (he : e ∈ fs) (hek : key e = some k) :
      first.name.key? = e.name.key? := by
    refine key_eq_of_equalNames ?_
    by_contra hother
    exact h e he k first.name ⟨hek, howner, by simpa using hother⟩
  exact (hname hf hfk).symm.trans (hname hg hgk)

theorem equalNames_texts (s t : String) : equalNames (.text s) (.text t) = (s == t) := by
  have hkeys : Key.equal (.text s) (.text t) = (s == t) := by
    rw [Key.equal, Bool.eq_iff_iff]
    simp
  exact hkeys

/-- Among features whose names are texts, one is reported for a key exactly if two with different names
share it. -/
theorem exists_taken_iff (key : Feature → Option α) (htexts : ∀ f ∈ fs, ∃ s, f.name = .text s) :
    (∃ f ∈ fs, ∃ owner, Taken key [] fs f k owner) ↔
      ∃ f ∈ fs, ∃ g ∈ fs, key f = some k ∧ key g = some k ∧ f.name ≠ g.name := by
  have hequal {f g : Feature} (hf : f ∈ fs) (hg : g ∈ fs) :
      equalNames f.name g.name = false ↔ f.name ≠ g.name := by
    obtain ⟨s, hs⟩ := htexts f hf
    obtain ⟨t, ht⟩ := htexts g hg
    rw [hs, ht, equalNames_texts]
    simp
  constructor
  · rintro ⟨f, hf, owner, hhas, howned, hother⟩
    obtain ⟨first, hfirst, hkey, howner⟩ := exists_owner hf hhas
    obtain rfl := Option.some.inj (howner.symm.trans howned)
    exact ⟨first, hfirst, f, hf, hkey, hhas, (hequal hfirst hf).1 hother⟩
  · rintro ⟨f, hf, g, hg, hfk, hgk, hne⟩
    obtain ⟨first, hfirst, -, howner⟩ := exists_owner hf hfk
    -- the first owner cannot have both names
    by_cases hsame : first.name = f.name
    · exact ⟨g, hg, first.name, hgk, howner, (hequal hfirst hg).2 (hsame ▸ hne)⟩
    · exact ⟨f, hf, first.name, hfk, howner, (hequal hfirst hf).2 hsame⟩

/-- If the names are different texts, no feature is reported exactly if no two of them share a key. -/
theorem not_taken_iff (key : Feature → Option α) (htexts : ∀ f ∈ fs, ∃ s, f.name = .text s)
    (hnames : (fs.map Feature.name).Nodup) :
    (∀ f ∈ fs, ∀ k owner, ¬ Taken key [] fs f k owner) ↔ (fs.filterMap key).Nodup := by
  have hshared : (∀ f ∈ fs, ∀ k owner, ¬ Taken key [] fs f k owner) ↔
      ∀ f ∈ fs, ∀ g ∈ fs, ∀ k, key f = some k → key g = some k → f.name = g.name := by
    constructor
    · intro h f hf g hg k hfk hgk
      by_contra hne
      obtain ⟨e, he, owner, htaken⟩ := (exists_taken_iff key htexts).2 ⟨f, hf, g, hg, hfk, hgk, hne⟩
      exact h e he k owner htaken
    · intro h e he k owner htaken
      obtain ⟨f, hf, g, hg, hfk, hgk, hne⟩ := (exists_taken_iff key htexts).1 ⟨e, he, owner, htaken⟩
      exact hne (h f hf g hg k hfk hgk)
  rw [hshared, List.Nodup, List.pairwise_filterMap]
  constructor
  · intro h
    refine (List.pairwise_map.1 hnames).imp_of_mem fun hf hg hne j hfj k hgk hjk => ?_
    exact hne (h _ hf _ hg k (hjk ▸ hfj) hgk)
  · intro h f hf g hg k hfk hgk
    by_contra hne
    have hsymm : Std.Symm fun f g : Feature => ∀ j, key f = some j → ∀ k, key g = some k → j ≠ k :=
      ⟨fun _ _ hfg k hg j hf => (hfg j hf k hg).symm⟩
    exact h.forall hf hg (fun heq => hne (heq ▸ rfl)) k hfk k hgk rfl

end Sharing

end FirmataSketch.Catalog
