import FirmataSketch.Proofs.Catalog.Uniqueness
import FirmataSketch.Proofs.Sketch.Declaration
import FirmataSketch.Proofs.Text.Word

/-! Globals: when the instances that a sketch declares have different names. A catalog without
problems keeps the features apart from each other, but not from the instances that every sketch
declares for itself, and not from names that only a line end tells apart. -/

namespace FirmataSketch

open Disk (PathName)
open Outcome (ok_of_toOption)

namespace Catalog.Sound

variable {c : Catalog} {index : Index} {names : List Value} {p : Plan}

theorem exists_index (h : c.Sound) : ∃ index, c.index = .ok index := Index.ofFeatures_ok h.keyed

theorem mem_of_resolve (hindex : c.index = .ok index) (hp : Plan.resolve index names = .ok p) :
    ∀ f ∈ p.features, f ∈ c.features := by
  intro f hf
  obtain ⟨name, -, hfound⟩ := (Plan.mem_features_of_resolve hp f).1 hf
  exact (Index.Finds.mem hindex hfound).1

theorem names_of_resolve (hindex : c.index = .ok index) (hp : Plan.resolve index names = .ok p) :
    p.features.map (fun f => f.name.key?) = names.map Value.key? := by
  have hfound := Plan.resolve_finds hp
  -- only the names and what was found under them matter from here on
  generalize p.features = fs at hfound
  clear hp
  induction hfound with
  | nil => rfl
  | cons hf _ ih => rw [List.map_cons, List.map_cons, ih, (Index.Finds.mem hindex hf).2]

theorem keys_of_resolve (hindex : c.index = .ok index) (hp : Plan.resolve index names = .ok p) :
    (p.features.map fun f => f.name.key?).Nodup := by
  rw [names_of_resolve hindex hp]
  exact Plan.resolve_nodup hp

theorem words_of_resolve (h : c.Sound) (hindex : c.index = .ok index)
    (hp : Plan.resolve index names = .ok p) :
    ∀ f ∈ p.features, Text.acceptsWord f.instanceText = true := by
  intro f hf
  obtain ⟨x, hx, hword⟩ := h.named f (mem_of_resolve hindex hp f hf)
  rw [Feature.instanceText, hx]
  exact hword

theorem instances_nodup (h : c.Sound) (hindex : c.index = .ok index)
    (hp : Plan.resolve index names = .ok p) : (p.features.map Feature.instanceText).Nodup := by
  have hkeys := keys_of_resolve hindex hp
  have hmem := mem_of_resolve hindex hp
  unfold List.Nodup at hkeys ⊢
  rw [List.pairwise_map] at hkeys ⊢
  -- one instance would mean one name, but the names of a selection are different
  refine hkeys.imp_of_mem fun {f g} hf hg hne hsame => hne ?_
  obtain ⟨s, hs, -⟩ := h.named f (hmem f hf)
  obtain ⟨t, ht, -⟩ := h.named g (hmem g hg)
  refine h.own f (hmem f hf) g (hmem g hg) ?_
  rw [Feature.instanceText, Feature.instanceText, hs, ht] at hsame
  have hst : s = t := hsame
  rw [hs, ht, hst]

end Catalog.Sound

open Sketch (registry reporting)

theorem nodup_globals_iff (names : List String) (reports : Bool) :
    (names ++ [registry] ++ if reports then [reporting] else []).Nodup ↔
      names.Nodup ∧ registry ∉ names ∧ (reports = true → reporting ∉ names) := by
  have hne : registry ≠ reporting := by decide
  have hregistry : (names ++ [registry]).Nodup ↔ names.Nodup ∧ registry ∉ names := by
    rw [List.nodup_append_comm, List.singleton_append, List.nodup_cons, and_comm]
  cases reports with
  | false => simpa using hregistry
  | true =>
    rw [if_pos rfl, List.nodup_append_comm, List.singleton_append, List.nodup_cons, hregistry,
      List.mem_append, List.mem_singleton, not_or]
    exact ⟨fun ⟨⟨hr, _⟩, hn, hx⟩ => ⟨hn, hx, fun _ => hr⟩,
      fun ⟨hn, hx, hr⟩ => ⟨⟨hr rfl, hne.symm⟩, hn, hx⟩⟩

/-- The features that are selected from a catalog without problems have instances of their own.
What a sketch declares may still clash: if a feature has the name of the registry, or that of the
reporting instance where there is one, and in the code also if a line end makes the difference. -/
theorem Catalog.declared_nodup_iff {disk : Disk} {folder : PathName} {c : Catalog}
    (h : load disk folder = .ok c) (hok : c.isOk = true) :
    ∃ index, c.index = .ok index ∧
      ∀ (d : Draft) (clock : Clock) (time : Option Clock.Time) (s : Sketch),
        (d.sketch index clock time).result = .ok s →
        ∃ fs, List.Forall₂ index.Finds d.features fs ∧ (fs.map Feature.instanceText).Nodup ∧
          (s.head.declared.Nodup ↔ registry ∉ fs.map Feature.instanceText ∧
            (fs.any (·.reporting) = true → reporting ∉ fs.map Feature.instanceText)) ∧
          ((s.head.declared.map Text.bare).Nodup ↔
            (∀ f ∈ fs, ∀ g ∈ fs, f.instanceText ≠ g.instanceText ++ "\n") ∧
            registry ∉ fs.map (Text.bare ∘ Feature.instanceText) ∧
            (fs.any (·.reporting) = true →
              reporting ∉ fs.map (Text.bare ∘ Feature.instanceText))) := by
  have hsound := load_sound h hok
  obtain ⟨index, hindex⟩ := hsound.exists_index
  refine ⟨index, hindex, fun d clock time s hs => ?_⟩
  obtain ⟨p, m, hp, -, hof⟩ := Draft.sketch_ok hs
  have hnodup := hsound.instances_nodup hindex hp
  have hdeclared : s.head.declared = p.features.map Feature.instanceText ++ [registry] ++
      if p.features.any (·.reporting) then [reporting] else [] := by
    rw [hof.declared_head, Plan.instances, (Plan.resolve_consistent hp).any_reporting]
  have hwords : ∀ x ∈ p.features.map Feature.instanceText, Text.acceptsWord x = true := by
    rw [List.forall_mem_map]
    intro f hf
    obtain ⟨x, hx, hword⟩ := hsound.named f (Sound.mem_of_resolve hindex hp f hf)
    rw [Feature.instanceText, hx]
    exact hword
  refine ⟨p.features, Plan.resolve_finds hp, hnodup, ?_, ?_⟩
  · rw [hdeclared, nodup_globals_iff]
    exact and_iff_right hnodup
  · have hbare : s.head.declared.map Text.bare =
        p.features.map (Text.bare ∘ Feature.instanceText) ++ [registry] ++
          if p.features.any (·.reporting) then [reporting] else [] := by
      have hregistry : Text.bare registry = registry := Text.bare_of_word (by decide)
      have hreporting : Text.bare reporting = reporting := Text.bare_of_word (by decide)
      rw [hdeclared]
      cases p.features.any (·.reporting) <;> simp [hregistry, hreporting]
    have hclash := Text.bare_nodup_iff hwords hnodup
    rw [List.map_map, List.forall_mem_map] at hclash
    simp only [List.forall_mem_map] at hclash
    rw [hbare, nodup_globals_iff, hclash]

/-- A catalog of one feature whose instance is called like the registry. -/
def Catalog.clashing : Disk :=
  ⟨.folder [("led.json", .file
    "\x7b\"name\": \"Led\", \"class_name\": \"Led\", \"instance_name\": \"firmataExt\"\x7d".toUTF8)],
    []⟩

/-- No problem is found, and the sketch declares one name twice. -/
theorem Catalog.declared_twice :
    ∃ c index s, load clashing ⟨.root, []⟩ = .ok c ∧ c.isOk = true ∧ c.index = .ok index ∧
      (Draft.sketch ⟨.text "Lamp", some (.int 57600), [.text "Led"]⟩ index
        ⟨.moment .epoch, .utc⟩ none).result = .ok s ∧ ¬ s.head.declared.Nodup := by
  have hrun : (load clashing ⟨.root, []⟩).toOption.bind (fun c => c.index.toOption.bind fun index =>
      (index.get? (.text "Led")).bind fun f =>
        (Draft.sketch ⟨.text "Lamp", some (.int 57600), [.text "Led"]⟩ index
          ⟨.moment .epoch, .utc⟩ none).result.toOption.map fun _ => (c.isOk, f.instanceText)) =
      some (true, "firmataExt") := by decide +kernel
  simp only [Option.bind_eq_some_iff, Option.map_eq_some_iff, Prod.mk.injEq] at hrun
  obtain ⟨c, hc, index, hindex, f, hf, s, hs, hok, hname⟩ := hrun
  have hc := ok_of_toOption hc
  have hindex := ok_of_toOption hindex
  have hs := ok_of_toOption hs
  obtain ⟨index', hindex', hdeclared⟩ := declared_nodup_iff hc hok
  rw [hindex, Except.ok.injEq] at hindex'
  subst hindex'
  obtain ⟨fs, hfs, -, hiff, -⟩ := hdeclared _ _ _ s hs
  have hfs' : fs = [f] := index.finds_unique.forall₂ hfs (.cons ⟨_, rfl, hf⟩ .nil)
  subst hfs'
  have hclash : registry ∈ [f].map Feature.instanceText := by
    rw [List.map_singleton, hname]
    decide
  exact ⟨c, index, s, hc, hok, hindex, hs, fun hnodup => (hiff.1 hnodup).1 hclash⟩

end FirmataSketch
