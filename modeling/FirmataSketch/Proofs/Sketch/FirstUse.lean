import FirmataSketch.Proofs.Sketch.Libraries

/-! First uses: the header of a library stands with the first feature that needs it, unless it was
included before. What an include pass writes and remembers can be told from the features and from what
was included at first, so a pass can be cut in two anywhere. -/

namespace FirmataSketch

/-- The elements of a list, each with those before it. -/
def withEarlier {α : Type} (xs : List α) : List (List α × α) := xs.inits.zip xs

theorem withEarlier_cons {α : Type} (x : α) (xs : List α) :
    withEarlier (x :: xs) = ([], x) :: (withEarlier xs).map fun e => (x :: e.1, e.2) := by
  rw [withEarlier, List.inits, List.zip_cons_cons, List.zip_map_left]
  rfl

/-- Values that cannot be told apart as the class names of included headers. -/
def Value.SameKeys (vs ws : List Value) : Prop := ∀ k : Key, k.isAmong vs = k.isAmong ws

theorem Key.isAmong_append (k : Key) (vs ws : List Value) :
    k.isAmong (vs ++ ws) = (k.isAmong vs || k.isAmong ws) := List.any_append

namespace Value.SameKeys

variable {vs ws : List Value} {v : Value} {k : Key}

theorem cons (h : SameKeys vs ws) (v : Value) : SameKeys (v :: vs) (ws ++ [v]) := by
  intro k
  have hcons : k.isAmong (v :: vs) = (k.isAmong [v] || k.isAmong vs) := Key.isAmong_append k [v] vs
  rw [hcons, h k, Key.isAmong_append, Bool.or_comm]

theorem cons_self (hv : v.key? = some k) (hk : k.isAmong vs = true) : SameKeys vs (v :: vs) := by
  intro j
  rw [Bool.eq_iff_iff, Plan.isAmong_cons, hv, Option.some.injEq]
  exact ⟨.inr, fun hj => hj.elim (fun e => e ▸ hk) id⟩

end Value.SameKeys

namespace Plan

open Sketch
open Value (SameKeys)

variable {now included last : List Value} {earlier ds : List Dependency} {d : Dependency}
  {fs : List Feature}

/-- The class name of a dependency is neither among the included ones nor that of an earlier
dependency. -/
def isNew (included : List Value) (earlier : List Dependency) (d : Dependency) : Bool :=
  (included ++ earlier.map Dependency.className).all fun v => v.key? != d.className.key?

/-- The dependencies whose class names are new where they stand. -/
def firstUses (included : List Value) (earlier ds : List Dependency) : List Dependency :=
  ((withEarlier ds).filter fun e => isNew included (earlier ++ e.1) e.2).map Prod.snd

/-- The features, each with the dependencies that it is the first to use. -/
def users (included : List Value) (earlier : List Dependency) (fs : List Feature) :
    List (Feature × List Dependency) :=
  (withEarlier fs).map fun e =>
    (e.2, firstUses included (earlier ++ e.1.flatMap Feature.dependencies) e.2.dependencies)

/-- The block of an include pass that puts the given dependencies with the features. -/
def passBlock (users : List (Feature × List Dependency)) : Block :=
  users.flatMap (fun u => featureBlock u.1 u.2) ++ registryBlock

theorem firstUses_cons (included : List Value) (earlier : List Dependency) (d : Dependency)
    (ds : List Dependency) :
    firstUses included earlier (d :: ds) =
      (if isNew included earlier d then [d] else []) ++
        firstUses included (earlier ++ [d]) ds := by
  have htail : ((withEarlier ds).map fun e => (d :: e.1, e.2)).filter
      (fun e => isNew included (earlier ++ e.1) e.2) =
      ((withEarlier ds).filter fun e => isNew included (earlier ++ [d] ++ e.1) e.2).map
        fun e => (d :: e.1, e.2) := by
    rw [List.filter_map]
    simp only [Function.comp_def, List.append_assoc, List.singleton_append]
  rw [firstUses, withEarlier_cons, List.filter_cons, htail, List.append_nil, firstUses]
  split <;> simp [Function.comp_def]

theorem users_cons (included : List Value) (earlier : List Dependency) (f : Feature)
    (fs : List Feature) :
    users included earlier (f :: fs) =
      (f, firstUses included earlier f.dependencies) ::
        users included (earlier ++ f.dependencies) fs := by
  simp [users, withEarlier_cons, List.append_assoc]

theorem firstUses_append (included : List Value) (earlier ds es : List Dependency) :
    firstUses included earlier (ds ++ es) =
      firstUses included earlier ds ++ firstUses included (earlier ++ ds) es := by
  induction ds generalizing earlier with
  | nil => rw [List.append_nil]; rfl
  | cons d ds ih =>
    rw [List.cons_append, firstUses_cons, firstUses_cons, ih]
    simp only [List.append_assoc, List.singleton_append]

theorem users_append (included : List Value) (earlier : List Dependency) (fs gs : List Feature) :
    users included earlier (fs ++ gs) =
      users included earlier fs ++ users included (earlier ++ fs.flatMap Feature.dependencies) gs := by
  induction fs generalizing earlier with
  | nil => rw [List.flatMap_nil, List.append_nil]; rfl
  | cons f fs ih =>
    rw [List.cons_append, users_cons, users_cons, ih, List.flatMap_cons, List.append_assoc,
      List.cons_append]

theorem mem_firstUses_of_isNew {es : List Dependency} (h : isNew included (earlier ++ ds) d = true) :
    d ∈ firstUses included earlier (ds ++ d :: es) := by
  rw [firstUses_append, firstUses_cons, if_pos h]
  exact List.mem_append_right _ (List.mem_append_left _ (List.mem_singleton_self d))

/-- Together the features use first what is first used in all of their dependencies. -/
theorem flatMap_users (included : List Value) (earlier : List Dependency) (fs : List Feature) :
    (users included earlier fs).flatMap Prod.snd =
      firstUses included earlier (fs.flatMap Feature.dependencies) := by
  induction fs generalizing earlier with
  | nil => rfl
  | cons f fs ih => rw [users_cons, List.flatMap_cons, ih, List.flatMap_cons, firstUses_append]

theorem isNew_eq {k : Key} (hk : d.className.key? = some k) :
    isNew included earlier d = !k.isAmong (included ++ earlier.map Dependency.className) := by
  rw [isNew, Key.isAmong, hk, List.not_any_eq_all_not]
  rfl

theorem sameKeys_start (included : List Value) :
    SameKeys included (included ++ ([] : List Dependency).map Dependency.className) :=
  fun k => by rw [List.map_nil, List.append_nil]

/-- A pass over dependencies includes their first uses. It remembers what was included at first and
all that was declared since then. -/
theorem freshDependencies_firstUses
    (hnow : SameKeys now (included ++ earlier.map Dependency.className))
    (hds : ∀ d ∈ ds, ∃ k, d.className.key = .ok k) :
    ∃ last, freshDependencies now ds = (.ok (firstUses included earlier ds), last) ∧
      SameKeys last (included ++ (earlier ++ ds).map Dependency.className) ∧ now <:+ last := by
  induction ds generalizing now earlier with
  | nil => exact ⟨now, rfl, by rwa [List.append_nil], List.suffix_refl now⟩
  | cons d ds ih =>
    obtain ⟨⟨k, hk⟩, hds⟩ := List.forall_mem_cons.1 hds
    have hkey := Value.key_eq_ok_iff.1 hk
    have hnew : isNew included earlier d = !k.isAmong now := by rw [isNew_eq hkey, hnow k]
    have happend : earlier ++ d :: ds = earlier ++ [d] ++ ds := by simp
    have hnext : SameKeys (d.className :: now)
        (included ++ (earlier ++ [d]).map Dependency.className) := by
      rw [List.map_append, ← List.append_assoc]
      exact hnow.cons d.className
    simp only [freshDependencies, hk, firstUses_cons, hnew, happend]
    cases hamong : k.isAmong now with
    | true =>
      -- nothing is added for a class name that is there already
      exact ih (fun j => (SameKeys.cons_self hkey hamong j).trans (hnext j)) hds
    | false =>
      obtain ⟨last, hlast, hkeys, hsuffix⟩ := ih hnext hds
      refine ⟨last, ?_, hkeys, (List.suffix_cons _ _).trans hsuffix⟩
      rw [hlast]
      rfl

theorem featureBlocks_users
    (hnow : SameKeys now (included ++ earlier.map Dependency.className))
    (hfs : ∀ f ∈ fs, f.Includable) :
    ∃ last, featureBlocks now fs =
        (.ok ((users included earlier fs).flatMap fun u => featureBlock u.1 u.2), last) ∧
      SameKeys last
        (included ++ (earlier ++ fs.flatMap Feature.dependencies).map Dependency.className) ∧
      now <:+ last := by
  induction fs generalizing now earlier with
  | nil =>
    refine ⟨now, rfl, ?_, List.suffix_refl now⟩
    rwa [List.flatMap_nil, List.append_nil]
  | cons f fs ih =>
    obtain ⟨hf, hfs⟩ := List.forall_mem_cons.1 hfs
    obtain ⟨middle, hmiddle, hkeys, hgrows⟩ := freshDependencies_firstUses hnow hf
    obtain ⟨last, hlast, hkeys', hgrows'⟩ := ih hkeys hfs
    refine ⟨last, ?_, ?_, hgrows.trans hgrows'⟩
    · rw [featureBlocks, hmiddle, users_cons]
      simp only [hlast]
      rfl
    · rwa [List.flatMap_cons, ← List.append_assoc]

theorem includes_users {p : Plan} (h : ∀ f ∈ p.features, f.Includable) :
    ∃ last, p.includes = (.ok (passBlock (users p.included [] p.features)),
        { p with included := last }) ∧
      SameKeys last
        (p.included ++ (p.features.flatMap Feature.dependencies).map Dependency.className) ∧
      p.included <:+ last := by
  obtain ⟨last, hlast, hkeys, hgrows⟩ := featureBlocks_users (sameKeys_start p.included) h
  refine ⟨last, ?_, hkeys, hgrows⟩
  rw [includes, hlast]
  rfl

theorem lines_passBlock (users : List (Feature × List Dependency)) :
    (passBlock users).lines =
      users.flatMap (fun u => u.2.map (fun d => "#include <" ++ d.header ++ ">") ++
        ["#include <" ++ u.1.header ++ ">", u.1.classText ++ " " ++ u.1.instanceText ++ ";", ""]) ++
      ["#include <utility/FirmataExt.h>", "FirmataExt firmataExt;", ""] := by
  have hfeatures : Block.lines (users.flatMap fun u => featureBlock u.1 u.2) =
      users.flatMap fun u => (featureBlock u.1 u.2).lines := List.flatMap_assoc
  have hregistry : registryBlock.lines =
      ["#include <utility/FirmataExt.h>", "FirmataExt firmataExt;", ""] := by decide
  rw [passBlock, Block.lines_append, hfeatures, hregistry]
  simp only [lines_featureBlock]

/-- The features of a plan, cut in two: the first part and then, from what it included, the second
part write what the whole writes, but for the registry between them. -/
theorem includes_append {p : Plan} {xs ys : List Feature} (hp : p.features = xs ++ ys)
    (h : ∀ f ∈ p.features, f.Includable) :
    ∃ first q rest r, { p with features := xs }.includes = (.ok (first ++ registryBlock), q) ∧
      { q with features := ys }.includes = (.ok rest, r) ∧
      p.includes = (.ok (first ++ rest), { r with features := p.features }) := by
  obtain ⟨blocks, last, hblocks⟩ := featureBlocks_total h p.included
  rw [hp] at hblocks
  obtain ⟨first, middle, rest, hfirst, hrest, rfl⟩ := featureBlocks_append hblocks
  refine ⟨first, { p with features := xs, included := middle }, rest ++ registryBlock,
    { p with features := ys, included := last }, ?_, ?_, ?_⟩
  · rw [includes, hfirst]
    rfl
  · rw [includes, hrest]
    rfl
  · rw [includes, hp, hblocks, ← List.append_assoc]
    rfl

/-- An include pass puts the header of a library with the first feature that uses it: for each feature
the headers of the dependencies whose class names are new where they stand, then its own header and its
instance. The plan remembers what was included at first and all dependencies. A pass over more features
goes on where a pass over fewer ends. -/
theorem includes_at_first_use (p : Plan) (h : ∀ f ∈ p.features, f.Includable) :
    ∃ b last, p.includes = (.ok b, { p with included := last }) ∧
      b.text = Text.unlines
        ((withEarlier p.features).flatMap (fun e =>
          (firstUses p.included (e.1.flatMap Feature.dependencies) e.2.dependencies).map
            (fun d => "#include <" ++ d.header ++ ">") ++
          ["#include <" ++ e.2.header ++ ">", e.2.classText ++ " " ++ e.2.instanceText ++ ";", ""]) ++
        ["#include <utility/FirmataExt.h>", "FirmataExt firmataExt;", ""]) ∧
      SameKeys last
        (p.included ++ (p.features.flatMap Feature.dependencies).map Dependency.className) ∧
      ∀ xs ys, p.features = xs ++ ys →
        ∃ first q rest r, { p with features := xs }.includes = (.ok (first ++ registryBlock), q) ∧
          { q with features := ys }.includes = (.ok rest, r) ∧
          b.text = first.text ++ rest.text ∧ r.included = last := by
  obtain ⟨last, hincludes, hkeys, -⟩ := includes_users h
  refine ⟨_, last, hincludes, ?_, hkeys, fun xs ys hp => ?_⟩
  · rw [Block.text, lines_passBlock, users, List.flatMap_map]
    simp only [List.nil_append]
  · obtain ⟨first, q, rest, r, hfirst, hrest, hall⟩ := includes_append hp h
    rw [hincludes, Prod.mk.injEq, Except.ok.injEq] at hall
    refine ⟨first, q, rest, r, hfirst, hrest, ?_, ?_⟩
    · rw [hall.1, Block.text, Block.lines_append, Text.unlines_append]
      rfl
    · exact (congrArg Plan.included hall.2).symm

/-- A fan that needs a library by two paths and one that is included already, and a lamp. -/
def fanAndLamp : Plan where
  features :=
    [{ name := .text "Fan", path := .text "", className := .text "Fan", instanceName := .text "fan",
       reporting := false, update := false, capability := none,
       dependencies := [⟨.text "", .text "Wire"⟩, ⟨.text "", .text "Servo"⟩, ⟨.text "old/", .text "Wire"⟩],
       description := .text "", source := "fan.json" },
     { name := .text "Lamp", path := .text "", className := .text "Lamp", instanceName := .text "lamp",
       reporting := false, update := false, capability := none,
       dependencies := [⟨.text "", .text "Wire"⟩, ⟨.text "", .text "SPI"⟩],
       description := .text "", source := "lamp.json" }]
  included := [.text "Servo"]

theorem includable_fanAndLamp : ∀ f ∈ fanAndLamp.features, f.Includable := by
  simp [fanAndLamp, Feature.Includable, Value.key_eq_ok_iff, Value.key?]

theorem includes_fanAndLamp :
    (∀ f ∈ fanAndLamp.features, f.Includable) ∧
      ∃ b last, fanAndLamp.includes = (.ok b, { fanAndLamp with included := last }) ∧
        b.text = "#include <Wire.h>\n#include <Fan.h>\nFan fan;\n\n#include <SPI.h>\n" ++
          "#include <Lamp.h>\nLamp lamp;\n\n#include <utility/FirmataExt.h>\n" ++
          "FirmataExt firmataExt;\n\n" ∧
        ∀ k : Key, k.isAmong last = k.isAmong [.text "Servo", .text "Wire", .text "SPI"] := by
  obtain ⟨b, last, hincludes, htext, hkeys, -⟩ :=
    includes_at_first_use fanAndLamp includable_fanAndLamp
  refine ⟨includable_fanAndLamp, b, last, hincludes, ?_, fun k => ?_⟩
  · rw [htext]
    decide
  · rw [hkeys, Bool.eq_iff_iff]
    simp [fanAndLamp, Key.isAmong, Value.key?]
    tauto

end Plan

end FirmataSketch
