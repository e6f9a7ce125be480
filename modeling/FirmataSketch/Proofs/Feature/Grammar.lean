import FirmataSketch.Proofs.Catalog.Accounting
import Mathlib.Order.Bounds.Basic
import Mathlib.Order.WellFounded

/-! The grammar of features: a value is read as one exactly if it is recorded as one. Otherwise the first
flaw, in the order in which the parts are read, is what its reading fails with. A feature file with such
a value adds that to the problems of its catalog. -/

namespace FirmataSketch

open Outcome (bind_ok exists_error mapM_of_first exists_mapM_ok_iff)
open Value (fieldOr has_record fieldOr_of_has has_fieldOr forall_has_iff)

theorem requiredField_ok_iff {fields : List (String × Value)} {name : String} {w : Value} :
    requiredField fields name = .ok w ↔ fields.lookup name = some w := by
  rw [requiredField]
  cases fields.lookup name <;> simp

/-- The dependency is what a value stands for: its class name is that of the value, and so is its path,
which may be missing. -/
structure Dependency.IsOf (d : Dependency) (v : Value) : Prop where
  className : v.Has "class_name" d.className
  path : ∀ fields, v = .record fields → d.path = fieldOr fields "path" (.text "")

theorem Dependency.ofValue_ok_iff {v : Value} {d : Dependency} : ofValue v = .ok d ↔ d.IsOf v := by
  constructor
  · intro h
    cases v with
    | record fields =>
      obtain ⟨className, hclass, h⟩ := bind_ok h
      cases h
      refine ⟨has_record.2 (requiredField_ok_iff.1 hclass), fun fields hfields => ?_⟩
      cases hfields
      rfl
    | _ => cases h
  · rintro ⟨⟨fields, rfl, hclass⟩, hpath⟩
    rw [ofValue, requiredField_ok_iff.2 hclass, ← hpath fields rfl]
    rfl

theorem Dependency.exists_ofValue_iff {v : Value} :
    (∃ d, ofValue v = .ok d) ↔ ∃ className, v.Has "class_name" className := by
  simp only [ofValue_ok_iff]
  constructor
  · rintro ⟨d, hd⟩
    exact ⟨d.className, hd.className⟩
  · rintro ⟨className, fields, rfl, hclass⟩
    refine ⟨⟨fieldOr fields "path" (.text ""), className⟩, has_record.2 hclass, fun inner hinner => ?_⟩
    cases hinner
    rfl

theorem Dependency.ofValue_error_iff {v : Value} {m : Misuse} : ofValue v = .error m ↔
    (∀ fields, v ≠ .record fields) ∧ m = .optionalFieldOf v.kind ∨
      ∃ fields, v = .record fields ∧ fields.lookup "class_name" = none ∧
        m = .missingField "class_name" := by
  constructor
  · intro h
    cases v with
    | record fields =>
      rw [ofValue, requiredField] at h
      cases hclass : fields.lookup "class_name" with
      | none =>
        rw [hclass] at h
        cases h
        exact .inr ⟨fields, rfl, hclass, rfl⟩
      | some className =>
        rw [hclass] at h
        cases h
    | _ =>
      cases h
      exact .inl ⟨fun _ h => (nomatch h), rfl⟩
  · rintro (⟨h, rfl⟩ | ⟨fields, rfl, hclass, rfl⟩)
    · cases v with
      | record fields => exact absurd rfl (h fields)
      | _ => rfl
    · rw [ofValue, requiredField, hclass]
      rfl

theorem Capability.ofName?_eq_some {s : String} {c : Capability} (h : ofName? s = some c) :
    s = c.name := by
  have hname := List.find?_some h
  exact (beq_iff_eq.1 hname).symm

theorem Capability.ofValue_ok_iff {v : Value} {capability : Option Capability} :
    ofValue v = .ok capability ↔ v = toValue capability := by
  constructor
  · intro h
    cases v with
    | null =>
      cases h
      rfl
    | text s =>
      simp only [ofValue] at h
      split at h
      next c hc =>
        cases h
        exact congrArg Value.text (ofName?_eq_some hc)
      next => cases h
    | _ => cases h
  · rintro rfl
    exact ofValue_toValue capability

theorem Capability.toValue_injective : Function.Injective toValue := fun a b h =>
  Except.ok.inj ((ofValue_toValue a).symm.trans (h ▸ ofValue_toValue b))

theorem Capability.exists_ofValue_iff {v : Value} :
    (∃ capability, ofValue v = .ok capability) ↔ v = .null ∨ ∃ c : Capability, v = .text c.name := by
  simp only [ofValue_ok_iff]
  constructor
  · rintro ⟨capability, rfl⟩
    cases capability with
    | none => exact .inl rfl
    | some c => exact .inr ⟨c, rfl⟩
  · rintro (rfl | ⟨c, rfl⟩)
    · exact ⟨none, rfl⟩
    · exact ⟨some c, rfl⟩

theorem Capability.ofValue_error {v : Value} {m : Misuse} (h : ofValue v = .error m) :
    m = .notCapability v := by
  cases v with
  | null => cases h
  | text s =>
    simp only [ofValue] at h
    split at h
    · cases h
    · cases h
      rfl
  | _ =>
    cases h
    rfl

namespace Feature

variable {source : String} {v w : Value} {fields : List (String × Value)} {m : Misuse}

/-- A record that a feature can be read from. -/
structure IsRecorded (v : Value) : Prop where
  name : ∃ w, v.Has "name" w
  className : ∃ w, v.Has "class_name" w
  instanceName : ∃ w, v.Has "instance_name" w
  capability : ∀ w, v.Has "capability" w → w = .null ∨ ∃ c : Capability, w = .text c.name
  dependencies : ∀ w, v.Has "system_dependencies" w → w = .text "" ∨ w = .record [] ∨
    ∃ items, w = .list items ∧ ∀ item ∈ items, ∃ className, item.Has "class_name" className

/-- The parts of the value that a feature is read from, in the order in which they are read. -/
inductive Part where
  | name
  | className
  | instanceName
  | capability
  | dependencies
  | dependency (index : Nat)
  deriving DecidableEq, Repr

namespace Part

def rank : Part → Nat
  | name => 0
  | className => 1
  | instanceName => 2
  | capability => 3
  | dependencies => 4
  | dependency index => 5 + index

/-- The name of the field of a part that has to be there. -/
def required? : Part → Option String
  | name => some "name"
  | className => some "class_name"
  | instanceName => some "instance_name"
  | _ => none

theorem rank_injective : Function.Injective rank := by
  intro a b h
  cases a <;> cases b <;> simp only [rank] at h <;> first | rfl | omega | (congr 1; omega)

instance : LinearOrder Part := LinearOrder.lift' rank rank_injective

instance : WellFoundedLT Part := ⟨InvImage.wf rank Nat.lt_wfRel.wf⟩

end Part

/-- What is wrong with a part of the value that a feature is read from. The characters of a text and the
field names of a record stand for dependencies as the items of a list do. -/
inductive Flaw (v : Value) : Part → Misuse → Prop
  | noRecord (h : ∀ fields, v ≠ .record fields) : Flaw v .name (.fieldOf v.kind)
  | missing {fields : List (String × Value)} {part : Part} {field : String} (hv : v = .record fields)
      (hpart : part.required? = some field) (h : fields.lookup field = none) :
      Flaw v part (.missingField field)
  | capability {w : Value} (hw : v.Has "capability" w) (hnull : w ≠ .null)
      (h : ∀ c : Capability, w ≠ .text c.name) : Flaw v .capability (.notCapability w)
  | noElements {w : Value} (hw : v.Has "system_dependencies" w) (htext : ∀ s, w ≠ .text s)
      (hlist : ∀ items, w ≠ .list items) (hrecord : ∀ inner, w ≠ .record inner) :
      Flaw v .dependencies (.elementsOf w.kind)
  | character {s : String} {i : Nat} (hs : v.Has "system_dependencies" (.text s))
      (hi : i < s.length) : Flaw v (.dependency i) (.optionalFieldOf .text)
  | fieldName {inner : List (String × Value)} {i : Nat}
      (hinner : v.Has "system_dependencies" (.record inner)) (hi : i < inner.length) :
      Flaw v (.dependency i) (.optionalFieldOf .text)
  | item {items : List Value} {i : Nat} {w : Value} (hitems : v.Has "system_dependencies" (.list items))
      (hw : items[i]? = some w) (h : ∀ inner, w ≠ .record inner) :
      Flaw v (.dependency i) (.optionalFieldOf w.kind)
  | noClass {items : List Value} {i : Nat} {inner : List (String × Value)}
      (hitems : v.Has "system_dependencies" (.list items)) (hi : items[i]? = some (.record inner))
      (h : inner.lookup "class_name" = none) : Flaw v (.dependency i) (.missingField "class_name")

/-- The parts that something is wrong with. -/
def flawed (v : Value) : Set Part := {p | ∃ m, Flaw v p m}

theorem flaw_required_iff {part : Part} {field : String} (hpart : part.required? = some field) :
    Flaw (.record fields) part m ↔ fields.lookup field = none ∧ m = .missingField field := by
  constructor
  · intro h
    cases h with
    | noRecord h => exact absurd rfl (h fields)
    | missing hv hpart' h =>
      cases hv
      cases hpart.symm.trans hpart'
      exact ⟨h, rfl⟩
    | _ => cases hpart
  · rintro ⟨h, rfl⟩
    exact .missing rfl hpart h

theorem flaw_capability_iff : Flaw (.record fields) .capability m ↔
    Capability.ofValue (fieldOr fields "capability" .null) = .error m := by
  constructor
  · intro h
    cases h with
    | missing _ hpart _ => cases hpart
    | @capability w hw hnull h =>
      rw [fieldOr_of_has hw]
      obtain ⟨m, hm⟩ := exists_error fun hok => (Capability.exists_ofValue_iff.1 hok).elim hnull
        fun ⟨c, hc⟩ => h c hc
      rw [hm, Capability.ofValue_error hm]
  · intro h
    have hnot : ¬ ∃ c, Capability.ofValue (fieldOr fields "capability" .null) = .ok c := by
      rintro ⟨c, hc⟩
      cases h.symm.trans hc
    rw [Capability.exists_ofValue_iff, not_or, not_exists] at hnot
    rw [Capability.ofValue_error h]
    exact .capability (has_fieldOr hnot.1) hnot.1 hnot.2

theorem flaw_dependencies_iff : Flaw (.record fields) .dependencies m ↔
    (fieldOr fields "system_dependencies" (.list [])).elements = .error m := by
  constructor
  · intro h
    cases h with
    | missing _ hpart _ => cases hpart
    | @noElements w hw htext hlist hrecord =>
      rw [fieldOr_of_has hw]
      cases w with
      | text s => exact absurd rfl (htext s)
      | list items => exact absurd rfl (hlist items)
      | record inner => exact absurd rfl (hrecord inner)
      | _ => rfl
  · generalize hw : fieldOr fields "system_dependencies" (.list []) = w
    intro h
    have hne : fieldOr fields "system_dependencies" (.list []) ≠ .list [] := by
      rw [hw]
      rintro rfl
      cases h
    have hhas := has_fieldOr hne
    rw [hw] at hhas
    cases w <;> cases h <;>
      exact .noElements hhas (fun _ h => nomatch h) (fun _ h => nomatch h) fun _ h => nomatch h

theorem flaw_dependency_iff {i : Nat} : Flaw (.record fields) (.dependency i) m ↔
    ∃ items item, (fieldOr fields "system_dependencies" (.list [])).elements = .ok items ∧
      items[i]? = some item ∧ Dependency.ofValue item = .error m := by
  constructor
  · intro h
    cases h with
    | missing _ hpart _ => cases hpart
    | @character s _ hs hi =>
      rw [fieldOr_of_has hs]
      rw [← String.length_toList] at hi
      exact ⟨_, _, rfl, by rw [List.getElem?_map, List.getElem?_eq_getElem hi]; rfl, rfl⟩
    | fieldName hinner hi =>
      rw [fieldOr_of_has hinner]
      exact ⟨_, _, rfl, by rw [List.getElem?_map, List.getElem?_eq_getElem hi]; rfl, rfl⟩
    | @item items _ w hitems hw h =>
      rw [fieldOr_of_has hitems]
      exact ⟨items, w, rfl, hw, Dependency.ofValue_error_iff.2 (.inl ⟨h, rfl⟩)⟩
    | @noClass items _ inner hitems hi h =>
      rw [fieldOr_of_has hitems]
      exact ⟨items, _, rfl, hi, Dependency.ofValue_error_iff.2 (.inr ⟨inner, rfl, h, rfl⟩)⟩
  · generalize hw : fieldOr fields "system_dependencies" (.list []) = w
    rintro ⟨items, item, hitems, hi, hm⟩
    have hne : fieldOr fields "system_dependencies" (.list []) ≠ .list [] := by
      rw [hw]
      rintro rfl
      cases hitems
      cases hi
    have hhas := has_fieldOr hne
    rw [hw] at hhas
    cases w with
    | text s =>
      cases hitems
      rw [List.getElem?_map, Option.map_eq_some_iff] at hi
      obtain ⟨c, hc, rfl⟩ := hi
      cases hm
      obtain ⟨hlt, -⟩ := List.getElem?_eq_some_iff.1 hc
      exact .character hhas (by rwa [← String.length_toList])
    | record inner =>
      cases hitems
      rw [List.getElem?_map, Option.map_eq_some_iff] at hi
      obtain ⟨field, hfield, rfl⟩ := hi
      cases hm
      obtain ⟨hlt, -⟩ := List.getElem?_eq_some_iff.1 hfield
      exact .fieldName hhas hlt
    | list items' =>
      cases hitems
      rcases Dependency.ofValue_error_iff.1 hm with ⟨h, rfl⟩ | ⟨inner, rfl, h, rfl⟩
      · exact .item hhas hi h
      · exact .noClass hhas hi h
    | _ => cases hitems

section Record

variable {name className instanceName : Value} {capability : Option Capability}
  (hname : fields.lookup "name" = some name) (hclass : fields.lookup "class_name" = some className)
  (hinstance : fields.lookup "instance_name" = some instanceName)

theorem ofFields_of_no_name (h : fields.lookup "name" = none) :
    ofFields source fields = .error (.missingField "name") := by
  rw [ofFields, requiredField, h]
  rfl

include hname

theorem ofFields_of_no_class (h : fields.lookup "class_name" = none) :
    ofFields source fields = .error (.missingField "class_name") := by
  simp only [ofFields, requiredField, hname, h]
  rfl

include hclass

theorem ofFields_of_no_instance (h : fields.lookup "instance_name" = none) :
    ofFields source fields = .error (.missingField "instance_name") := by
  simp only [ofFields, requiredField, hname, hclass, h]
  rfl

include hinstance

theorem ofFields_of_no_capability (h : Capability.ofValue (fieldOr fields "capability" .null) = .error m) :
    ofFields source fields = .error m := by
  simp only [ofFields, requiredField, hname, hclass, hinstance, h]
  rfl

variable (hcapability : Capability.ofValue (fieldOr fields "capability" .null) = .ok capability)

include hcapability

theorem ofFields_of_no_elements
    (h : (fieldOr fields "system_dependencies" (.list [])).elements = .error m) :
    ofFields source fields = .error m := by
  simp only [ofFields, requiredField, hname, hclass, hinstance, hcapability, h]
  rfl

variable {items : List Value}
  (hitems : (fieldOr fields "system_dependencies" (.list [])).elements = .ok items)

include hitems

theorem ofFields_of_no_dependency (h : items.mapM Dependency.ofValue = .error m) :
    ofFields source fields = .error m := by
  simp only [ofFields, requiredField, hname, hclass, hinstance, hcapability, hitems, bind, Except.bind,
    h]

theorem exists_ofFields (h : ∀ item ∈ items, ∃ d, Dependency.ofValue item = .ok d) :
    ∃ f, ofFields source fields = .ok f := by
  obtain ⟨dependencies, hdependencies⟩ := exists_mapM_ok_iff.2 h
  simp only [ofFields, requiredField, hname, hclass, hinstance, hcapability, hitems, bind, Except.bind,
    hdependencies]
  exact ⟨_, rfl⟩

end Record

theorem exists_ofValue_of_isRecorded (h : IsRecorded v) : ∃ f, ofValue source v = .ok f := by
  obtain ⟨name, fields, rfl, hname⟩ := h.name
  obtain ⟨className, hclass⟩ := h.className
  obtain ⟨instanceName, hinstance⟩ := h.instanceName
  rw [has_record] at hclass hinstance
  obtain ⟨capability, hcapability⟩ :=
    Capability.exists_ofValue_iff.2 ((forall_has_iff (.inl rfl)).1 h.capability)
  have hdependencies : ∃ items, (fieldOr fields "system_dependencies" (.list [])).elements = .ok items ∧
      ∀ item ∈ items, ∃ d, Dependency.ofValue item = .ok d := by
    rcases (forall_has_iff (.inr (.inr ⟨[], rfl, nofun⟩))).1 h.dependencies with
      hempty | hempty | ⟨items, hitems, hall⟩
    · exact ⟨[], by rw [hempty]; rfl, nofun⟩
    · exact ⟨[], by rw [hempty]; rfl, nofun⟩
    · exact ⟨items, by rw [hitems]; rfl, fun item h => Dependency.exists_ofValue_iff.2 (hall item h)⟩
  obtain ⟨items, hitems, hall⟩ := hdependencies
  exact exists_ofFields hname hclass hinstance hcapability hitems hall

theorem isRecorded_of_flawless (h : ∀ p m, ¬ Flaw v p m) : IsRecorded v := by
  obtain ⟨fields, rfl⟩ : ∃ fields, v = .record fields := by
    by_contra hnot
    exact h .name _ (.noRecord (not_exists.1 hnot))
  have hrequired {q : Part} {field : String} (hpart : q.required? = some field) :
      ∃ w, (Value.record fields).Has field w := by
    simp only [has_record]
    by_contra hnot
    exact h q _ (.missing rfl hpart (Option.eq_none_iff_forall_ne_some.2 (not_exists.1 hnot)))
  refine ⟨hrequired (q := .name) rfl, hrequired (q := .className) rfl,
    hrequired (q := .instanceName) rfl, fun w hw => ?_, fun w hw => ?_⟩
  · by_contra hnot
    rw [not_or, not_exists] at hnot
    exact h .capability _ (.capability hw hnot.1 hnot.2)
  · cases w with
    | text s =>
      refine .inl (congrArg Value.text ?_)
      by_contra hs
      exact h (.dependency 0) _ (.character hw (Nat.pos_of_ne_zero (by simpa using hs)))
    | record inner =>
      refine .inr (.inl (congrArg Value.record ?_))
      by_contra hinner
      exact h (.dependency 0) _ (.fieldName hw (List.length_pos_of_ne_nil hinner))
    | list items =>
      refine .inr (.inr ⟨items, rfl, fun item hitem => ?_⟩)
      obtain ⟨i, hi⟩ := List.mem_iff_getElem?.1 hitem
      by_contra hnot
      rw [← Dependency.exists_ofValue_iff] at hnot
      obtain ⟨m, hm⟩ := exists_error hnot
      rcases Dependency.ofValue_error_iff.1 hm with ⟨hrecord, -⟩ | ⟨inner, rfl, hclass, -⟩
      · exact h (.dependency i) _ (.item hw hi hrecord)
      · exact h (.dependency i) _ (.noClass hw hi hclass)
    | _ =>
      exact absurd (.noElements hw (fun _ h => nomatch h) (fun _ h => nomatch h) fun _ h => nomatch h)
        (h .dependencies _)

/-- The first flaw of a record is the one that its reading fails with: the parts before it are read. -/
theorem ofFields_of_isLeast {p : Part} (hp : IsLeast (flawed (.record fields)) p)
    (hm : Flaw (.record fields) p m) : ofFields source fields = .error m := by
  have hbefore {q : Part} (hq : q.rank < p.rank) (m : Misuse) : ¬ Flaw (.record fields) q m :=
    fun h => not_le.2 hq (hp.2 ⟨m, h⟩)
  have hrequired {q : Part} {field : String} (hpart : q.required? = some field)
      (hq : q.rank < p.rank) : ∃ w, fields.lookup field = some w :=
    Option.ne_none_iff_exists'.1 fun hnone => hbefore hq _ (.missing rfl hpart hnone)
  -- once the last of the required fields is passed, they are all there
  have hnames (hq : Part.instanceName.rank < p.rank) : ∃ name className instanceName,
      fields.lookup "name" = some name ∧ fields.lookup "class_name" = some className ∧
        fields.lookup "instance_name" = some instanceName := by
    obtain ⟨name, hname⟩ := hrequired (q := .name) rfl (lt_trans (by decide) hq)
    obtain ⟨className, hclass⟩ := hrequired (q := .className) rfl (lt_trans (by decide) hq)
    obtain ⟨instanceName, hinstance⟩ := hrequired (q := .instanceName) rfl hq
    exact ⟨name, className, instanceName, hname, hclass, hinstance⟩
  have hcapability (hq : Part.capability.rank < p.rank) :
      ∃ c, Capability.ofValue (fieldOr fields "capability" .null) = .ok c := by
    by_contra hnot
    obtain ⟨m, hm⟩ := exists_error hnot
    exact hbefore hq m (flaw_capability_iff.2 hm)
  cases p with
  | name =>
    obtain ⟨hnone, rfl⟩ := (flaw_required_iff rfl).1 hm
    exact ofFields_of_no_name hnone
  | className =>
    obtain ⟨name, hname⟩ := hrequired (q := .name) rfl (by decide)
    obtain ⟨hnone, rfl⟩ := (flaw_required_iff rfl).1 hm
    exact ofFields_of_no_class hname hnone
  | instanceName =>
    obtain ⟨name, hname⟩ := hrequired (q := .name) rfl (by decide)
    obtain ⟨className, hclass⟩ := hrequired (q := .className) rfl (by decide)
    obtain ⟨hnone, rfl⟩ := (flaw_required_iff rfl).1 hm
    exact ofFields_of_no_instance hname hclass hnone
  | capability =>
    obtain ⟨name, className, instanceName, hname, hclass, hinstance⟩ := hnames (by decide)
    exact ofFields_of_no_capability hname hclass hinstance (flaw_capability_iff.1 hm)
  | dependencies =>
    obtain ⟨name, className, instanceName, hname, hclass, hinstance⟩ := hnames (by decide)
    obtain ⟨capability, hcapability⟩ := hcapability (by decide)
    exact ofFields_of_no_elements hname hclass hinstance hcapability (flaw_dependencies_iff.1 hm)
  | dependency i =>
    have hlast : Part.dependencies.rank < (Part.dependency i).rank := Nat.le_add_right 5 i
    obtain ⟨name, className, instanceName, hname, hclass, hinstance⟩ :=
      hnames (lt_trans (by decide) hlast)
    obtain ⟨capability, hcapability⟩ := hcapability (lt_trans (by decide) hlast)
    obtain ⟨items, item, hitems, hi, hitem⟩ := flaw_dependency_iff.1 hm
    have hearlier : ∀ j < i, ∀ item, items[j]? = some item → ∃ d, Dependency.ofValue item = .ok d := by
      intro j hj item hitem
      by_contra hnot
      obtain ⟨m, hm⟩ := exists_error hnot
      exact hbefore (q := .dependency j) (Nat.add_lt_add_left hj 5) m
        (flaw_dependency_iff.2 ⟨items, item, hitems, hitem, hm⟩)
    exact ofFields_of_no_dependency hname hclass hinstance hcapability hitems
      (mapM_of_first hi hitem hearlier)

theorem ofValue_of_isLeast {p : Part} (hp : IsLeast (flawed v) p) (hm : Flaw v p m) :
    ofValue source v = .error m := by
  by_cases hrecord : ∃ fields, v = .record fields
  · obtain ⟨fields, rfl⟩ := hrecord
    exact ofFields_of_isLeast hp hm
  · have hle : p.rank ≤ 0 := hp.2 ⟨_, .noRecord (not_exists.1 hrecord)⟩
    obtain rfl : p = .name := Part.rank_injective (Nat.le_zero.1 hle)
    cases hm with
    | noRecord hnot =>
      unfold ofValue
      split
      next fields => exact absurd rfl (hnot fields)
      next => rfl
    | missing hv _ _ => exact absurd ⟨_, hv⟩ hrecord

theorem exists_isLeast_flawed (h : ¬ IsRecorded v) : ∃ p m, IsLeast (flawed v) p ∧ Flaw v p m := by
  have hsome : (flawed v).Nonempty := by
    by_contra hnot
    exact h (isRecorded_of_flawless fun p m hm => hnot ⟨p, m, hm⟩)
  obtain ⟨p, hp, hmin⟩ := wellFounded_lt.has_min _ hsome
  obtain ⟨m, hm⟩ := id hp
  exact ⟨p, m, ⟨hp, fun q hq => not_lt.1 (hmin q hq)⟩, hm⟩

/-- The feature is what a value stands for. Its dependencies are those of the list, in order; texts and
records that dependencies can be read from are empty. -/
structure IsOf (f : Feature) (v : Value) : Prop where
  name : v.Has "name" f.name
  className : v.Has "class_name" f.className
  instanceName : v.Has "instance_name" f.instanceName
  capability : ∀ c, f.capability = some c ↔ v.Has "capability" (.text c.name)
  dependencies : ∀ items, v.Has "system_dependencies" (.list items) →
    List.Forall₂ (fun item d => d.IsOf item) items f.dependencies
  noDependencies : (∀ items, ¬ v.Has "system_dependencies" (.list items)) → f.dependencies = []

theorem isRecorded_of_ofValue {f : Feature} (h : ofValue source v = .ok f) : IsRecorded v := by
  by_contra hnot
  obtain ⟨p, m, hp, hm⟩ := exists_isLeast_flawed hnot
  cases h.symm.trans (ofValue_of_isLeast hp hm)

theorem isOf_of_ofValue {f : Feature} (h : ofValue source v = .ok f) : f.IsOf v := by
  have hrecorded := isRecorded_of_ofValue h
  obtain ⟨_, fields, rfl, -⟩ := hrecorded.name
  obtain ⟨name, hname, h⟩ := bind_ok h
  obtain ⟨className, hclass, h⟩ := bind_ok h
  obtain ⟨instanceName, hinstance, h⟩ := bind_ok h
  obtain ⟨capability, hcapability, h⟩ := bind_ok h
  obtain ⟨items, hitems, h⟩ := bind_ok h
  obtain ⟨dependencies, hdependencies, h⟩ := bind_ok h
  cases h
  refine ⟨has_record.2 (requiredField_ok_iff.1 hname), has_record.2 (requiredField_ok_iff.1 hclass),
    has_record.2 (requiredField_ok_iff.1 hinstance), fun c => ?_, fun items' hitems' => ?_,
    fun hnone => ?_⟩
  · rw [Capability.ofValue_ok_iff] at hcapability
    constructor
    · rintro rfl
      rw [show Value.text c.name = fieldOr fields "capability" .null from hcapability.symm]
      exact has_fieldOr (by rw [hcapability]; rintro ⟨⟩)
    · intro hhas
      rw [fieldOr_of_has hhas] at hcapability
      have hsame : Capability.toValue (some c) = Capability.toValue capability := hcapability
      exact (Capability.toValue_injective hsame).symm
  · rw [fieldOr_of_has hitems'] at hitems
    cases hitems
    exact (Outcome.mapM_ok hdependencies).imp fun _ _ => Dependency.ofValue_ok_iff.1
  · have hempty : items = [] := by
      rcases (forall_has_iff (.inr (.inr ⟨[], rfl, nofun⟩))).1 hrecorded.dependencies with
        hw | hw | ⟨items', hw, -⟩
      · rw [hw] at hitems
        exact (Except.ok.inj hitems).symm
      · rw [hw] at hitems
        exact (Except.ok.inj hitems).symm
      · rw [hw] at hitems
        cases hitems
        by_contra hne
        have hhas : (Value.record fields).Has "system_dependencies"
            (fieldOr fields "system_dependencies" (.list [])) :=
          has_fieldOr (by rw [hw]; exact fun h => hne (Value.list.inj h))
        rw [hw] at hhas
        exact hnone items hhas
    rw [hempty] at hdependencies
    exact (Except.ok.inj hdependencies).symm

/-- A value is read as a feature exactly if it is recorded as one, and the feature is then what it stands
for. Otherwise the reading fails with the first flaw, and a feature file with the value gives that as its
problem. -/
theorem ofValue_recorded (source : String) (v : Value) :
    ((∃ f, ofValue source v = .ok f) ↔ IsRecorded v) ∧
    (∀ f, ofValue source v = .ok f → f.IsOf v) ∧
    (∀ m, ofValue source v = .error m ↔ ∃ p, IsLeast (flawed v) p ∧ Flaw v p m) ∧
    ∀ d path stem, Catalog.document? d path = some v → path.text = source →
      ∀ m, ofValue source v = .error m →
        Catalog.readFeature d path stem = .ok (.error ⟨Catalog.reportedName stem v, .misshapen m⟩) := by
  refine ⟨⟨fun ⟨f, hf⟩ => isRecorded_of_ofValue hf, exists_ofValue_of_isRecorded⟩,
    fun f => isOf_of_ofValue, fun m => ⟨fun hm => ?_, fun ⟨p, hp, hm⟩ => ofValue_of_isLeast hp hm⟩, ?_⟩
  · have hnot : ¬ IsRecorded v := by
      intro h
      obtain ⟨f, hf⟩ : ∃ f, ofValue source v = .ok f := exists_ofValue_of_isRecorded h
      cases hm.symm.trans hf
    obtain ⟨p, m', hp, hm'⟩ := exists_isLeast_flawed hnot
    cases hm.symm.trans (ofValue_of_isLeast hp hm')
    exact ⟨p, hp, hm'⟩
  · rintro d path stem hdocument rfl m hm
    obtain ⟨bytes, hread, hbytes⟩ := Catalog.exists_document hdocument
    simp only [Catalog.readFeature, hread, hbytes, hm]

/-- A capability that there is none of, and a dependency that is no record. -/
def twiceFlawed : Value :=
  .record [("name", .text "fan"), ("class_name", .int 2), ("instance_name", .int 3),
    ("capability", .text "spin"),
    ("system_dependencies", .list [.record [("class_name", .null)], .null])]

/-- The capability is what the reading fails with. The file of an empty list gives, under its own name,
that it is no record. -/
theorem ofValue_recorded_twiceFlawed :
    IsLeast (flawed twiceFlawed) .capability ∧ Part.dependency 1 ∈ flawed twiceFlawed ∧
    Catalog.readFeature (Catalog.twoFiles "[]".toUTF8 "".toUTF8) ⟨.root, ["fan.json"]⟩ "fan" =
      .ok (.error ⟨.text "fan", .misshapen (.fieldOf .list)⟩) := by
  have hrefused : ofValue "/fan.json" twiceFlawed = .error (.notCapability (.text "spin")) := rfl
  refine ⟨?_, ⟨_, .item (i := 1) ⟨_, rfl, rfl⟩ rfl fun _ h => nomatch h⟩, ?_⟩
  · obtain ⟨-, -, herror, -⟩ := ofValue_recorded "/fan.json" twiceFlawed
    obtain ⟨p, hp, hm⟩ := (herror _).1 hrefused
    cases hm with
    | capability => exact hp
  · obtain ⟨-, -, -, hread⟩ := ofValue_recorded "/fan.json" (.list [])
    have hchars : Text.Utf8.decode "[]".toUTF8 = .ok ['[', ']'] := by decide +kernel
    have hdocument : Catalog.document? (Catalog.twoFiles "[]".toUTF8 "".toUTF8)
        ⟨.root, ["fan.json"]⟩ = some (.list []) := by
      have hfile : (Catalog.twoFiles "[]".toUTF8 "".toUTF8).readFile ⟨.root, ["fan.json"]⟩ =
          .ok "[]".toUTF8 := rfl
      rw [Catalog.document?, hfile, Except.toOption, Option.bind_some, Catalog.readDocument, hchars]
      rfl
    exact hread _ _ "fan" hdocument rfl _ rfl

end Feature

end FirmataSketch
