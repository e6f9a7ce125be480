import FirmataSketch.Proofs.Disk.Writing

/-! The descent to a place, by a path name that never goes up: which disks it succeeds on, and what it
is refused for on the others. -/

namespace FirmataSketch.Disk

open Outcome (bind_ok bind_error)

section Descent

variable {root : Node} {here there : Place} {part : String} {parts : List String} {r : Refusal}

theorem follow_eq_append (hup : ".." ∉ parts) : follow here parts = here ++ parts := by
  induction parts generalizing here with
  | nil => exact (List.append_nil here).symm
  | cons part parts ih =>
    rw [List.mem_cons, not_or] at hup
    rw [follow, List.foldl_cons, if_neg (Ne.symm hup.1)]
    exact (ih hup.2).trans (List.append_assoc here [part] parts)

theorem enter_eq_ok_iff (hup : part ≠ "..") : enter root here part = .ok there ↔
    root.kindAt here = some .folder ∧ part.utf8ByteSize ≤ maxNameBytes ∧ there = here ++ [part] := by
  rw [enter, Node.kindAt]
  cases root.find? here with
  | none => simp
  | some found =>
    cases found with
    | file bytes => simp [Node.kind]
    | folder entries =>
      by_cases hlong : maxNameBytes < part.utf8ByteSize
      · simp [hup, hlong, Nat.not_le.2 hlong, Node.kind]
      · simp [hup, hlong, Nat.not_lt.1 hlong, Node.kind, eq_comm]

theorem enter_error (h : enter root here part = .error r) :
    r = .missing ∧ root.kindAt here = none ∨
    (r = .notFolder ∧ ∃ bytes, root.kindAt here = some (.file bytes)) ∨
    r = .nameTooLong ∧ maxNameBytes < part.utf8ByteSize := by
  unfold enter at h
  split at h
  next hnone =>
    cases h
    exact .inl ⟨rfl, Node.kindAt_eq_none_iff.2 hnone⟩
  next bytes hfile =>
    cases h
    exact .inr (.inl ⟨rfl, bytes, Node.kindAt_of_find? hfile⟩)
  next =>
    split at h
    · cases h
    · split at h
      next hlong =>
        cases h
        exact .inr (.inr ⟨rfl, hlong⟩)
      next => cases h

/-- Each part lies in a folder, and none is too long. -/
structure IsWay (root : Node) (here : Place) (parts : List String) : Prop where
  folders : ∀ k < parts.length, root.kindAt (here ++ parts.take k) = some .folder
  short : ∀ part ∈ parts, part.utf8ByteSize ≤ maxNameBytes

theorem isWay_cons_iff : IsWay root here (part :: parts) ↔ root.kindAt here = some .folder ∧
    part.utf8ByteSize ≤ maxNameBytes ∧ IsWay root (here ++ [part]) parts := by
  constructor
  · rintro ⟨hfolders, hshort⟩
    rw [List.forall_mem_cons] at hshort
    refine ⟨by simpa using hfolders 0 (Nat.succ_pos _), hshort.1, fun k hk => ?_, hshort.2⟩
    simpa using hfolders (k + 1) (Nat.succ_lt_succ hk)
  · rintro ⟨hhere, hpart, hfolders, hshort⟩
    refine ⟨fun k hk => ?_, List.forall_mem_cons.2 ⟨hpart, hshort⟩⟩
    cases k with
    | zero => simpa using hhere
    | succ k => simpa using hfolders k (Nat.lt_of_succ_lt_succ hk)

theorem foldlM_enter_eq_ok_iff (hup : ".." ∉ parts) : parts.foldlM (enter root) here = .ok there ↔
    IsWay root here parts ∧ there = here ++ parts := by
  induction parts generalizing here with
  | nil =>
    rw [List.foldlM_nil, List.append_nil]
    exact ⟨fun h => ⟨⟨nofun, nofun⟩, (Except.ok.inj h).symm⟩, fun h => by rw [h.2]; rfl⟩
  | cons part parts ih =>
    rw [List.mem_cons, not_or] at hup
    have hpart : part ≠ ".." := Ne.symm hup.1
    rw [List.foldlM_cons, isWay_cons_iff]
    constructor
    · intro h
      obtain ⟨next, hnext, h⟩ := bind_ok h
      obtain ⟨hhere, hshort, rfl⟩ := (enter_eq_ok_iff hpart).1 hnext
      obtain ⟨hway, rfl⟩ := (ih hup.2).1 h
      exact ⟨⟨hhere, hshort, hway⟩, List.append_assoc here [part] parts⟩
    · rintro ⟨⟨hhere, hshort, hway⟩, rfl⟩
      rw [(enter_eq_ok_iff hpart).2 ⟨hhere, hshort, rfl⟩]
      exact (ih hup.2).2 ⟨hway, (List.append_assoc here [part] parts).symm⟩

/-- A descent is refused at one of its places. -/
theorem foldlM_enter_error (hup : ".." ∉ parts) (h : parts.foldlM (enter root) here = .error r) :
    ∃ k < parts.length, ∃ part ∈ parts, enter root (here ++ parts.take k) part = .error r := by
  induction parts generalizing here with
  | nil => cases h
  | cons part parts ih =>
    rw [List.mem_cons, not_or] at hup
    rw [List.foldlM_cons] at h
    rcases bind_error h with hhere | ⟨next, hnext, h⟩
    · exact ⟨0, Nat.succ_pos _, part, List.mem_cons_self, by simpa using hhere⟩
    · obtain ⟨-, -, rfl⟩ := (enter_eq_ok_iff (Ne.symm hup.1)).1 hnext
      obtain ⟨k, hk, part', hpart', he⟩ := ih hup.2 h
      exact ⟨k + 1, Nat.succ_lt_succ hk, part', List.mem_cons_of_mem part hpart', by simpa using he⟩

end Descent

section Text

theorem intercalate_concat_size (sep part : String) (above : List String) :
    (String.intercalate sep above).utf8ByteSize ≤
      (String.intercalate sep (above ++ [part])).utf8ByteSize := by
  induction above with
  | nil => simp
  | cons first rest ih =>
    cases rest with
    | nil =>
      rw [List.cons_append, List.nil_append, String.intercalate_cons_cons, String.intercalate_singleton,
        String.utf8ByteSize_append, String.utf8ByteSize_append]
      omega
    | cons second rest =>
      rw [List.cons_append, List.cons_append, String.intercalate_cons_cons,
        String.intercalate_cons_cons, ← List.cons_append, String.utf8ByteSize_append,
        String.utf8ByteSize_append, String.utf8ByteSize_append, String.utf8ByteSize_append]
      omega

theorem text_eq {anchor : Anchor} {parts : List String} (h : parts ≠ []) :
    (⟨anchor, parts⟩ : PathName).text = anchor.text ++ String.intercalate "/" parts := by
  cases parts with
  | nil => exact absurd rfl h
  | cons part parts => cases anchor <;> rfl

theorem text_short_of_concat {anchor : Anchor} {above : List String} {part : String}
    (h : (⟨anchor, above ++ [part]⟩ : PathName).text.utf8ByteSize ≤ maxPathBytes) :
    (⟨anchor, above⟩ : PathName).text.utf8ByteSize ≤ maxPathBytes := by
  by_cases hempty : above = []
  · subst hempty
    cases anchor <;> decide
  · rw [text_eq (by simp), String.utf8ByteSize_append] at h
    rw [text_eq hempty, String.utf8ByteSize_append]
    exact (Nat.add_le_add_left (intercalate_concat_size "/" part above) _).trans h

end Text

section PathName

variable {d : Disk} {p : PathName} {there q : Place} {r : Refusal}

theorem isFolder_iff_locate : d.isFolder p = true ↔
    ∃ there, d.locate p = .ok there ∧ d.kindAt there = some .folder := by
  unfold isFolder node?
  cases d.locate p with
  | error r => simp
  | ok there =>
    simp only [Except.ok.injEq, exists_eq_left']
    rw [kindAt, Node.kindAt]
    cases d.root.find? there with
    | none => simp
    | some found => cases found <;> simp [Node.kind]

variable (hup : ".." ∉ p.parts)

include hup

theorem place_eq_append : d.place p = d.start p.anchor ++ p.parts := follow_eq_append hup

theorem onWay_iff : d.OnWay p q ↔ ∃ k, q = d.start p.anchor ++ p.parts.take k := by
  have htake (k : Nat) : d.place ⟨p.anchor, p.parts.take k⟩ = d.start p.anchor ++ p.parts.take k :=
    follow_eq_append fun h => hup (List.mem_of_mem_take h)
  simp only [OnWay, htake]

theorem locate_eq_ok_iff : d.locate p = .ok there ↔ p.text.utf8ByteSize ≤ maxPathBytes ∧
    IsWay d.root (d.start p.anchor) p.parts ∧ there = d.place p := by
  rw [locate, place_eq_append hup]
  by_cases hlong : maxPathBytes < p.text.utf8ByteSize
  · simp [hlong, Nat.not_le.2 hlong]
  · have hshort := Nat.le_of_not_lt hlong
    rw [if_neg hlong]
    exact (foldlM_enter_eq_ok_iff hup).trans ⟨fun h => ⟨hshort, h⟩, fun h => h.2⟩

/-- What a path name does not lead to a place for. -/
theorem locate_error (h : d.locate p = .error r) :
    r = .missing ∧ (∃ k < p.parts.length, d.kindAt (d.start p.anchor ++ p.parts.take k) = none) ∨
    (r = .notFolder ∧ ∃ q bytes, d.OnWay p q ∧ d.kindAt q = some (.file bytes)) ∨
    r = .nameTooLong ∧ (maxPathBytes < p.text.utf8ByteSize ∨
      ∃ part ∈ p.parts, maxNameBytes < part.utf8ByteSize) := by
  unfold locate at h
  split at h
  next hlong =>
    cases h
    exact .inr (.inr ⟨rfl, .inl hlong⟩)
  next =>
    obtain ⟨k, hk, part, hpart, he⟩ := foldlM_enter_error hup h
    rcases enter_error he with ⟨rfl, hnone⟩ | ⟨rfl, bytes, hfile⟩ | ⟨rfl, hlong⟩
    · exact .inl ⟨rfl, k, hk, hnone⟩
    · exact .inr (.inl ⟨rfl, _, bytes, (onWay_iff hup).2 ⟨k, rfl⟩, hfile⟩)
    · exact .inr (.inr ⟨rfl, .inr ⟨part, hpart, hlong⟩⟩)

theorem isFolder_iff : d.isFolder p = true ↔ p.text.utf8ByteSize ≤ maxPathBytes ∧
    (∀ part ∈ p.parts, part.utf8ByteSize ≤ maxNameBytes) ∧
    ∀ q, d.OnWay p q → d.kindAt q = some .folder := by
  rw [isFolder_iff_locate]
  constructor
  · rintro ⟨there, hthere, hfolder⟩
    obtain ⟨htext, hway, rfl⟩ := (locate_eq_ok_iff hup).1 hthere
    refine ⟨htext, hway.short, fun q hq => ?_⟩
    obtain ⟨k, rfl⟩ := (onWay_iff hup).1 hq
    by_cases hk : k < p.parts.length
    · exact hway.folders k hk
    · rw [List.take_of_length_le (Nat.le_of_not_lt hk), ← place_eq_append hup]
      exact hfolder
  · rintro ⟨htext, hshort, hfolder⟩
    refine ⟨d.place p, (locate_eq_ok_iff hup).2 ⟨htext, ⟨fun k _ => ?_, hshort⟩, rfl⟩,
      hfolder _ (d.onWay_end p)⟩
    exact hfolder _ ((onWay_iff hup).2 ⟨k, rfl⟩)

end PathName

end FirmataSketch.Disk
