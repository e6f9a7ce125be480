import FirmataSketch.Proofs.Disk.Folders

/-! Levels of missing folders. A folder with more missing folders above it than there are levels for is
not made, and nothing else is; only such a folder is given up for want of levels. -/

namespace FirmataSketch.Disk

variable {d d' : Disk} {p : PathName} {part : String}

/-- How many of the folders that a path name leads through are missing, its end not counted. -/
def missingAbove (d : Disk) (p : PathName) : Nat :=
  (List.range p.parts.length).countP fun k => (d.kindAt (d.place ⟨p.anchor, p.parts.take k⟩)).isNone

theorem missingAbove_child (d : Disk) (p : PathName) (part : String) :
    d.missingAbove (p.child part) =
      d.missingAbove p + if d.kindAt (d.place p) = none then 1 else 0 := by
  have htake {k : Nat} (hk : k ≤ p.parts.length) : (p.parts ++ [part]).take k = p.parts.take k :=
    List.take_append_of_le_length hk
  rw [missingAbove, PathName.child, List.length_append, List.length_singleton, List.range_succ,
    List.countP_append, List.countP_singleton, htake le_rfl, List.take_length]
  congr 1
  · refine List.countP_congr fun k hk => ?_
    rw [htake (List.mem_range.1 hk).le]
  · simp only [Option.isNone_iff_eq_none]

/-- Nothing is missing above what is there. -/
theorem missingAbove_eq_zero (hup : ".." ∉ p.parts) (h : d.kindAt (d.place p) ≠ none) :
    d.missingAbove p = 0 := by
  refine List.countP_eq_zero.2 fun k _ hnone => ?_
  have hway : d.OnWay p (d.place ⟨p.anchor, p.parts.take k⟩) := ⟨k, rfl⟩
  exact h <| kindAt_none_of_prefix (Option.isNone_iff_eq_none.1 hnone) (hway.isPrefix hup)

section Child

variable (hup : ".." ∉ (p.child part).parts)

include hup

theorem place_child : d.place (p.child part) = d.place p ++ [part] := by
  rw [place_eq_append hup, place_eq_append (up_not_mem_of_child hup), List.append_assoc]
  rfl

theorem missingAbove_of_missing (h : d.locate (p.child part) = .error .missing) :
    d.missingAbove (p.child part) = d.missingAbove p + 1 := by
  rw [missingAbove_child, if_pos (kindAt_none_of_missing hup h)]

/-- A folder is not made in one that is missing. -/
theorem ensureFolder_ne_ok (hstart : d.kindAt (d.start p.anchor) = some .folder)
    (hnone : d.kindAt (d.place p) = none) : d.ensureFolder (p.child part) ≠ .ok d' := by
  intro h
  have halike := ensureFolder_ok h
  have hfolder := isFolder_of_ensureFolder hup hstart h
  rw [isFolder_iff hup, onWay_congr halike.folder] at hfolder
  have hway : d.OnWay (p.child part) (d.place p) :=
    OnWay.of_prefix (d.onWay_end p) (List.prefix_append p.parts [part])
  rcases halike.alike (d.place p) id with hsame | ⟨hplace, -⟩
  · cases (hsame.trans hnone).symm.trans (hfolder.2.2 _ hway)
  · rw [place_child hup] at hplace
    exact absurd (congrArg List.length hplace) (by simp)

end Child

section Above

variable {anchor : Anchor} {parts : List String}

theorem ensureAbove_tooDeep {levels : Option Nat} (hup : ".." ∉ parts)
    (h : ensureAbove anchor levels d parts = (d', some .tooDeep)) :
    d' = d ∧ ∃ n, levels = some n ∧ n < d.missingAbove ⟨anchor, parts.reverse⟩ := by
  induction parts generalizing levels d' with
  | nil =>
    rw [ensureAbove] at h
    split at h <;> cases h
  | cons part above ih =>
    have hupChild := up_not_mem_child_reverse anchor hup
    rw [ensureAbove] at h
    simp only [reverse_cons_eq_child] at h ⊢
    split at h
    next => cases h
    next hmissing =>
      rw [missingAbove_of_missing hupChild (locate_of_missing hmissing)]
      split at h
      next hlevels =>
        cases h
        exact ⟨rfl, 0, hlevels, Nat.succ_pos _⟩
      next hlevels =>
        split at h
        next d₁ o habove =>
          cases h
          obtain ⟨rfl, n, hn, hlt⟩ := ih (fun hmem => hup (List.mem_cons_of_mem part hmem)) habove
          obtain ⟨m, rfl, rfl⟩ := Option.map_eq_some_iff.1 hn
          have hm : m ≠ 0 := fun hzero => hlevels (congrArg some hzero)
          exact ⟨rfl, m, rfl, by rw [Nat.pred_eq_sub_one] at hlt; omega⟩
        next => split at h <;> cases h
    next => cases h

theorem IsOpen.of_child (h : d.IsOpen (p.child part)) : d.IsOpen p where
  way q hq := h.way q <| OnWay.of_prefix hq (List.prefix_append p.parts [part])
  short part' hpart' := h.short part' (List.mem_append_left _ hpart')
  text := text_short_of_concat h.text

theorem ensureAbove_of_short {n : Nat} (hup : ".." ∉ parts)
    (hstart : d.kindAt (d.start anchor) = some .folder) (hopen : d.IsOpen ⟨anchor, parts.reverse⟩)
    (hshort : n < d.missingAbove ⟨anchor, parts.reverse⟩) :
    ensureAbove anchor (some n) d parts = (d, some .tooDeep) := by
  induction parts generalizing n with
  | nil => exact absurd hshort (Nat.not_lt_zero n)
  | cons part above ih =>
    have hupChild := up_not_mem_child_reverse anchor hup
    have hupAbove : ".." ∉ above := fun hmem => hup (List.mem_cons_of_mem part hmem)
    rw [ensureAbove]
    simp only [reverse_cons_eq_child] at hopen hshort ⊢
    rw [missingAbove_child] at hshort
    by_cases hnone : d.kindAt (d.place ⟨anchor, above.reverse⟩) = none
    · rw [if_pos hnone] at hshort
      have hmissing : d.ensureFolder (PathName.child ⟨anchor, above.reverse⟩ part) =
          .error .missing := by
        cases hmade : d.ensureFolder (PathName.child ⟨anchor, above.reverse⟩ part) with
        | ok d' => exact absurd hmade (ensureFolder_ne_ok hupChild hstart hnone)
        | error r => rw [ensureFolder_of_isOpen hupChild hopen hmade]
      simp only [hmissing]
      cases n with
      | zero => rfl
      | succ n =>
        have habove := ih hupAbove hopen.of_child (Nat.lt_of_succ_lt_succ hshort)
        simp [habove]
    · have hzero := missingAbove_eq_zero (up_not_mem_of_child hupChild) hnone
      rw [if_neg hnone, hzero] at hshort
      exact absurd hshort (Nat.not_lt_zero n)

end Above

/-- There are levels enough for the folders that are missing above. -/
def Suffices (levels : Option Nat) (missing : Nat) : Prop := ∀ n ∈ levels, missing ≤ n

section Folders

variable {levels : Option Nat} (hup : ".." ∉ p.parts)

include hup

theorem ensureFolders_tooDeep (h : d.ensureFolders p levels = (d', some .tooDeep)) :
    d' = d ∧ ¬ Suffices levels (d.missingAbove p) := by
  obtain ⟨hsame, n, hn, hlt⟩ := ensureAbove_tooDeep (fun hmem => hup (List.mem_reverse.1 hmem)) h
  rw [List.reverse_reverse] at hlt
  exact ⟨hsame, fun hlevels => absurd (hlevels n hn) (Nat.not_le.2 hlt)⟩

variable (hstart : d.kindAt (d.start p.anchor) = some .folder)

include hstart

theorem ensureFolders_of_not_suffices (hopen : d.IsOpen p)
    (h : ¬ Suffices levels (d.missingAbove p)) : d.ensureFolders p levels = (d, some .tooDeep) := by
  have hreverse : (⟨p.anchor, p.parts.reverse.reverse⟩ : PathName) = p := by
    rw [List.reverse_reverse]
  simp only [Suffices, not_forall, Nat.not_le] at h
  obtain ⟨n, rfl, hlt⟩ := h
  refine ensureAbove_of_short (fun hmem => hup (List.mem_reverse.1 hmem)) hstart ?_ ?_
  · rwa [hreverse]
  · rwa [hreverse]

/-- All folders of a path name are there in the end exactly if nothing is in the way and there are levels
enough. -/
theorem ensureFolders_eq_none_iff : (d.ensureFolders p levels).2 = none ↔
    d.IsOpen p ∧ Suffices levels (d.missingAbove p) := by
  cases hmade : d.ensureFolders p levels with
  | mk d' obstacle =>
    cases obstacle with
    | none =>
      have hopen := isOpen_of_made hup hstart hmade
      refine iff_of_true rfl ⟨hopen, ?_⟩
      by_contra hnot
      cases hmade.symm.trans (ensureFolders_of_not_suffices hup hstart hopen hnot)
    | some o =>
      refine iff_of_false (fun h => nomatch h) fun ⟨hopen, hlevels⟩ => ?_
      cases o with
      | refused r => exact not_isOpen_of_refused hup hstart hmade hopen
      | tooDeep => exact (ensureFolders_tooDeep hup hmade).2 hlevels

/-- Making folders once more changes nothing, and comes to the same. -/
theorem ensureFolders_twice {obstacle : Option Obstacle}
    (h : d.ensureFolders p levels = (d', obstacle)) : d'.ensureFolders p levels = (d', obstacle) := by
  cases obstacle with
  | none => exact ensureFolders_of_isFolder (isFolder_of_ensureFolders hup hstart h) levels
  | some o =>
    cases o with
    | refused r =>
      obtain ⟨hend, hr⟩ := ensureFolder_of_ensureFolders hup hstart h
      refine ensureAbove_of_error ?_ hr
      rwa [List.reverse_reverse]
    | tooDeep =>
      obtain ⟨rfl, -⟩ := ensureFolders_tooDeep hup h
      exact h

end Folders

end FirmataSketch.Disk
