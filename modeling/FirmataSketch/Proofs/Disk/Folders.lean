import FirmataSketch.Proofs.Disk.Descent

/-! Making the folders of a path name: it succeeds exactly if no file and no overlong name is in the way.
If it does not, it fails in the same way once more. -/

namespace FirmataSketch.Disk

open Outcome (bind_ok)

variable {d d' : Disk} {p : PathName} {r : Refusal}

theorem start_congr (h : d'.folder = d.folder) (anchor : Anchor) : d'.start anchor = d.start anchor := by
  rw [start, start, h]

/-- Folders stay. -/
theorem AlikeBut.kindAt_folder {made written : Place → Prop} (h : AlikeBut d d' made written) {q : Place}
    (hq : ¬ written q) (hfolder : d.kindAt q = some .folder) : d'.kindAt q = some .folder := by
  rcases h.alike q hq with hsame | ⟨-, -, hnew⟩
  · exact hsame.trans hfolder
  · exact hnew

theorem ensureFolder_of_isFolder (h : d.isFolder p = true) : d.ensureFolder p = .ok d := by
  obtain ⟨there, hthere, hfolder⟩ := isFolder_iff_locate.1 h
  obtain ⟨entries, hfound⟩ := Node.kindAt_eq_folder_iff.1 hfolder
  have hmake : d.makeFolder p = .error .taken := by
    rw [makeFolder, hthere]
    simp only [bind, Except.bind, hfound]
  rw [ensureFolder, hmake]
  exact if_pos h

theorem ensureFolder_of_locate_error (h : d.locate p = .error r) : d.ensureFolder p = .error r := by
  have hmake : d.makeFolder p = .error r := by
    rw [makeFolder, h]
    rfl
  have hnot : ¬ d.isFolder p = true := by
    rw [isFolder_iff_locate, h]
    rintro ⟨there, hthere, -⟩
    cases hthere
  rw [ensureFolder, hmake]
  exact if_neg hnot

theorem ensureFolder_error (h : d.ensureFolder p = .error r) :
    d.locate p = .error r ∨ r = .taken ∧ ∃ bytes, d.kindAt (d.place p) = some (.file bytes) := by
  cases hlocate : d.locate p with
  | error r' =>
    cases (ensureFolder_of_locate_error hlocate).symm.trans h
    exact .inl rfl
  | ok there =>
    obtain rfl := locate_ok hlocate
    refine .inr ?_
    cases hfound : d.root.find? (d.place p) with
    | none =>
      rw [ensureFolder, makeFolder, hlocate] at h
      simp only [bind, Except.bind, hfound] at h
      cases h
    | some found =>
      have hkind := Node.kindAt_of_find? hfound
      cases found with
      | folder entries =>
        rw [ensureFolder_of_isFolder (isFolder_iff_locate.2 ⟨_, hlocate, hkind⟩)] at h
        cases h
      | file bytes =>
        rw [ensureFolder, makeFolder, hlocate] at h
        simp only [bind, Except.bind, hfound] at h
        split at h
        · cases h
        · cases h
          exact ⟨rfl, bytes, hkind⟩

theorem locate_of_missing (h : d.ensureFolder p = .error .missing) : d.locate p = .error .missing := by
  rcases ensureFolder_error h with hlocate | ⟨h, -⟩
  · exact hlocate
  · cases h

section Made

variable (hup : ".." ∉ p.parts) (hstart : d.kindAt (d.start p.anchor) = some .folder)

include hup hstart

theorem kindAt_makeFolder (h : d.makeFolder p = .ok d') : d'.kindAt (d.place p) = some .folder := by
  obtain ⟨there, hthere, h⟩ := bind_ok h
  obtain ⟨-, hway, rfl⟩ := (locate_eq_ok_iff hup).1 hthere
  split at h
  next => cases h
  next hnone =>
    rw [place_eq_append hup] at hnone
    cases h
    rw [place_eq_append hup]
    rcases List.eq_nil_or_concat p.parts with hnil | ⟨above, part, hparts⟩
    · rw [hnil, List.append_nil, ← Node.kindAt_eq_none_iff] at hnone
      cases hnone.symm.trans hstart
    · rw [List.concat_eq_append] at hparts
      have habove := hway.folders above.length (by simp [hparts])
      rw [hparts, List.take_left' rfl] at habove
      obtain ⟨entries, hfound⟩ := Node.kindAt_eq_folder_iff.1 habove
      rw [hparts, ← List.append_assoc]
      exact kindAt_put_self hfound part (.folder [])

theorem isFolder_of_makeFolder (h : d.makeFolder p = .ok d') : d'.isFolder p = true := by
  have halike := makeFolder_ok h
  have hend := kindAt_makeFolder hup hstart h
  obtain ⟨there, hthere, -⟩ := bind_ok h
  obtain ⟨htext, hway, -⟩ := (locate_eq_ok_iff hup).1 hthere
  rw [isFolder_iff hup, onWay_congr halike.folder]
  refine ⟨htext, hway.short, fun q hq => ?_⟩
  obtain ⟨k, rfl⟩ := (onWay_iff hup).1 hq
  by_cases hk : k < p.parts.length
  · exact halike.kindAt_folder id (hway.folders k hk)
  · rwa [List.take_of_length_le (Nat.le_of_not_lt hk), ← place_eq_append hup]

theorem isFolder_of_ensureFolder (h : d.ensureFolder p = .ok d') : d'.isFolder p = true := by
  unfold ensureFolder at h
  split at h
  next hmake =>
    cases h
    exact isFolder_of_makeFolder hup hstart hmake
  next =>
    split at h
    next hfolder =>
      cases h
      exact hfolder
    next => cases h

end Made

theorem kindAt_none_of_prefix {n : Node} {here q : Place} (h : n.kindAt here = none) (hq : here <+: q) :
    n.kindAt q = none := by
  by_cases hsame : q = here
  · rwa [hsame]
  · exact kindAt_below (by rw [h]; rintro ⟨⟩) hq hsame

theorem OnWay.isPrefix (hup : ".." ∉ p.parts) {q : Place} (h : d.OnWay p q) : q <+: d.place p := by
  obtain ⟨k, rfl⟩ := (onWay_iff hup).1 h
  rw [place_eq_append hup, List.prefix_append_right_inj]
  exact List.take_prefix k p.parts

section Missing

variable {part : String} (hup : ".." ∉ (p.child part).parts)

include hup

theorem up_not_mem_of_child : ".." ∉ p.parts := fun h => hup (List.mem_append_left _ h)

/-- If a child is missing for want of a folder, then something is missing on the way to its parent. -/
theorem exists_missing (h : d.locate (p.child part) = .error .missing) :
    ∃ q, d.OnWay p q ∧ d.kindAt q = none := by
  rcases locate_error hup h with ⟨-, k, hk, hnone⟩ | ⟨h, -⟩ | ⟨h, -⟩
  · have hle : k ≤ p.parts.length := by
      have hlength : (p.child part).parts.length = p.parts.length + 1 := by simp [PathName.child]
      omega
    have htake : (p.child part).parts.take k = p.parts.take k := List.take_append_of_le_length hle
    rw [htake] at hnone
    exact ⟨_, (onWay_iff (up_not_mem_of_child hup)).2 ⟨k, rfl⟩, hnone⟩
  · cases h
  · cases h

/-- What is missing on the way to a child is the folder that it is in, or something above that. -/
theorem kindAt_none_of_missing (h : d.locate (p.child part) = .error .missing) :
    d.kindAt (d.place p) = none := by
  obtain ⟨q, hq, hnone⟩ := exists_missing hup h
  exact kindAt_none_of_prefix hnone (hq.isPrefix (up_not_mem_of_child hup))

theorem not_file_of_missing (h : d.locate (p.child part) = .error .missing) (bytes : ByteArray) :
    d.kindAt (d.place p) ≠ some (.file bytes) := by
  rw [kindAt_none_of_missing hup h]
  rintro ⟨⟩

end Missing

theorem locate_child_of_error {part : String} (h : d.locate p = .error r)
    (htext : (p.child part).text.utf8ByteSize ≤ maxPathBytes) :
    d.locate (p.child part) = .error r := by
  have hparts : (p.child part).parts = p.parts ++ [part] := rfl
  rw [locate, if_neg (Nat.not_lt.2 (text_short_of_concat htext))] at h
  rw [locate, if_neg (Nat.not_lt.2 htext), hparts, List.foldlM_append]
  exact congrArg (· >>= _) h

theorem text_short_of_missing (h : d.locate p = .error .missing) :
    p.text.utf8ByteSize ≤ maxPathBytes := by
  unfold locate at h
  split at h
  · cases h
  next hshort => exact Nat.le_of_not_lt hshort

theorem reverse_cons_eq_child (anchor : Anchor) (part : String) (above : List String) :
    (⟨anchor, (part :: above).reverse⟩ : PathName) = PathName.child ⟨anchor, above.reverse⟩ part := by
  rw [List.reverse_cons]
  rfl

theorem up_not_mem_child_reverse (anchor : Anchor) {part : String} {above : List String}
    (hup : ".." ∉ part :: above) :
    ".." ∉ (PathName.child ⟨anchor, above.reverse⟩ part).parts := by
  rw [← reverse_cons_eq_child]
  exact fun hmem => hup (List.mem_reverse.1 hmem)

section Above

variable {anchor : Anchor} {parts : List String}

theorem isFolder_of_made {levels : Option Nat} (hup : ".." ∉ parts)
    (hstart : d.kindAt (d.start anchor) = some .folder)
    (h : ensureAbove anchor levels d parts = (d', none)) :
    d'.isFolder ⟨anchor, parts.reverse⟩ = true := by
  have hreverse : ".." ∉ parts.reverse := fun hmem => hup (List.mem_reverse.1 hmem)
  cases parts with
  | nil =>
    rw [ensureAbove] at h
    split at h
    next hensure =>
      cases h
      exact isFolder_of_ensureFolder hreverse hstart hensure
    next => cases h
  | cons part above =>
    rw [ensureAbove] at h
    split at h
    next hensure =>
      cases h
      exact isFolder_of_ensureFolder hreverse hstart hensure
    next =>
      split at h
      next => cases h
      next =>
        split at h
        next => cases h
        next d₁ habove =>
          have halike := alikeBut_ensureAbove anchor (levels.map Nat.pred) d above
          rw [habove] at halike
          split at h
          next hensure =>
            cases h
            refine isFolder_of_ensureFolder hreverse ?_ hensure
            rw [start_congr halike.folder]
            exact halike.kindAt_folder id hstart
          next => cases h
    next => cases h

/-- The refusal of a way is that of its end, on the disk that is left. -/
theorem ensureFolder_of_refused {levels : Option Nat} (hup : ".." ∉ parts)
    (hstart : d.kindAt (d.start anchor) = some .folder)
    (h : ensureAbove anchor levels d parts = (d', some (.refused r))) :
    d'.ensureFolder ⟨anchor, parts.reverse⟩ = .error r ∧ r ≠ .missing := by
  induction parts generalizing levels d' r with
  | nil =>
    rw [ensureAbove] at h
    split at h
    next => cases h
    next hensure =>
      cases h
      refine ⟨hensure, ?_⟩
      rintro rfl
      rcases locate_error hup (locate_of_missing hensure) with ⟨-, k, hk, -⟩ | ⟨h, -⟩ | ⟨h, -⟩
      · exact absurd hk (Nat.not_lt_zero k)
      · cases h
      · cases h
  | cons part above ih =>
    have hupAbove : ".." ∉ above := fun hmem => hup (List.mem_cons_of_mem part hmem)
    have hupChild := up_not_mem_child_reverse anchor hup
    rw [ensureAbove] at h
    simp only [reverse_cons_eq_child] at h ⊢
    split at h
    next => cases h
    next hmissing =>
      have hlocate := locate_of_missing hmissing
      split at h
      next => cases h
      next =>
        have halike := alikeBut_ensureAbove anchor (levels.map Nat.pred) d above
        split at h
        next d₁ o habove =>
          cases h
          obtain ⟨hend, hr⟩ := ih hupAbove habove
          refine ⟨?_, hr⟩
          rcases ensureFolder_error hend with hend | ⟨-, bytes, hfile⟩
          · exact ensureFolder_of_locate_error (locate_child_of_error hend (text_short_of_missing hlocate))
          · rw [habove] at halike
            rw [place_congr halike.folder, halike.file_iff id] at hfile
            exact absurd hfile (not_file_of_missing hupChild hlocate bytes)
        next d₁ habove =>
          split at h
          next => cases h
          next hlast =>
            cases h
            refine ⟨hlast, ?_⟩
            rintro rfl
            obtain ⟨q, hq, hnone⟩ := exists_missing hupChild (locate_of_missing hlast)
            have hfolder := isFolder_of_made hupAbove hstart habove
            rw [isFolder_iff (up_not_mem_of_child hupChild)] at hfolder
            cases hnone.symm.trans (hfolder.2.2 q hq)
    next hne hother =>
      cases h
      exact ⟨hother, hne⟩

theorem ensureAbove_of_ok {levels : Option Nat} (h : d.ensureFolder ⟨anchor, parts.reverse⟩ = .ok d') :
    ensureAbove anchor levels d parts = (d', none) := by
  cases parts with
  | nil => rw [ensureAbove, ← List.reverse_nil, h]
  | cons part above => simp only [ensureAbove, h]

theorem ensureAbove_of_error {levels : Option Nat}
    (h : d.ensureFolder ⟨anchor, parts.reverse⟩ = .error r) (hr : r ≠ .missing) :
    ensureAbove anchor levels d parts = (d, some (.refused r)) := by
  cases parts with
  | nil => rw [ensureAbove, ← List.reverse_nil, h]
  | cons part above => simp only [ensureAbove, h]

end Above

/-- The folders of a path name are there or can be made. -/
structure IsOpen (d : Disk) (p : PathName) : Prop where
  way : ∀ q, d.OnWay p q → ∀ bytes, d.kindAt q ≠ some (.file bytes)
  short : ∀ part ∈ p.parts, part.utf8ByteSize ≤ maxNameBytes
  text : p.text.utf8ByteSize ≤ maxPathBytes

theorem ensureFolder_of_isOpen (hup : ".." ∉ p.parts) (hopen : d.IsOpen p)
    (h : d.ensureFolder p = .error r) : r = .missing := by
  rcases ensureFolder_error h with hlocate | ⟨-, bytes, hfile⟩
  · rcases locate_error hup hlocate with
      ⟨rfl, -⟩ | ⟨-, q, bytes, hq, hfile⟩ | ⟨-, hlong | ⟨part, hpart, hlong⟩⟩
    · rfl
    · exact absurd hfile (hopen.way q hq bytes)
    · exact absurd hopen.text (Nat.not_le.2 hlong)
    · exact absurd (hopen.short part hpart) (Nat.not_le.2 hlong)
  · exact absurd hfile (hopen.way _ (d.onWay_end p) bytes)

theorem AlikeBut.isOpen {made : Place → Prop} (h : AlikeBut d d' made nowhere) (hopen : d.IsOpen p) :
    d'.IsOpen p := by
  refine ⟨fun q hq bytes hfile => ?_, hopen.short, hopen.text⟩
  rw [onWay_congr h.folder] at hq
  exact hopen.way q hq bytes ((h.file_iff id bytes).1 hfile)

theorem ensureFolders_of_isFolder (h : d.isFolder p = true) (levels : Option Nat) :
    d.ensureFolders p levels = (d, none) := by
  refine ensureAbove_of_ok ?_
  rw [List.reverse_reverse]
  exact ensureFolder_of_isFolder h

section Folders

variable {levels : Option Nat} (hup : ".." ∉ p.parts)
  (hstart : d.kindAt (d.start p.anchor) = some .folder)

include hup hstart

theorem isFolder_of_ensureFolders (h : d.ensureFolders p levels = (d', none)) :
    d'.isFolder p = true := by
  have hmade := isFolder_of_made (fun hmem => hup (List.mem_reverse.1 hmem)) hstart h
  rwa [List.reverse_reverse] at hmade

theorem ensureFolder_of_ensureFolders (h : d.ensureFolders p levels = (d', some (.refused r))) :
    d'.ensureFolder p = .error r ∧ r ≠ .missing := by
  have hrefused := ensureFolder_of_refused (fun hmem => hup (List.mem_reverse.1 hmem)) hstart h
  rwa [List.reverse_reverse] at hrefused

theorem isOpen_of_made (h : d.ensureFolders p levels = (d', none)) : d.IsOpen p := by
  have halike := alikeBut_ensureFolders d p levels
  have hfolder := isFolder_of_ensureFolders hup hstart h
  rw [h] at halike
  rw [isFolder_iff hup, onWay_congr halike.folder] at hfolder
  obtain ⟨htext, hshort, hfolder⟩ := hfolder
  refine ⟨fun q hq bytes hfile => ?_, hshort, htext⟩
  cases (hfolder q hq).symm.trans ((halike.file_iff id bytes).2 hfile)

theorem not_isOpen_of_refused (h : d.ensureFolders p levels = (d', some (.refused r))) :
    ¬ d.IsOpen p := by
  intro hopen
  have halike := alikeBut_ensureFolders d p levels
  rw [h] at halike
  obtain ⟨hend, hr⟩ := ensureFolder_of_ensureFolders hup hstart h
  exact hr (ensureFolder_of_isOpen hup (halike.isOpen hopen) hend)

end Folders

end FirmataSketch.Disk
