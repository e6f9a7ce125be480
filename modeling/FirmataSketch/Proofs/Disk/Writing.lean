import FirmataSketch.Proofs.Disk.Kind
import FirmataSketch.Proofs.Disk.SketchPath
import FirmataSketch.Proofs.Outcome
import FirmataSketch.Proofs.Text.Encoding

/-! Writing sketches: what is made and changed on the disk. Folders are made on the way to the sketch
only, and no other file is touched. -/

namespace FirmataSketch.Disk

open Outcome (bind_ok)

def kindAt (d : Disk) (q : Place) : Option Kind := d.root.kindAt q

/-- The place that the parts of a path name lead to, if all folders on the way are there. -/
def follow (here : Place) (parts : List String) : Place :=
  parts.foldl (fun here part => if part = ".." then here.dropLast else here ++ [part]) here

/-- Where path names with an anchor begin. -/
def start (d : Disk) (anchor : Anchor) : Place := if anchor = .here then d.folder else []

def place (d : Disk) (p : PathName) : Place := follow (d.start p.anchor) p.parts

variable {d d' : Disk} {p : PathName}

theorem enter_ok {root : Node} {here there : Place} {part : String}
    (h : enter root here part = .ok there) :
    (∃ entries, root.find? here = some (.folder entries)) ∧
      there = if part = ".." then here.dropLast else here ++ [part] := by
  unfold enter at h
  split at h
  next => cases h
  next => cases h
  next entries hfound =>
    refine ⟨⟨entries, hfound⟩, ?_⟩
    split at h
    next hup =>
      rw [if_pos hup]
      exact (Except.ok.inj h).symm
    next hup =>
      rw [if_neg hup]
      split at h
      · cases h
      · exact (Except.ok.inj h).symm

theorem foldlM_enter_ok {root : Node} {here there : Place} {parts : List String}
    (h : parts.foldlM (enter root) here = .ok there) : there = follow here parts := by
  induction parts generalizing here with
  | nil => exact (Except.ok.inj h).symm
  | cons part parts ih =>
    rw [List.foldlM_cons] at h
    obtain ⟨next, hnext, h⟩ := bind_ok h
    obtain ⟨-, rfl⟩ := enter_ok hnext
    exact ih h

theorem locate_ok {there : Place} (h : d.locate p = .ok there) : there = d.place p := by
  unfold locate at h
  split at h
  · cases h
  · exact foldlM_enter_ok h

/-- The place of a child is in a folder. -/
theorem locate_child_ok {name : String} (hname : name ≠ "..") {there : Place}
    (h : d.locate (p.child name) = .ok there) :
    there = d.place p ++ [name] ∧ ∃ entries, d.root.find? (d.place p) = some (.folder entries) := by
  unfold locate at h
  split at h
  · cases h
  · have hparts : (p.child name).parts = p.parts ++ [name] := rfl
    rw [hparts, List.foldlM_append] at h
    obtain ⟨here, hhere, h⟩ := bind_ok h
    obtain rfl := foldlM_enter_ok hhere
    obtain ⟨last, hlast, h⟩ := bind_ok h
    obtain rfl := Except.ok.inj h
    obtain ⟨hfolder, rfl⟩ := enter_ok hlast
    exact ⟨if_neg hname, hfolder⟩

/-- A disk is like another one, but for folders that were missing before and for what was written. -/
structure AlikeBut (d d' : Disk) (made written : Place → Prop) : Prop where
  folder : d'.folder = d.folder
  alike : ∀ q, ¬ written q → d'.kindAt q = d.kindAt q ∨
    made q ∧ d.kindAt q = none ∧ d'.kindAt q = some .folder

def nowhere : Place → Prop := fun _ => False

namespace AlikeBut

variable {made made' written : Place → Prop}

theorem refl (d : Disk) (made written : Place → Prop) : AlikeBut d d made written :=
  ⟨rfl, fun _ _ => .inl rfl⟩

theorem trans {d'' : Disk} (h : AlikeBut d d' made written) (h' : AlikeBut d' d'' made written) :
    AlikeBut d d'' made written := by
  refine ⟨h'.folder.trans h.folder, fun q hq => ?_⟩
  rcases h.alike q hq with hsame | ⟨hmade, hnone, hfolder⟩
  · rw [← hsame]
    exact h'.alike q hq
  · rcases h'.alike q hq with hsame' | ⟨-, hnone', -⟩
    · exact .inr ⟨hmade, hnone, hsame'.trans hfolder⟩
    · rw [hfolder] at hnone'
      cases hnone'

theorem mono {written' : Place → Prop} (h : AlikeBut d d' made written)
    (hmade : ∀ q, made q → made' q) (hwritten : ∀ q, written q → written' q) :
    AlikeBut d d' made' written' :=
  ⟨h.folder, fun q hq => (h.alike q fun hw => hq (hwritten q hw)).imp_right
    fun hnew => ⟨hmade q hnew.1, hnew.2⟩⟩

/-- What was not written is the same file as before, or still none. -/
theorem file_iff (h : AlikeBut d d' made written) {q : Place} (hq : ¬ written q) (bytes : ByteArray) :
    d'.kindAt q = some (.file bytes) ↔ d.kindAt q = some (.file bytes) := by
  rcases h.alike q hq with hsame | ⟨-, hnone, hfolder⟩
  · rw [hsame]
  · rw [hnone, hfolder]
    simp

end AlikeBut

/-- Where there is no folder, nothing is further down. -/
theorem kindAt_below {n : Node} {here q : Place} (h : n.kindAt here ≠ some .folder)
    (hq : here <+: q) (hne : q ≠ here) : n.kindAt q = none := by
  obtain ⟨rest, rfl⟩ := hq
  rw [Node.kindAt] at h
  rw [Node.kindAt_append]
  cases hfound : n.find? here with
  | none => rfl
  | some found =>
    cases found with
    | folder entries => exact absurd (by rw [hfound]; rfl) h
    | file bytes =>
      cases rest with
      | nil => exact absurd (List.append_nil here) hne
      | cons name rest => rfl

/-- Putting an empty folder or a file in a folder changes nothing else, unless a folder was there. -/
theorem kindAt_put_of_ne {n new : Node} {here : Place} {entries : List (String × Node)} {name : String}
    (hfound : n.find? here = some (.folder entries))
    (hold : n.kindAt (here ++ [name]) ≠ some .folder)
    (hnew : ∀ m q, new.kindAt (m :: q) = none) {q : Place} (hq : q ≠ here ++ [name]) :
    (n.put (here ++ [name]) new).kindAt q = n.kindAt q := by
  rw [Node.kindAt_put hfound]
  split
  next hbelow =>
    rw [kindAt_below hold hbelow hq]
    obtain ⟨rest, rfl⟩ := hbelow
    cases rest with
    | nil => exact absurd (List.append_nil _) hq
    | cons m rest =>
      have hdrop : (here ++ [name] ++ m :: rest).drop (here.length + 1) = m :: rest := by simp
      rw [hdrop]
      exact hnew m rest
  next => rfl

theorem kindAt_put_self {n : Node} {here : Place} {entries : List (String × Node)}
    (hfound : n.find? here = some (.folder entries)) (name : String) (new : Node) :
    (n.put (here ++ [name]) new).kindAt (here ++ [name]) = some new.kind := by
  rw [Node.kindAt_put hfound, if_pos List.prefix_rfl]
  have hdrop : (here ++ [name]).drop (here.length + 1) = [] := by simp
  rw [hdrop, Node.kindAt_nil]

theorem makeFolder_ok (h : d.makeFolder p = .ok d') :
    AlikeBut d d' (· = d.place p) nowhere := by
  obtain ⟨there, hthere, h⟩ := bind_ok h
  obtain rfl := locate_ok hthere
  split at h
  next => cases h
  next hmissing =>
    obtain rfl := Except.ok.inj h
    refine ⟨rfl, fun q _ => ?_⟩
    rcases List.eq_nil_or_concat (d.place p) with hroot | ⟨here, name, hplace⟩
    · rw [hroot] at hmissing
      cases hroot : d.root <;> rw [hroot] at hmissing <;> cases hmissing
    · rw [List.concat_eq_append] at hplace
      rw [hplace] at hmissing ⊢
      by_cases hfolder : ∃ entries, d.root.find? here = some (.folder entries)
      · obtain ⟨entries, hfound⟩ := hfolder
        have hnone : d.root.kindAt (here ++ [name]) = none := by
          rw [Node.kindAt, hmissing]
          rfl
        by_cases hq : q = here ++ [name]
        · subst hq
          exact .inr ⟨rfl, hnone, kindAt_put_self hfound name (.folder [])⟩
        · exact .inl (kindAt_put_of_ne hfound (by rw [hnone]; rintro ⟨⟩) (fun _ _ => rfl) hq)
      · have hput : d.root.put (here ++ [name]) (.folder []) = d.root :=
          Node.put_of_not_folder (fun entries hfound => hfolder ⟨entries, hfound⟩) name _
        rw [hput]
        exact .inl rfl

theorem ensureFolder_ok (h : d.ensureFolder p = .ok d') :
    AlikeBut d d' (· = d.place p) nowhere := by
  unfold ensureFolder at h
  split at h
  next hmake =>
    obtain rfl := Except.ok.inj h
    exact makeFolder_ok hmake
  next =>
    split at h
    · obtain rfl := Except.ok.inj h
      exact .refl d _ _
    · cases h

/-- The places that come before the end of a way, and its end. -/
def OnWay (d : Disk) (p : PathName) (q : Place) : Prop :=
  ∃ k, q = d.place ⟨p.anchor, p.parts.take k⟩

theorem onWay_end (d : Disk) (p : PathName) : d.OnWay p (d.place p) :=
  ⟨p.parts.length, by rw [List.take_length]⟩

theorem OnWay.of_prefix {anchor : Anchor} {above parts : List String} {q : Place}
    (h : d.OnWay ⟨anchor, above⟩ q) (hbelow : above <+: parts) : d.OnWay ⟨anchor, parts⟩ q := by
  obtain ⟨k, rfl⟩ := h
  obtain ⟨rest, rfl⟩ := hbelow
  refine ⟨min k above.length, ?_⟩
  rw [List.take_append_of_le_length (Nat.min_le_right k above.length), ← List.take_take,
    List.take_length]

theorem place_congr (h : d'.folder = d.folder) (p : PathName) : d'.place p = d.place p := by
  unfold place start
  rw [h]

theorem onWay_congr (h : d'.folder = d.folder) (p : PathName) : d'.OnWay p = d.OnWay p := by
  funext q
  unfold OnWay
  simp only [place_congr h]

/-- Whether or not all of them can be made, folders are made on the way only. -/
theorem alikeBut_ensureAbove (anchor : Anchor) (levels : Option Nat) (d : Disk) (parts : List String) :
    AlikeBut d (ensureAbove anchor levels d parts).1 (d.OnWay ⟨anchor, parts.reverse⟩) nowhere := by
  have hend {d d' : Disk} {p : PathName} (h : d.ensureFolder p = .ok d') :
      AlikeBut d d' (d.OnWay p) nowhere :=
    (ensureFolder_ok h).mono (fun q hq => hq ▸ d.onWay_end p) fun _ hq => hq
  induction parts generalizing levels d with
  | nil =>
    rw [ensureAbove]
    split
    next hensure => exact hend hensure
    next => exact .refl d _ _
  | cons part above ih =>
    have hreverse : above.reverse <+: (part :: above).reverse := by
      rw [List.reverse_cons]
      exact List.prefix_append _ _
    have habove : AlikeBut d (ensureAbove anchor (levels.map Nat.pred) d above).1
        (d.OnWay ⟨anchor, (part :: above).reverse⟩) nowhere :=
      (ih _ d).mono (fun q hq => hq.of_prefix hreverse) fun _ hq => hq
    rw [ensureAbove]
    split
    next hensure => exact hend hensure
    next =>
      split
      next => exact .refl d _ _
      next =>
        -- the folder above was missing, and is made first
        split
        next hmade =>
          rw [hmade] at habove
          exact habove
        next hmade =>
          rw [hmade] at habove
          split
          next hensure =>
            have hlast := hend hensure
            rw [onWay_congr habove.folder] at hlast
            exact habove.trans hlast
          next => exact habove
    next => exact .refl d _ _

theorem alikeBut_ensureFolders (d : Disk) (p : PathName) (levels : Option Nat) :
    AlikeBut d (d.ensureFolders p levels).1 (d.OnWay p) nowhere := by
  have h := alikeBut_ensureAbove p.anchor levels d p.parts.reverse
  rwa [List.reverse_reverse] at h

/-- With no number of levels, none is missing. -/
theorem ensureAbove_ne_tooDeep (anchor : Anchor) (d : Disk) (parts : List String) :
    (ensureAbove anchor none d parts).2 ≠ some .tooDeep := by
  induction parts generalizing d with
  | nil =>
    rw [ensureAbove]
    split <;> nofun
  | cons part above ih =>
    simp only [ensureAbove, reduceCtorEq, if_false, Option.map_none]
    split
    next => nofun
    next =>
      have habove := ih d
      split
      next hmade => rwa [hmade] at habove
      next => split <;> nofun
    next => nofun

theorem ensureFolders_ne_tooDeep (d : Disk) (p : PathName) : (d.ensureFolders p).2 ≠ some .tooDeep :=
  ensureAbove_ne_tooDeep p.anchor d p.parts.reverse

theorem writeFile_eq_ok_iff {bytes : ByteArray} : d.writeFile p bytes = .ok d' ↔
    ∃ there, d.locate p = .ok there ∧ d.kindAt there ≠ some .folder ∧
      d' = { d with root := d.root.put there (.file bytes) } := by
  unfold writeFile kindAt
  constructor
  · intro h
    obtain ⟨there, hthere, h⟩ := bind_ok h
    refine ⟨there, hthere, ?_⟩
    split at h
    next => cases h
    next hnot =>
      refine ⟨fun hfolder => ?_, (Except.ok.inj h).symm⟩
      obtain ⟨entries, hfound⟩ := Node.kindAt_eq_folder_iff.1 hfolder
      exact hnot entries hfound
  · rintro ⟨there, hthere, hnot, rfl⟩
    rw [hthere]
    simp only [bind, Except.bind]
    split
    next entries hfound => exact absurd (Node.kindAt_eq_folder_iff.2 ⟨entries, hfound⟩) hnot
    next => rfl

theorem writeFile_ok {name : String} {bytes : ByteArray} (hname : name ≠ "..")
    (h : d.writeFile (p.child name) bytes = .ok d') :
    AlikeBut d d' nowhere (· = d.place p ++ [name]) ∧
      d'.kindAt (d.place p ++ [name]) = some (.file bytes) := by
  obtain ⟨there, hthere, hold, rfl⟩ := writeFile_eq_ok_iff.1 h
  obtain ⟨rfl, entries, hfound⟩ := locate_child_ok hname hthere
  refine ⟨⟨rfl, fun q hq => .inl ?_⟩, kindAt_put_self hfound name (.file bytes)⟩
  exact kindAt_put_of_ne hfound hold (fun _ _ => rfl) hq

def sketchPlace (d : Disk) (folder : PathName) (name : String) : Place :=
  d.place folder ++ [name ++ Settings.extension]

/-- What can come of storing a sketch. Nothing but folders is new if it is refused; a sketch that cannot
be encoded leaves an empty file. -/
inductive Saved (d : Disk) (folder : PathName) (name content : String) :
    Disk × Except Failure PathName → Prop
  | refused {d' : Disk} {e : Failure} (hdisk : AlikeBut d d' (d.OnWay folder) nowhere)
      (he : folder.hasNull = true ∧ e = .nullInPath ∨ ∃ text r, e = .unwritable text r) :
      Saved d folder name content (d', .error e)
  | emptied {d' : Disk} {u : Text.Utf8.Unencodable}
      (hdisk : AlikeBut d d' (d.OnWay folder) (· = d.sketchPlace folder name))
      (hfile : d'.kindAt (d.sketchPlace folder name) = some (.file .empty))
      (hcontent : ¬ Text.IsEncodable content) :
      Saved d folder name content (d', .error (.notEncodable u))
  | saved {d' : Disk} (hdisk : AlikeBut d d' (d.OnWay folder) (· = d.sketchPlace folder name))
      (hfile : d'.kindAt (d.sketchPlace folder name) = some (.file content.toUTF8))
      (hcontent : Text.IsEncodable content) :
      Saved d folder name content (d', .ok (folder.child (name ++ Settings.extension)))

variable {folder : PathName} {name : String}

theorem hasNull_child (hname : Char.ofNat 0 ∉ name.toList) :
    (folder.child name).hasNull = folder.hasNull := by
  have hnot : name.toList.contains (Char.ofNat 0) = false := by
    rw [List.contains_eq_mem, decide_eq_false_iff_not]
    exact hname
  simp only [PathName.hasNull, PathName.child, List.any_append, List.any_cons, hnot, List.any_nil,
    Bool.or_false]

theorem parent_child (folder : PathName) (name : String) : (folder.child name).parent = folder := by
  simp [PathName.parent, PathName.child]

theorem extended_ne_up (name : String) : name ++ Settings.extension ≠ ".." := fun h =>
  absurd (h ▸ length_extended name) (by decide)

section PathFault

variable {spelling : Text.Spelling}

theorem isEncodable_text (h : ∀ part ∈ p.parts, Text.IsEncodable part spelling) :
    Text.IsEncodable p.text spelling := by
  have hanchor : Text.IsEncodable p.anchor.text spelling := by
    refine Text.IsEncodable.inSpelling ?_ spelling
    cases p.anchor <;> decide
  have hslash : Text.IsEncodable "/" spelling := Text.IsEncodable.inSpelling (by decide) spelling
  unfold PathName.text
  split
  next => exact Text.IsEncodable.inSpelling (by decide) spelling
  next => exact Text.isEncodable_append.2 ⟨hanchor, Text.isEncodable_intercalate hslash h⟩

theorem pathFault?_of_isEncodable (h : ∀ part ∈ p.parts, Text.IsEncodable part spelling) :
    pathFault? p spelling = if p.hasNull then some .nullInPath else none := by
  rw [pathFault?, Text.Utf8.unencodableInPath?_of_isEncodable (isEncodable_text h)]

theorem pathFault?_plain (p : PathName) :
    pathFault? p .plain = if p.hasNull then some .nullInPath else none :=
  pathFault?_of_isEncodable fun part _ => Text.isEncodable_plain part

theorem hasNull_sketch (hname : Char.ofNat 0 ∉ name.toList) :
    (folder.child (name ++ Settings.extension)).hasNull = folder.hasNull := by
  refine hasNull_child ?_
  rw [String.toList_append, List.mem_append, not_or]
  exact ⟨hname, by decide⟩

end PathFault

theorem writeSketch_of_null (hslash : '/' ∉ name.toList) (d : Disk) (hnull : folder.hasNull = true)
    (content : String) :
    d.writeSketch folder (.text name) content = (d, .error .nullInPath) := by
  unfold writeSketch
  rw [sketchPath_of_no_slash hslash]
  dsimp only
  rw [parent_child, pathFault?_plain, if_pos hnull]

/-- How the storing of a sketch goes: its folder is made, then its file is written. What is refused is told
by the path of the sketch. -/
inductive Attempt (d : Disk) (folder : PathName) (name content : String) (terms : Terms) :
    Disk × Except Failure PathName → Prop
  | noFolder {d' : Disk} {r : Refusal}
      (hmade : d.ensureFolders folder terms.levels = (d', some (.refused r))) :
      Attempt d folder name content terms
        (d', .error (.unwritable (folder.child (name ++ Settings.extension)).text r))
  | tooDeep {d' : Disk} (hmade : d.ensureFolders folder terms.levels = (d', some .tooDeep)) :
      Attempt d folder name content terms (d', .error .tooDeep)
  | noFile {d' : Disk} {r : Refusal} (hmade : d.ensureFolders folder terms.levels = (d', none))
      (hwrite : d'.writeFile (folder.child (name ++ Settings.extension))
        ((Text.Utf8.encode content terms.contents).toOption.getD .empty) = .error r) :
      Attempt d folder name content terms
        (d', .error (.unwritable (folder.child (name ++ Settings.extension)).text r))
  | written {d' d'' : Disk} (hmade : d.ensureFolders folder terms.levels = (d', none))
      (hwrite : d'.writeFile (folder.child (name ++ Settings.extension))
        ((Text.Utf8.encode content terms.contents).toOption.getD .empty) = .ok d'') :
      Attempt d folder name content terms (d'', ((Text.Utf8.encode content terms.contents).map fun _ =>
        folder.child (name ++ Settings.extension)).mapError .notEncodable)

/-- A sketch that is written is a file in its folder, and nothing else but folders is new. -/
theorem alikeBut_of_written {d'' : Disk} {levels : Option Nat} {bytes : ByteArray}
    (hmade : d.ensureFolders folder levels = (d', none))
    (hwrite : d'.writeFile (folder.child (name ++ Settings.extension)) bytes = .ok d'') :
    AlikeBut d d'' (d.OnWay folder) (· = d.sketchPlace folder name) ∧
      d''.kindAt (d.sketchPlace folder name) = some (.file bytes) := by
  have hfolders := alikeBut_ensureFolders d folder levels
  rw [hmade] at hfolders
  obtain ⟨hdisk, hfile⟩ := writeFile_ok (extended_ne_up name) hwrite
  rw [place_congr hfolders.folder] at hdisk hfile
  exact ⟨(hfolders.mono (fun _ hq => hq) fun _ hq => hq.elim).trans
    (hdisk.mono (fun _ hq => hq.elim) fun _ hq => hq), hfile⟩

section Taken

variable (terms : Terms) (hslash : '/' ∉ name.toList)
  (hfolder : pathFault? folder terms.paths = none)
  (hpath : pathFault? (folder.child (name ++ Settings.extension)) terms.paths = none)

include hslash hfolder hpath

/-- The path of a sketch is its folder with the name of the sketch as the last part. -/
theorem writeSketch_eq (d : Disk) (content : String) :
    d.writeSketch folder (.text name) content terms =
      match d.ensureFolders folder terms.levels with
      | (d', some (.refused r)) =>
        (d', .error (.unwritable (folder.child (name ++ Settings.extension)).text r))
      | (d', some .tooDeep) => (d', .error .tooDeep)
      | (d', none) =>
        match d'.writeFile (folder.child (name ++ Settings.extension))
            ((Text.Utf8.encode content terms.contents).toOption.getD .empty) with
        | .error r => (d', .error (.unwritable (folder.child (name ++ Settings.extension)).text r))
        | .ok d'' => (d'', ((Text.Utf8.encode content terms.contents).map fun _ =>
            folder.child (name ++ Settings.extension)).mapError .notEncodable) := by
  unfold writeSketch
  rw [sketchPath_of_no_slash hslash]
  dsimp only
  rewrite [parent_child, hfolder, hpath]
  rfl

theorem attempt_writeSketch (d : Disk) (content : String) :
    Attempt d folder name content terms (d.writeSketch folder (.text name) content terms) := by
  rw [writeSketch_eq terms hslash hfolder hpath d]
  split
  next hmade => exact .noFolder hmade
  next hmade => exact .tooDeep hmade
  next hmade =>
    split
    next hwrite => exact .noFile hmade hwrite
    next hwrite => exact .written hmade hwrite

end Taken

section Plain

variable (hslash : '/' ∉ name.toList) (hname : Char.ofNat 0 ∉ name.toList)

include hslash hname

theorem saved_writeSketch_of_plain (d : Disk) (folder : PathName) (content : String) :
    Saved d folder name content (d.writeSketch folder (.text name) content) := by
  cases hnull : folder.hasNull with
  | true =>
    rw [writeSketch_of_null hslash d hnull]
    exact .refused (.refl d _ _) (.inl ⟨hnull, rfl⟩)
  | false =>
    have hfolder : pathFault? folder .plain = none := by
      rw [pathFault?_plain, hnull]
      rfl
    have hpath : pathFault? (folder.child (name ++ Settings.extension)) .plain = none := by
      rw [pathFault?_plain, hasNull_sketch hname, hnull]
      rfl
    have hfolders := alikeBut_ensureFolders d folder none
    have hattempt := attempt_writeSketch {} hslash hfolder hpath d content
    generalize d.writeSketch folder (.text name) content = after at hattempt ⊢
    cases hattempt with
    | noFolder hmade =>
      rw [hmade] at hfolders
      exact .refused hfolders (.inr ⟨_, _, rfl⟩)
    | tooDeep hmade => exact absurd (congrArg Prod.snd hmade) (ensureFolders_ne_tooDeep d folder)
    | noFile hmade =>
      rw [hmade] at hfolders
      exact .refused hfolders (.inr ⟨_, _, rfl⟩)
    | written hmade hwrite =>
      obtain ⟨hdisk, hfile⟩ := alikeBut_of_written hmade hwrite
      by_cases hcontent : Text.IsEncodable content
      · rw [Text.Utf8.encode_of_isEncodable hcontent] at hfile ⊢
        exact .saved hdisk hfile hcontent
      · obtain ⟨u, hu⟩ := Text.Utf8.encode_error_of_not hcontent
        rw [hu] at hfile ⊢
        exact .emptied hdisk hfile hcontent

end Plain

theorem saved_writeSketch (hname : Text.acceptsWord name = true) (d : Disk) (folder : PathName)
    (content : String) :
    Saved d folder name content (d.writeSketch folder (.text name) content) :=
  saved_writeSketch_of_plain (Text.not_mem_of_acceptsWord hname (by decide) (by decide))
    (Text.not_mem_of_acceptsWord hname (by decide) (by decide)) d folder content

end FirmataSketch.Disk
