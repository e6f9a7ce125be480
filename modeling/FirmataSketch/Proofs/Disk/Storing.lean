import FirmataSketch.Proofs.Disk.Levels

/-! Storing sketches: on every disk, a sketch is stored exactly if nothing is in its way and there are
levels enough for the missing folders, and no file but its own is touched. Storing it twice is storing
it once, with the last content. -/

namespace FirmataSketch.Disk

variable {d d' : Disk} {p folder : PathName} {name part content : String} {bytes : ByteArray}
  {terms : Terms}

/-- The names of a folder and of a sketch in it lead downwards, and the system has a form for them. -/
structure WellNamed (paths : Text.Spelling) (folder : PathName) (name : String) : Prop where
  up : ".." ∉ folder.parts
  slash : '/' ∉ name.toList
  folderNull : folder.hasNull = false
  nameNull : Char.ofNat 0 ∉ name.toList
  folderSpelled : ∀ part ∈ folder.parts, Text.IsEncodable part paths
  nameSpelled : Text.IsEncodable name paths

theorem WellNamed.pathFault?_folder {paths : Text.Spelling} (h : WellNamed paths folder name) :
    pathFault? folder paths = none := by
  rw [pathFault?_of_isEncodable h.folderSpelled, h.folderNull]
  rfl

theorem WellNamed.pathFault?_sketch {paths : Text.Spelling} (h : WellNamed paths folder name) :
    pathFault? (folder.child (name ++ Settings.extension)) paths = none := by
  have hname : Text.IsEncodable (name ++ Settings.extension) paths :=
    Text.isEncodable_append.2 ⟨h.nameSpelled, Text.IsEncodable.inSpelling (by decide) paths⟩
  have hparts : ∀ part ∈ (folder.child (name ++ Settings.extension)).parts,
      Text.IsEncodable part paths := by
    intro part hpart
    rcases List.mem_append.1 hpart with hpart | hpart
    · exact h.folderSpelled part hpart
    · rwa [List.mem_singleton.1 hpart]
  rw [pathFault?_of_isEncodable hparts, hasNull_sketch h.nameNull, h.folderNull]
  rfl

/-- Nothing on the disk is in the way of a sketch, and no name is too long. -/
structure IsUnobstructed (d : Disk) (folder : PathName) (name : String) : Prop where
  way : ∀ q, d.OnWay folder q → ∀ bytes, d.kindAt q ≠ some (.file bytes)
  short : ∀ part ∈ folder.parts, part.utf8ByteSize ≤ maxNameBytes
  file : d.kindAt (d.sketchPlace folder name) ≠ some .folder
  fileName : (name ++ Settings.extension).utf8ByteSize ≤ maxNameBytes

/-- The way to a sketch is clear, and its whole path name is not too long either. -/
structure IsClear (d : Disk) (folder : PathName) (name : String) : Prop
    extends IsUnobstructed d folder name where
  pathName : (folder.child (name ++ Settings.extension)).text.utf8ByteSize ≤ maxPathBytes

/-- What is in a folder is not on the way to it. -/
theorem not_onWay_child (hup : ".." ∉ p.parts) : ¬ d.OnWay p (d.place p ++ [part]) := by
  intro h
  have hlength := (h.isPrefix hup).length_le
  rw [List.length_append, List.length_singleton] at hlength
  exact absurd hlength (Nat.not_succ_le_self _)

/-- Making folders on the way to a folder changes nothing in it. -/
theorem AlikeBut.kindAt_child (h : AlikeBut d d' (d.OnWay p) nowhere) (hup : ".." ∉ p.parts)
    (part : String) : d'.kindAt (d.place p ++ [part]) = d.kindAt (d.place p ++ [part]) := by
  rcases h.alike _ id with hsame | ⟨hway, -⟩
  · exact hsame
  · exact absurd hway (not_onWay_child hup)

section Folder

variable (hup : ".." ∉ p.parts) (hpart : part ≠ "..") (hfolder : d.isFolder p = true)

include hup hpart hfolder

theorem locate_child_iff {there : Place} : d.locate (p.child part) = .ok there ↔
    part.utf8ByteSize ≤ maxNameBytes ∧ (p.child part).text.utf8ByteSize ≤ maxPathBytes ∧
      there = d.place p ++ [part] := by
  have hparts : (p.child part).parts = p.parts ++ [part] := rfl
  have hchild : ".." ∉ (p.child part).parts := by
    rw [hparts, List.mem_append, List.mem_singleton, not_or]
    exact ⟨hup, Ne.symm hpart⟩
  obtain ⟨-, hshort, hway⟩ := (isFolder_iff hup).1 hfolder
  rw [locate_eq_ok_iff hchild, place_child hchild]
  constructor
  · rintro ⟨htext, hall, rfl⟩
    exact ⟨hall.short part (List.mem_append_right _ (List.mem_singleton_self part)), htext, rfl⟩
  · rintro ⟨hlast, htext, rfl⟩
    refine ⟨htext, ⟨fun k hk => ?_, fun part' hpart' => ?_⟩, rfl⟩
    · rw [hparts, List.length_append, List.length_singleton] at hk
      rw [hparts, List.take_append_of_le_length (Nat.le_of_lt_succ hk)]
      exact hway _ ((onWay_iff hup).2 ⟨k, rfl⟩)
    · rw [hparts, List.mem_append, List.mem_singleton] at hpart'
      rcases hpart' with hpart' | rfl
      · exact hshort part' hpart'
      · exact hlast

theorem exists_writeFile_iff : (∃ d', d.writeFile (p.child part) bytes = .ok d') ↔
    part.utf8ByteSize ≤ maxNameBytes ∧ (p.child part).text.utf8ByteSize ≤ maxPathBytes ∧
      d.kindAt (d.place p ++ [part]) ≠ some .folder := by
  simp only [writeFile_eq_ok_iff, locate_child_iff hup hpart hfolder]
  constructor
  · rintro ⟨d', there, ⟨hshort, htext, rfl⟩, hnot, -⟩
    exact ⟨hshort, htext, hnot⟩
  · rintro ⟨hshort, htext, hnot⟩
    exact ⟨_, _, ⟨hshort, htext, rfl⟩, hnot, rfl⟩

/-- A file in a folder leaves the folder where it is. -/
theorem isFolder_of_writeFile (h : d.writeFile (p.child part) bytes = .ok d') :
    d'.isFolder p = true := by
  obtain ⟨halike, -⟩ := writeFile_ok hpart h
  obtain ⟨htext, hshort, hway⟩ := (isFolder_iff hup).1 hfolder
  rw [isFolder_iff hup, onWay_congr halike.folder]
  refine ⟨htext, hshort, fun q hq => halike.kindAt_folder (fun hfile => ?_) (hway q hq)⟩
  exact not_onWay_child hup (hfile ▸ hq)

/-- Writing a file once more is writing the last content alone. -/
theorem writeFile_writeFile (h : d.writeFile (p.child part) bytes = .ok d') (bytes' : ByteArray) :
    ∃ d'', d'.writeFile (p.child part) bytes' = .ok d'' ∧
      d.writeFile (p.child part) bytes' = .ok d'' := by
  have hfolder' := isFolder_of_writeFile hup hpart hfolder h
  obtain ⟨halike, hfile⟩ := writeFile_ok hpart h
  obtain ⟨there, hthere, hnot, rfl⟩ := writeFile_eq_ok_iff.1 h
  obtain ⟨hshort, htext, rfl⟩ := (locate_child_iff hup hpart hfolder).1 hthere
  refine ⟨_, writeFile_eq_ok_iff.2 ⟨_, (locate_child_iff hup hpart hfolder').2 ⟨hshort, htext, rfl⟩,
    ?_, rfl⟩, writeFile_eq_ok_iff.2 ⟨_, hthere, hnot, ?_⟩⟩
  · rw [place_congr halike.folder, hfile]
    rintro ⟨⟩
  · rw [place_congr halike.folder, Node.put_put]

end Folder

section Sketch

theorem kindAt_start (hfolder : d.kindAt d.folder = some .folder) (anchor : Anchor) :
    d.kindAt (d.start anchor) = some .folder := by
  rw [start]
  split
  · exact hfolder
  · by_contra hroot
    by_cases hsame : d.folder = []
    · exact hroot (hsame ▸ hfolder)
    · have hnone : d.kindAt d.folder = none := kindAt_below hroot List.nil_prefix hsame
      cases hnone.symm.trans hfolder

theorem IsClear.isOpen (h : d.IsClear folder name) : d.IsOpen folder :=
  ⟨h.way, h.short, text_short_of_concat h.pathName⟩

variable (hfolder : d.kindAt d.folder = some .folder) (hnames : WellNamed terms.paths folder name)

include hfolder hnames

/-- Once its folder is there, a sketch can be written exactly if its way was clear. -/
theorem exists_written_iff (hmade : d.ensureFolders folder terms.levels = (d', none)) :
    (∃ d'', d'.writeFile (folder.child (name ++ Settings.extension)) bytes = .ok d'') ↔
      d.IsClear folder name := by
  have hstart := kindAt_start hfolder folder.anchor
  have halike := alikeBut_ensureFolders d folder terms.levels
  rw [hmade] at halike
  obtain ⟨hway, hshort, -⟩ := isOpen_of_made hnames.up hstart hmade
  have hthere := isFolder_of_ensureFolders hnames.up hstart hmade
  rw [exists_writeFile_iff hnames.up (extended_ne_up name) hthere, place_congr halike.folder,
    halike.kindAt_child hnames.up]
  exact ⟨fun ⟨hfileName, htext, hfile⟩ => ⟨⟨hway, hshort, hfile, hfileName⟩, htext⟩,
    fun h => ⟨h.fileName, h.pathName, h.file⟩⟩

/-- Storing a sketch twice is storing it once, with the last content. -/
theorem writeSketch_writeSketch (earlier content : String) :
    (d.writeSketch folder (.text name) earlier terms).1.writeSketch folder (.text name) content terms =
      d.writeSketch folder (.text name) content terms := by
  have hstart := kindAt_start hfolder folder.anchor
  simp only [writeSketch_eq terms hnames.slash hnames.pathFault?_folder hnames.pathFault?_sketch]
  cases hmade : d.ensureFolders folder terms.levels with
  | mk d' obstacle =>
    have hagain := ensureFolders_twice hnames.up hstart hmade
    cases obstacle with
    | some o => cases o <;> simp only [hagain]
    | none =>
      have hthere := isFolder_of_ensureFolders hnames.up hstart hmade
      dsimp only
      cases hwrite : d'.writeFile (folder.child (name ++ Settings.extension))
          ((Text.Utf8.encode earlier terms.contents).toOption.getD .empty) with
      | error r => simp only [hagain]
      | ok d'' =>
        have hthere' := isFolder_of_writeFile hnames.up (extended_ne_up name) hthere hwrite
        obtain ⟨d₁, hlast, honce⟩ := writeFile_writeFile hnames.up (extended_ne_up name) hthere
          hwrite ((Text.Utf8.encode content terms.contents).toOption.getD .empty)
        simp only [ensureFolders_of_isFolder hthere', hlast, honce]

theorem onWay_of_written {d'' : Disk} (hmade : d.ensureFolders folder terms.levels = (d', none))
    (hwrite : d'.writeFile (folder.child (name ++ Settings.extension)) bytes = .ok d'') :
    ∀ q, d.OnWay folder q → d''.kindAt q = some .folder := by
  intro q hq
  have hthere := isFolder_of_ensureFolders hnames.up (kindAt_start hfolder folder.anchor) hmade
  have hthere' := isFolder_of_writeFile hnames.up (extended_ne_up name) hthere hwrite
  rw [isFolder_iff hnames.up, onWay_congr (alikeBut_of_written hmade hwrite).1.folder] at hthere'
  exact hthere'.2.2 q hq

end Sketch

/-- A sketch is stored exactly if nothing is in its way, its path name is not too long and there are levels
enough for the missing folders. Its file then has the content, and nothing else changes but for the
folders that were missing on the way. A sketch with something in its way is refused, told by its path, and
changes no file; without levels enough, nothing changes at all. The next sketch of the name is stored, or
refused, as if it were the first one. -/
theorem writeSketch_stores {d : Disk} {folder : PathName} {name content : String} {terms : Terms}
    (hfolder : d.kindAt d.folder = some .folder) (hnames : WellNamed terms.paths folder name)
    (hcontent : Text.IsEncodable content terms.contents) {d' : Disk}
    {outcome : Except Failure PathName}
    (h : d.writeSketch folder (.text name) content terms = (d', outcome)) :
    (outcome = .ok (folder.child (name ++ Settings.extension)) ↔
      d.IsClear folder name ∧ Suffices terms.levels (d.missingAbove folder)) ∧
    (∀ path, outcome = .ok path → path = folder.child (name ++ Settings.extension) ∧
      AlikeBut d d' (d.OnWay folder) (· = d.sketchPlace folder name) ∧
      (∀ q, d.OnWay folder q → d'.kindAt q = some .folder) ∧
      d'.kindAt (d.sketchPlace folder name) = some (.file content.toUTF8)) ∧
    (∀ e, outcome = .error e →
      (¬ d.IsClear folder name ∧
        (∃ r, e = .unwritable (folder.child (name ++ Settings.extension)).text r) ∧
        AlikeBut d d' (d.OnWay folder) nowhere) ∨
      ¬ Suffices terms.levels (d.missingAbove folder) ∧ e = .tooDeep ∧ d' = d) ∧
    ∀ next, d'.writeSketch folder (.text name) next terms =
      d.writeSketch folder (.text name) next terms := by
  have hstart := kindAt_start hfolder folder.anchor
  have htwice := writeSketch_writeSketch hfolder hnames content
  have hattempt := attempt_writeSketch terms hnames.slash hnames.pathFault?_folder
    hnames.pathFault?_sketch d content
  have hfolders := alikeBut_ensureFolders d folder terms.levels
  rw [h] at htwice hattempt
  cases hattempt with
  | noFolder hmade =>
    have hnot : ¬ d.IsClear folder name := fun hclear =>
      not_isOpen_of_refused hnames.up hstart hmade hclear.isOpen
    rw [hmade] at hfolders
    refine ⟨iff_of_false nofun fun hclear => hnot hclear.1, nofun, fun e he => .inl ?_, htwice⟩
    exact ⟨hnot, ⟨_, (Except.error.inj he).symm⟩, hfolders⟩
  | tooDeep hmade =>
    obtain ⟨hsame, hlevels⟩ := ensureFolders_tooDeep hnames.up hmade
    refine ⟨iff_of_false nofun fun hclear => hlevels hclear.2, nofun, fun e he => .inr ?_, htwice⟩
    exact ⟨hlevels, (Except.error.inj he).symm, hsame⟩
  | noFile hmade hwrite =>
    have hnot : ¬ d.IsClear folder name := by
      rw [← exists_written_iff hfolder hnames hmade, hwrite]
      rintro ⟨_, ⟨⟩⟩
    rw [hmade] at hfolders
    refine ⟨iff_of_false nofun fun hclear => hnot hclear.1, nofun, fun e he => .inl ?_, htwice⟩
    exact ⟨hnot, ⟨_, (Except.error.inj he).symm⟩, hfolders⟩
  | written hmade hwrite =>
    have hclear := (exists_written_iff hfolder hnames hmade).1 ⟨_, hwrite⟩
    have hlevels := ((ensureFolders_eq_none_iff hnames.up hstart).1 (congrArg Prod.snd hmade)).2
    obtain ⟨hdisk, hfile⟩ := alikeBut_of_written hmade hwrite
    rw [Text.Utf8.encode_of_isEncodable hcontent] at hfile ⊢
    refine ⟨iff_of_true rfl ⟨hclear, hlevels⟩, fun path hpath => ?_, nofun, htwice⟩
    exact ⟨(Except.ok.inj hpath).symm, hdisk, onWay_of_written hfolder hnames hmade hwrite, hfile⟩

/-- The working folder has a note in it. -/
def notedDisk : Disk := ⟨.folder [("home", .folder [("note", .file "text".toUTF8)])], ["home"]⟩

/-- One missing folder may lie above another. -/
def shallow : Terms := { levels := some 1, paths := .document }

/-- A sketch is stored beside the note, which stays as it is, but neither below it nor too deep. -/
theorem writeSketch_stores_notedDisk :
    notedDisk.IsClear ⟨.here, ["out", "lamp"]⟩ "Lamp" ∧
    ¬ notedDisk.IsClear ⟨.here, ["note", "lamp"]⟩ "Lamp" ∧
    ¬ Suffices shallow.levels (notedDisk.missingAbove ⟨.here, ["a", "b", "c"]⟩) ∧
    ∃ d', notedDisk.writeSketch ⟨.here, ["out", "lamp"]⟩ (.text "Lamp") "void" shallow =
        (d', .ok ⟨.here, ["out", "lamp", "Lamp.ino"]⟩) ∧
      d'.kindAt ["home", "out", "lamp", "Lamp.ino"] = some (.file "void".toUTF8) ∧
      d'.kindAt ["home", "note"] = some (.file "text".toUTF8) ∧
      d'.writeSketch ⟨.here, ["out", "lamp"]⟩ (.text "Lamp") "loop" shallow =
        notedDisk.writeSketch ⟨.here, ["out", "lamp"]⟩ (.text "Lamp") "loop" shallow := by
  have hstored : notedDisk.writeSketch ⟨.here, ["out", "lamp"]⟩ (.text "Lamp") "void" shallow =
      (_, .ok ⟨.here, ["out", "lamp", "Lamp.ino"]⟩) := rfl
  have hrefused : notedDisk.writeSketch ⟨.here, ["note", "lamp"]⟩ (.text "Lamp") "void" shallow =
      (notedDisk, .error (.unwritable "note/lamp/Lamp.ino" .notFolder)) := rfl
  have hdeep : notedDisk.writeSketch ⟨.here, ["a", "b", "c"]⟩ (.text "Lamp") "void" shallow =
      (notedDisk, .error .tooDeep) := rfl
  obtain ⟨hok, hthere, -, hnext⟩ := writeSketch_stores rfl
    ⟨by decide, by decide, by decide, by decide, by decide, by decide⟩ (by decide) hstored
  obtain ⟨-, -, hnot, -⟩ := writeSketch_stores rfl
    ⟨by decide, by decide, by decide, by decide, by decide, by decide⟩ (by decide) hrefused
  obtain ⟨-, -, hshort, -⟩ := writeSketch_stores rfl
    ⟨by decide, by decide, by decide, by decide, by decide, by decide⟩ (by decide) hdeep
  obtain ⟨-, halike, -, hfile⟩ := hthere _ rfl
  have hnote : ¬ ["home", "note"] = notedDisk.sketchPlace ⟨.here, ["out", "lamp"]⟩ "Lamp" := by decide
  refine ⟨(hok.1 rfl).1, ?_, ?_, _, hstored, hfile, (halike.file_iff hnote _).2 rfl, hnext "loop"⟩
  · rcases hnot _ rfl with ⟨h, -⟩ | ⟨-, h, -⟩
    · exact h
    · cases h
  · rcases hshort _ rfl with ⟨-, ⟨r, h⟩, -⟩ | ⟨h, -⟩
    · cases h
    · exact h

/-- A disk with nothing but its root, which is the working folder. -/
def bareDisk : Disk := ⟨.folder [], []⟩

theorem kindAt_bareDisk (q : Place) : bareDisk.kindAt q = if q = [] then some .folder else none := by
  cases q <;> rfl

theorem isUnobstructed_bareDisk (hshort : ∀ part ∈ folder.parts, part.utf8ByteSize ≤ maxNameBytes)
    (hname : (name ++ Settings.extension).utf8ByteSize ≤ maxNameBytes) :
    bareDisk.IsUnobstructed folder name := by
  refine ⟨fun q _ bytes hfile => ?_, hshort, ?_, hname⟩
  · rw [kindAt_bareDisk] at hfile
    split at hfile <;> cases hfile
  · rw [kindAt_bareDisk, if_neg (by simp [sketchPlace])]
    rintro ⟨⟩

/-- The names are short, but there are many. -/
def longFolder : PathName := ⟨.here, List.replicate 17 (String.ofList (List.replicate 250 'a'))⟩

/-- The path name is short, but leads through many folders. -/
def deepFolder : PathName := ⟨.here, List.replicate 1000 "a"⟩

theorem writeSketch_longFolder : bareDisk.writeSketch longFolder (.text "Lamp") "" = (bareDisk,
    .error (.unwritable (longFolder.child "Lamp.ino").text .nameTooLong)) := by
  have hnull : longFolder.hasNull = false := by
    refine List.any_eq_false.2 fun part hpart => ?_
    rw [List.eq_of_mem_replicate hpart, String.toList_ofList]
    decide
  have hnames : WellNamed .plain longFolder "Lamp" :=
    ⟨by decide +kernel, by decide, hnull, by decide, fun part _ => Text.isEncodable_plain part,
      Text.isEncodable_plain "Lamp"⟩
  have hlocate : bareDisk.locate longFolder = .error .nameTooLong := if_pos (by decide +kernel)
  have hfolders : bareDisk.ensureFolders longFolder = (bareDisk, some (.refused .nameTooLong)) := by
    refine ensureAbove_of_error ?_ (by decide)
    rw [List.reverse_reverse]
    exact ensureFolder_of_locate_error hlocate
  rw [writeSketch_eq {} hnames.slash hnames.pathFault?_folder hnames.pathFault?_sketch]
  simp only [hfolders]
  rfl

theorem up_not_mem_replicate (n : Nat) : ".." ∉ List.replicate n "a" := fun h =>
  absurd (List.eq_of_mem_replicate h) (by decide)

theorem missingAbove_replicate (n : Nat) :
    bareDisk.missingAbove ⟨.here, List.replicate (n + 1) "a"⟩ = n := by
  induction n with
  | zero => rfl
  | succ n ih =>
    have hchild : (⟨.here, List.replicate (n + 2) "a"⟩ : PathName) =
        PathName.child ⟨.here, List.replicate (n + 1) "a"⟩ "a" := by
      rw [PathName.child, ← List.replicate_succ']
    have hplace : bareDisk.place ⟨.here, List.replicate (n + 1) "a"⟩ ≠ [] := by
      rw [place_eq_append (up_not_mem_replicate _)]
      exact List.cons_ne_nil _ _
    rw [hchild, missingAbove_child, ih, kindAt_bareDisk, if_neg hplace, if_pos rfl]

theorem intercalate_replicate_size (n : Nat) (part : String) :
    (String.intercalate "/" (List.replicate n "a" ++ [part])).utf8ByteSize =
      2 * n + part.utf8ByteSize := by
  have ha : "a".utf8ByteSize = 1 := rfl
  have hslash : "/".utf8ByteSize = 1 := rfl
  induction n with
  | zero => rw [List.replicate_zero, List.nil_append, String.intercalate_singleton, Nat.zero_add]
  | succ n ih =>
    have hparts : List.replicate n "a" ++ [part] ≠ [] :=
      List.append_ne_nil_of_right_ne_nil _ (List.cons_ne_nil _ _)
    obtain ⟨l, ls, hls⟩ := List.exists_cons_of_ne_nil hparts
    rw [hls] at ih
    rw [List.replicate_succ, List.cons_append, hls, String.intercalate_cons_cons,
      String.utf8ByteSize_append, String.utf8ByteSize_append, ih]
    omega

theorem child_replicate_size (n : Nat) (part : String) :
    ((⟨.here, List.replicate n "a"⟩ : PathName).child part).text.utf8ByteSize =
      2 * n + part.utf8ByteSize := by
  have hparts : List.replicate n "a" ++ [part] ≠ [] :=
    List.append_ne_nil_of_right_ne_nil _ (List.cons_ne_nil _ _)
  have hanchor : (⟨.here, List.replicate n "a"⟩ : PathName).anchor.text.utf8ByteSize = 0 := rfl
  rw [PathName.child, text_eq hparts, String.utf8ByteSize_append, intercalate_replicate_size, hanchor,
    Nat.zero_add]

section Replicate

variable {n : Nat}

theorem wellNamed_replicate (n : Nat) : WellNamed .plain ⟨.here, List.replicate n "a"⟩ "Lamp" := by
  refine ⟨up_not_mem_replicate n, by decide, List.any_eq_false.2 fun part hpart => ?_, by decide,
    fun part _ => Text.isEncodable_plain part, Text.isEncodable_plain "Lamp"⟩
  rw [List.eq_of_mem_replicate hpart]
  decide

theorem isClear_replicate (h : 2 * n + 8 ≤ maxPathBytes) :
    bareDisk.IsClear ⟨.here, List.replicate n "a"⟩ "Lamp" := by
  have hshort : ∀ part ∈ List.replicate n "a", part.utf8ByteSize ≤ maxNameBytes := fun part hpart => by
    rw [List.eq_of_mem_replicate hpart]
    decide
  exact ⟨isUnobstructed_bareDisk hshort (by decide), (child_replicate_size n _).trans_le h⟩

theorem writeSketch_replicate {levels : Nat} (h : 2 * (n + 1) + 8 ≤ maxPathBytes) (hlt : levels < n) :
    bareDisk.writeSketch ⟨.here, List.replicate (n + 1) "a"⟩ (.text "Lamp") ""
      { levels := some levels } = (bareDisk, .error .tooDeep) := by
  have hnames := wellNamed_replicate (n + 1)
  have hfolders : bareDisk.ensureFolders ⟨.here, List.replicate (n + 1) "a"⟩ (some levels) =
      (bareDisk, some .tooDeep) := by
    refine ensureFolders_of_not_suffices hnames.up rfl (isClear_replicate h).isOpen fun hlevels => ?_
    have hle := hlevels levels rfl
    rw [missingAbove_replicate n] at hle
    exact absurd hlt (Nat.not_lt.2 hle)
  rw [writeSketch_eq { levels := some levels } hnames.slash hnames.pathFault?_folder
    hnames.pathFault?_sketch]
  simp only [hfolders]

end Replicate

/-- A sketch that nothing is in the way of is refused if its whole path name is too long, if there is a
null character in it, or if more folders are missing above one another than there are levels for. With a
surrogate in its folder, its name or its content it is not stored either. -/
theorem refused_though_unobstructed :
    (".." ∉ longFolder.parts ∧ bareDisk.IsUnobstructed longFolder "Lamp" ∧
      bareDisk.writeSketch longFolder (.text "Lamp") "" = (bareDisk,
        .error (.unwritable (longFolder.child "Lamp.ino").text .nameTooLong))) ∧
    (bareDisk.IsUnobstructed ⟨.here, ["\x00"]⟩ "Lamp" ∧
      bareDisk.writeSketch ⟨.here, ["\x00"]⟩ (.text "Lamp") "" = (bareDisk, .error .nullInPath)) ∧
    (".." ∉ deepFolder.parts ∧ bareDisk.IsClear deepFolder "Lamp" ∧
      bareDisk.writeSketch deepFolder (.text "Lamp") "" { levels := some 990 } =
        (bareDisk, .error .tooDeep)) ∧
    (bareDisk.IsUnobstructed ⟨.here, [Text.loneSurrogate]⟩ "Lamp" ∧
      ∃ u, bareDisk.writeSketch ⟨.here, [Text.loneSurrogate]⟩ (.text "Lamp") "" { paths := .document } =
        (bareDisk, .error (.notEncodable u))) ∧
    (bareDisk.IsUnobstructed ⟨.here, []⟩ Text.loneSurrogate ∧
      ∃ u, bareDisk.writeSketch ⟨.here, []⟩ (.text Text.loneSurrogate) "" { paths := .document } =
        (bareDisk, .error (.notEncodable u))) ∧
    bareDisk.IsUnobstructed ⟨.here, []⟩ "Lamp" ∧
      ∃ u, (bareDisk.writeSketch ⟨.here, []⟩ (.text "Lamp") Text.loneSurrogate).2 =
        .error (.notEncodable u) := by
  have hlong : bareDisk.IsUnobstructed longFolder "Lamp" :=
    isUnobstructed_bareDisk (by decide +kernel) (by decide)
  have hdeep : bareDisk.IsClear deepFolder "Lamp" := isClear_replicate (by decide)
  have hfolder : bareDisk.IsUnobstructed ⟨.here, [Text.loneSurrogate]⟩ "Lamp" :=
    isUnobstructed_bareDisk (by decide) (by decide)
  refine ⟨⟨by decide +kernel, hlong, writeSketch_longFolder⟩, ?_,
    ⟨up_not_mem_replicate 1000, hdeep, writeSketch_replicate (by decide) (by decide)⟩,
    ⟨hfolder, _, rfl⟩, ?_, ?_⟩
  · exact ⟨isUnobstructed_bareDisk (by decide) (by decide), rfl⟩
  · exact ⟨isUnobstructed_bareDisk (by decide) (by decide), _, rfl⟩
  · exact ⟨isUnobstructed_bareDisk (by decide) (by decide), _, rfl⟩

end FirmataSketch.Disk
