import FirmataSketch.Proofs.Sketch.Growth
import FirmataSketch.Proofs.Text.Common
import FirmataSketch.Proofs.Text.Word

/-! Banners: the comment with which a sketch begins. It is the only part of a sketch that depends on
the time, and it has four lines unless the name of the sketch ends with a line end. -/

namespace FirmataSketch

open Text (IsLine CommonBut commonBut_append commonBut_padded commonBut_decimal)

namespace Clock

variable {parts : List String}

theorem Date.commonBut_entry {names : List String}
    (h : (names.all fun s => s.toList.all fun c => decide (Text.IsCommon c)) = true) (n : Nat) :
    CommonBut parts (names.getD n "") := by
  rw [List.getD_eq_getElem?_getD]
  cases hn : names[n]? with
  | none => exact .of_all rfl
  | some name => exact .of_all (List.all_eq_true.1 h name (List.mem_of_getElem? hn))

theorem Zone.commonBut_offsetText {separator : String} (h : CommonBut parts separator)
    (offset : Int) : CommonBut parts (Zone.offsetText separator offset) := by
  have hsign : CommonBut parts (if offset < 0 then "-" else "+") := by
    split <;> exact .of_all (by decide)
  have hseconds : CommonBut parts (if offset.natAbs % 60 = 0 then ""
      else separator ++ Text.padded 2 (offset.natAbs % 60)) := by
    split
    · exact .of_all rfl
    · exact commonBut_append.2 ⟨h, commonBut_padded parts 2 _⟩
  simp only [Zone.offsetText, commonBut_append, hsign, h, commonBut_padded, hseconds, and_self]

/-- A full stamp up to the name of its zone. -/
def Moment.beforeZone (m : Moment) : String :=
  m.wall.date.weekdayName ++ " " ++ m.wall.date.monthName ++ " " ++ Text.padded 2 m.wall.date.day ++
    " " ++ Text.decimal m.wall.date.year ++ " " ++ Text.padded 2 m.wall.hour ++ ":" ++
    Text.padded 2 m.wall.minute ++ ":" ++ Text.padded 2 m.wall.second ++ " GMT" ++
    Zone.offsetText "" m.zone.offset ++ " ("

theorem Moment.fullStamp_eq (m : Moment) : m.fullStamp = m.beforeZone ++ m.zone.name ++ ")" := rfl

theorem Moment.commonBut_beforeZone (m : Moment) : CommonBut parts m.beforeZone := by
  have hweekday : CommonBut parts m.wall.date.weekdayName := Date.commonBut_entry (by decide) _
  have hmonth : CommonBut parts m.wall.date.monthName := Date.commonBut_entry (by decide) _
  have hoffset : CommonBut parts (Zone.offsetText "" m.zone.offset) :=
    Zone.commonBut_offsetText (.of_all rfl) _
  have hspace : CommonBut parts " " := .of_all (by decide)
  have hcolon : CommonBut parts ":" := .of_all (by decide)
  have hgmt : CommonBut parts " GMT" := .of_all (by decide)
  have hopen : CommonBut parts " (" := .of_all (by decide)
  unfold Moment.beforeZone
  simp only [commonBut_append, commonBut_padded, commonBut_decimal, and_true, and_assoc]
  exact ⟨hweekday, hspace, hmonth, hspace, hspace, hspace, hcolon, hcolon, hgmt, hoffset, hopen⟩

/-- Only the name of a zone brings other than common characters into a stamp. -/
theorem Moment.commonBut_stamp (m : Moment) : CommonBut [m.zone.name] m.stamp := by
  have hzone : CommonBut [m.zone.name] m.zone.name := .of_mem (List.mem_singleton_self _)
  have hclose : CommonBut [m.zone.name] ")" := .of_all (by decide)
  have hfull : CommonBut [m.zone.name] m.fullStamp := by
    rw [m.fullStamp_eq, commonBut_append, commonBut_append]
    exact ⟨⟨m.commonBut_beforeZone, hzone⟩, hclose⟩
  intro c hc
  rw [Moment.stamp, String.toList_ofList] at hc
  exact hfull c (List.takeWhile_sublist _ |>.subset hc)

/-- A stamp is not cut off before the name of its zone. -/
theorem Moment.stamp_start (m : Moment) :
    ∃ rest, m.stamp.toList = m.beforeZone.toList ++ rest := by
  have hcommon : ∀ c ∈ m.beforeZone.toList, (c != Char.ofNat 0) = true := by
    intro c hc
    rw [bne_iff_ne]
    rintro rfl
    have hbefore : CommonBut [] m.beforeZone := m.commonBut_beforeZone
    rcases hbefore _ hc with h | ⟨t, ht, -⟩
    · exact absurd h (by decide)
    · cases ht
  rw [Moment.stamp, String.toList_ofList, m.fullStamp_eq, String.append_assoc, String.toList_append,
    List.takeWhile_append_of_pos hcommon]
  exact ⟨_, rfl⟩

theorem Moment.isLine_stamp {m : Moment} (h : IsLine m.zone.name) : IsLine m.stamp :=
  m.commonBut_stamp.isLine (List.forall_mem_singleton.2 h)

end Clock

namespace Sketch

/-- The lines of a sketch after its banner. -/
def rest (s : Sketch) : List String :=
  ["", "#include <" ++ protocolHeader ++ ">", ""] ++ s.includes.lines ++ s.shared.lines ++
    s.reset.lines ++ s.setup.lines ++ s.loop.lines

variable {s t : Sketch} {p : Plan} {d : Draft} {m m' : Clock.Moment}

theorem IsOf.lines_eq (h : s.IsOf p d m) :
    s.lines = ["/*", " * " ++ (d.sketchFilename ++ " generated by FirmataBuilder"),
      " * " ++ m.stamp, " */"] ++ s.rest := by
  have hbanner : s.banner.lines = ["/*", " * " ++ (d.sketchFilename ++ " generated by FirmataBuilder"),
      " * " ++ m.stamp, " */", "", "#include <" ++ protocolHeader ++ ">", ""] := by
    rw [h.banner]
    rfl
  rw [lines, rest, hbanner]
  simp only [List.cons_append, List.nil_append, List.append_assoc]

/-- What comes after the banner does not depend on the time. -/
theorem IsOf.rest_eq (hs : s.IsOf p d m) (ht : t.IsOf p d m') : s.rest = t.rest := by
  obtain ⟨blocks, included, hblocks, hincludes⟩ := hs.includes
  obtain ⟨blocks', included', hblocks', hincludes'⟩ := ht.includes
  rw [hblocks, Prod.mk.injEq, Except.ok.injEq] at hblocks'
  have hloop : s.loop = t.loop := Except.ok.inj (hs.loop.symm.trans ht.loop)
  rw [rest, rest, hincludes, hincludes', hblocks'.1, hs.shared, ht.shared, hs.reset, ht.reset,
    hs.setup, ht.setup, hloop]

/-- The end of the line in which a banner names the sketch. -/
def titleEnd : String := Settings.extension ++ " generated by FirmataBuilder"

/-- The line in which a banner names the sketch, as it is read from a text. -/
def titleLines (name : String) : List String := Text.lines (" * " ++ name ++ titleEnd ++ "\n")

theorem titleLines_of_isName {name : String} (h : Text.IsName name) :
    titleLines name = [" * " ++ name ++ titleEnd] := by
  refine Text.lines_of_isLine ?_
  exact Text.isLine_append.2 ⟨Text.isLine_append.2 ⟨by decide, h.isLine⟩, by decide⟩

theorem titleLines_of_lineEnd {w : String} (h : Text.IsName w) :
    titleLines (w ++ "\n") = [" * " ++ w, titleEnd] := by
  have hword : Text.acceptsWord (w ++ "\n") = true := Text.acceptsWord_iff.2 (.inr ⟨w, h, rfl⟩)
  rcases Text.lines_name (a := " * ") (b := titleEnd) (by decide) (by decide) hword with
    ⟨hw, -⟩ | ⟨w', -, hw', hlines⟩
  · -- a word has no line end in it
    exact absurd (by simp) (Text.not_mem_of_isWord hw (c := '\n') (by decide))
  · rw [titleLines, hlines, (String.append_left_inj "\n").1 hw']

/-- The lines of a sketch as they are read from its text: those of the banner, and those of the rest. -/
theorem IsOf.lines_text {name : String} (h : s.IsOf p d m) (hname : d.filename = .text name)
    (hzone : IsLine m.zone.name) :
    Text.lines s.text = "/*" :: titleLines name ++ [" * " ++ m.stamp, " */"] ++
      s.rest.flatMap fun l => Text.lines (l ++ "\n") := by
  have htitle : " * " ++ (d.sketchFilename ++ " generated by FirmataBuilder") =
      " * " ++ name ++ titleEnd := by
    rw [Draft.sketchFilename, hname, titleEnd, Value.display]
    simp only [String.append_assoc]
  have hopen : Text.lines ("/*" ++ "\n") = ["/*"] := Text.lines_of_isLine (by decide)
  have hclose : Text.lines (" */" ++ "\n") = [" */"] := Text.lines_of_isLine (by decide)
  have hstamp : Text.lines (" * " ++ m.stamp ++ "\n") = [" * " ++ m.stamp] :=
    Text.lines_of_isLine (Text.isLine_append.2 ⟨by decide, Clock.Moment.isLine_stamp hzone⟩)
  rw [Sketch.lines_text, h.lines_eq, htitle, List.flatMap_append]
  simp only [List.flatMap_cons, List.flatMap_nil, hopen, hclose, hstamp, titleLines,
    List.cons_append, List.nil_append, List.append_assoc]

end Sketch

end FirmataSketch
