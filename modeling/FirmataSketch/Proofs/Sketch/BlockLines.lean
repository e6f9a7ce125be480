import FirmataSketch.Proofs.Text.Lines
import FirmataSketch.Sketch.Code
import Mathlib.Data.List.Basic

/-! Lines of blocks. What stands before the functions of a sketch can be read off its lines, whatever
texts are put into it. -/

namespace FirmataSketch

open Text (append_ne_append)

namespace Sketch

theorem indented_append (depth : Nat) (s t : String) :
    indented depth (s ++ t) = indented depth s ++ t := (String.append_assoc ..).symm

namespace Stmt

theorem linesAll_append (depth : Nat) (ss ss' : List Stmt) :
    linesAll depth (ss ++ ss') = linesAll depth ss ++ linesAll depth ss' := by
  induction ss with
  | nil => rfl
  | cons s ss ih => rw [List.cons_append, linesAll, ih, linesAll, List.append_assoc]

theorem linesAll_map {α : Type} {depth : Nat} {g : α → Stmt} {l : α → String}
    (h : ∀ a, (g a).lines depth = [l a]) (xs : List α) :
    linesAll depth (xs.map g) = xs.map l := by
  induction xs with
  | nil => rfl
  | cons a xs ih =>
    rw [List.map_cons, linesAll, h, ih]
    rfl

end Stmt

namespace Item

/-- What stands before the functions of a sketch. -/
def IsHead : Item → Prop
  | .comment _ | .define .. => False
  | _ => True

variable {i : Item}

theorem include_mem_lines (hi : i.IsHead) {header : String} :
    "#include <" ++ header ++ ">" ∈ i.lines ↔ i = .include header := by
  cases i with
  | blank => simp [lines]
  | comment ls => cases hi
  | «include» header' =>
    simp only [lines, List.mem_singleton, include.injEq, ← String.toList_inj, String.toList_append,
      List.append_cancel_left_eq, List.append_cancel_right_eq, eq_comm]
  | declare className instanceName =>
    have hne : "#include <" ++ header ++ ">" ≠ className ++ " " ++ instanceName ++ ";" :=
      append_ne_append (by decide) (by decide)
    simpa [lines] using hne
  | define function body => cases hi

theorem declare_mem_lines (hi : i.IsHead) {className instanceName : String}
    (hc : ' ' ∉ className.toList) (hn : ' ' ∉ instanceName.toList) :
    className ++ " " ++ instanceName ++ ";" ∈ i.lines ↔ i = .declare className instanceName := by
  cases i with
  | blank => simp [lines]
  | comment ls => cases hi
  | «include» header =>
    have hne : className ++ " " ++ instanceName ++ ";" ≠ "#include <" ++ header ++ ">" :=
      append_ne_append (by decide) (by decide)
    simpa [lines] using hne
  | declare className' instanceName' =>
    -- The other line has only one blank, so the names on both sides of it are the same.
    have hsplit : className.toList ++ ' ' :: instanceName.toList =
        className'.toList ++ ' ' :: instanceName'.toList ↔ _ :=
      List.append_cons_inj_of_notMem hc hn
    have hlines : className ++ " " ++ instanceName ++ ";" ∈ lines (declare className' instanceName') ↔
        className.toList ++ ' ' :: instanceName.toList =
          className'.toList ++ ' ' :: instanceName'.toList := by
      simp only [lines, List.mem_singleton, ← String.toList_inj, String.toList_append,
        List.append_left_inj]
      simp
    rw [hlines, hsplit, declare.injEq, String.toList_inj, String.toList_inj]
    simp [eq_comm]
  | define function body => cases hi

end Item

namespace Block

variable {b : Block}

theorem lines_append (b b' : Block) : (b ++ b').lines = b.lines ++ b'.lines := List.flatMap_append

theorem lines_text (hb : ∀ l ∈ b.lines, Text.IsLine l) : Text.lines b.text = b.lines :=
  Text.lines_unlines hb

theorem include_mem_lines (hb : ∀ i ∈ b, i.IsHead) {header : String} :
    "#include <" ++ header ++ ">" ∈ b.lines ↔ .include header ∈ b := by
  rw [lines, List.mem_flatMap]
  constructor
  · rintro ⟨i, hi, hmem⟩
    exact (Item.include_mem_lines (hb i hi)).1 hmem ▸ hi
  · intro hi
    exact ⟨_, hi, (Item.include_mem_lines (hb _ hi)).2 rfl⟩

theorem declare_mem_lines (hb : ∀ i ∈ b, i.IsHead) {className instanceName : String}
    (hc : ' ' ∉ className.toList) (hn : ' ' ∉ instanceName.toList) :
    className ++ " " ++ instanceName ++ ";" ∈ b.lines ↔ .declare className instanceName ∈ b := by
  rw [lines, List.mem_flatMap]
  constructor
  · rintro ⟨i, hi, hmem⟩
    exact (Item.declare_mem_lines (hb i hi) hc hn).1 hmem ▸ hi
  · intro hi
    exact ⟨_, hi, (Item.declare_mem_lines (hb _ hi) hc hn).2 rfl⟩

end Block

end Sketch

end FirmataSketch
