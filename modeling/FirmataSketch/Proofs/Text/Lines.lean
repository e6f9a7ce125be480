import FirmataSketch.Text.Lines

/-! Lines of a text. A text that was written line by line has those lines, if each of them is a
single line. -/

namespace FirmataSketch.Text

def splitLines : List Char → List (List Char)
  | [] => []
  | c :: cs =>
    if c = '\n' then [] :: splitLines cs
    else match splitLines cs with
      | [] => [[c]]
      | l :: ls => (c :: l) :: ls

/-- The pieces of a text between its line ends; nothing follows the last line end. -/
def lines (s : String) : List String := (splitLines s.toList).map String.ofList

def IsLine (s : String) : Prop := '\n' ∉ s.toList

instance (s : String) : Decidable (IsLine s) := inferInstanceAs (Decidable (_ ∉ _))

theorem isLine_of_all {ls : List String} (h : (ls.all fun l => decide (IsLine l)) = true)
    {l : String} (hl : l ∈ ls) : IsLine l := of_decide_eq_true (List.all_eq_true.1 h l hl)

theorem splitLines_line {l : List Char} (h : '\n' ∉ l) (cs : List Char) :
    splitLines (l ++ '\n' :: cs) = l :: splitLines cs := by
  induction l with
  | nil => rw [List.nil_append, splitLines, if_pos rfl]
  | cons c l ih =>
    have hc : c ≠ '\n' := fun e => h (e ▸ List.mem_cons_self)
    have hl : '\n' ∉ l := fun m => h (List.mem_cons_of_mem _ m)
    rw [List.cons_append, splitLines, if_neg hc, ih hl]

theorem unlines_cons (l : String) (ls : List String) :
    (unlines (l :: ls)).toList = l.toList ++ '\n' :: (unlines ls).toList := by
  simp [unlines]

theorem unlines_append (ls ls' : List String) :
    unlines (ls ++ ls') = unlines ls ++ unlines ls' := by
  rw [← String.toList_inj]
  simp [unlines]

theorem mem_unlines {c : Char} {ls : List String} (h : c ∈ (unlines ls).toList) :
    c = '\n' ∨ ∃ l ∈ ls, c ∈ l.toList := by
  induction ls with
  | nil => cases h
  | cons l ls ih =>
    rw [unlines_cons, List.mem_append, List.mem_cons] at h
    rcases h with h | h | h
    · exact .inr ⟨l, List.mem_cons_self, h⟩
    · exact .inl h
    · exact (ih h).imp_right fun ⟨l', hl', hc⟩ => ⟨l', List.mem_cons_of_mem l hl', hc⟩

theorem lines_unlines {ls : List String} (h : ∀ l ∈ ls, IsLine l) : lines (unlines ls) = ls := by
  induction ls with
  | nil => rfl
  | cons l ls ih =>
    have hl := h l List.mem_cons_self
    have hls := ih fun l' m => h l' (List.mem_cons_of_mem _ m)
    rw [lines, unlines_cons, splitLines_line hl, List.map_cons, String.ofList_toList]
    exact congrArg (l :: ·) hls

theorem lines_of_isLine {s : String} (h : IsLine s) : lines (s ++ "\n") = [s] := by
  have hone : s ++ "\n" = unlines [s] := by simp [unlines]
  rw [hone, lines_unlines (by simpa using h)]

theorem splitLines_append_lineEnd (l cs : List Char) :
    splitLines (l ++ '\n' :: cs) = splitLines (l ++ ['\n']) ++ splitLines cs := by
  induction l with
  | nil => rfl
  | cons c l ih =>
    rw [List.cons_append, List.cons_append, splitLines, splitLines, ih]
    split
    · rfl
    · -- a text that has a line end in it has a first line, which `c` joins
      cases hl : splitLines (l ++ ['\n']) with
      | cons first rest => rfl
      | nil =>
        cases l with
        | nil => cases hl
        | cons d l =>
          rw [List.cons_append, splitLines] at hl
          split at hl
          · cases hl
          · split at hl <;> cases hl

theorem lines_unlines_eq_flatMap (ls : List String) :
    lines (unlines ls) = ls.flatMap fun l => lines (l ++ "\n") := by
  induction ls with
  | nil => rfl
  | cons l ls ih =>
    have hline : (l ++ "\n").toList = l.toList ++ ['\n'] := String.toList_append
    rw [List.flatMap_cons, ← ih, lines, unlines_cons, splitLines_append_lineEnd, List.map_append,
      lines, lines, hline]

theorem append_ne_append {s t u v : String} (hlen : u.toList.length = v.toList.length)
    (hne : u ≠ v) : s ++ u ≠ t ++ v := by
  intro h
  rw [← String.toList_inj, String.toList_append, String.toList_append] at h
  exact hne (String.toList_inj.1 (List.append_inj_right' h hlen))

theorem append_ne_of_start {s t u : String} (h : ¬ s.toList <+: u.toList) : s ++ t ≠ u := by
  rintro rfl
  rw [String.toList_append] at h
  exact h (List.prefix_append _ _)

@[simp] theorem isLine_append {s t : String} : IsLine (s ++ t) ↔ IsLine s ∧ IsLine t := by
  simp [IsLine, not_or]

theorem isLine_spaces (n : Nat) : IsLine (String.ofList (List.replicate n ' ')) := by
  simp [IsLine, List.mem_replicate]

end FirmataSketch.Text
