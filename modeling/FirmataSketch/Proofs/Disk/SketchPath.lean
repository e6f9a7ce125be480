import FirmataSketch.Disk.Store
import FirmataSketch.Proofs.Text.Word

/-! The path of a sketch: a sketch with an accepted name, or another one without a slash, is a file
directly in its folder. -/

namespace FirmataSketch.Disk

theorem splitSlashes_eq_singleton {cs : List Char} (h : '/' ∉ cs) : splitSlashes cs = [cs] := by
  induction cs with
  | nil => rfl
  | cons c cs ih =>
    have hc : c ≠ '/' := fun e => h (e ▸ List.mem_cons_self)
    have hcs : '/' ∉ cs := fun m => h (List.mem_cons_of_mem c m)
    rw [splitSlashes, if_neg hc, ih hcs]

theorem ofText_of_no_slash {s : String} (h : '/' ∉ s.toList) (hempty : s ≠ "") (hdot : s ≠ ".") :
    PathName.ofText s = ⟨.here, [s]⟩ := by
  have hanchor : PathName.anchorOf s.toList = .here := by
    have htake : s.toList.takeWhile (· == '/') = [] := by
      cases hs : s.toList with
      | nil => rfl
      | cons c cs =>
        have hc : (c == '/') = false := by
          rw [beq_eq_false_iff_ne]
          exact fun e => h (hs ▸ e ▸ List.mem_cons_self)
        rw [List.takeWhile_cons, hc]
        rfl
    rw [PathName.anchorOf, htake]
    rfl
  rw [PathName.ofText, splitSlashes_eq_singleton h, hanchor]
  simp [hempty, hdot]

/-- The name of a sketch is none of the names that stand for a folder. -/
theorem length_extended (s : String) : 4 ≤ (s ++ Settings.extension).toList.length := by
  simp [Settings.extension]

theorem sketchPath_of_no_slash {s : String} (h : '/' ∉ s.toList) (folder : PathName) :
    sketchPath folder (.text s) = folder.child (s ++ Settings.extension) := by
  have hslash : '/' ∉ (s ++ Settings.extension).toList := by
    rw [String.toList_append, List.mem_append, not_or]
    exact ⟨h, by decide⟩
  have hlast {t : String} (ht : s ++ Settings.extension = t) : 4 ≤ t.toList.length :=
    ht ▸ length_extended s
  have hname := ofText_of_no_slash hslash (fun e => absurd (hlast e) (by decide))
    (fun e => absurd (hlast e) (by decide))
  have hpath : sketchPath folder (.text s) =
      folder.join (PathName.ofText (s ++ Settings.extension)) := rfl
  rw [hpath, hname]
  rfl

theorem sketchPath_of_word {s : String} (h : Text.acceptsWord s = true) (folder : PathName) :
    sketchPath folder (.text s) = folder.child (s ++ Settings.extension) :=
  sketchPath_of_no_slash (Text.not_mem_of_acceptsWord h (by decide) (by decide)) folder

end FirmataSketch.Disk
