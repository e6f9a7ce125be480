import FirmataSketch.Command.Run
import FirmataSketch.Proofs.Catalog.Loading
import FirmataSketch.Proofs.Messages
import FirmataSketch.Proofs.Selection.Made

/-! Selections from files. A file that is read to its end gives a selection, or a reason that is told
in one line. -/

namespace FirmataSketch.Command

open Disk (PathName)
open Outcome (bind_ok bind_error mapError_ok mapError_error)
open Text (IsLine)

theorem openSelection_of_document {d : Disk} {path : String} {bytes : ByteArray}
    {features : List String} {filename baud : Value} (hnull : (PathName.ofText path).hasNull = false)
    (hread : d.readFile (PathName.ofText path) = .ok bytes)
    (hdocument : Catalog.readDocument bytes = .ok (Selection.payload features filename baud)) :
    openSelection d { selection := some path, toStdout := true } =
      (Selection.named features filename baud).mapError .selection := by
  have hfile : readSelectionFile d (PathName.ofText path) =
      (Selection.named features filename baud).mapError .selection := by
    unfold readSelectionFile
    rw [hnull, hread]
    simp only [Bool.false_eq_true, if_false, Except.mapError, bind, Except.bind, hdocument,
      Selection.ofValue_payload]
  unfold openSelection
  simp only [hfile]
  cases (Selection.named features filename baud).mapError Failure.selection <;> rfl

theorem readSelectionFile_ok {d : Disk} {path : PathName} {s : Selection}
    (h : readSelectionFile d path = .ok s) : ∃ v, Selection.ofValue v = .ok s := by
  unfold readSelectionFile at h
  split at h
  · cases h
  · obtain ⟨bytes, -, h⟩ := bind_ok h
    obtain ⟨v, -, h⟩ := bind_ok h
    exact ⟨v, mapError_ok h⟩

/-- Selections are accepted ones, wherever they come from. -/
theorem acceptsWord_of_openSelection {d : Disk} {o : GenerateOptions} {s : Selection}
    (h : openSelection d o = .ok s) : Text.acceptsWord s.filename = true := by
  unfold openSelection at h
  split at h
  · obtain ⟨inFile, hfile, h⟩ := bind_ok h
    split at h
    · cases h
      obtain ⟨v, hv⟩ := readSelectionFile_ok hfile
      exact Selection.acceptsWord_of_ofValue hv
    · exact Selection.acceptsWord_of_make h
  · exact Selection.acceptsWord_of_make h

/-- A selection was taken from a file, or not for a reason. -/
inductive Taken (d : Disk) (path : PathName) : Except Failure Selection → Prop
  | selection {s : Selection} (hread : ¬ Catalog.Unread d path)
      (hname : Text.acceptsWord s.filename = true) : Taken d path (.ok s)
  | told {e : Failure} (hread : ¬ Catalog.Unread d path) (hreported : e.isReported = true)
      (hline : IsLine e.message) : Taken d path (.error e)
  | silent {e : Failure} (hunread : Catalog.Unread d path) (hreported : e.isReported = false) :
      Taken d path (.error e)

variable {d : Disk} {path : PathName}

theorem taken_readSelectionFile (hnull : path.hasNull = false) :
    Taken d path (readSelectionFile d path) := by
  unfold readSelectionFile
  rw [hnull]
  cases hread : d.readFile path with
  | error r =>
    exact .told (Catalog.not_unread_of_refusal hread) rfl (r.isLine_report path.text)
  | ok bytes =>
    have hunread := Catalog.unread_iff hread
    simp only [Bool.false_eq_true, if_false, Except.mapError, bind, Except.bind]
    cases hdocument : Catalog.readDocument bytes with
    | error e =>
      rw [hdocument] at hunread
      cases hreported : e.isReported with
      | false => exact .silent (hunread.2 ⟨e, rfl, hreported⟩) hreported
      | true =>
        refine .told (fun h => ?_) hreported ?_
        · obtain ⟨e', he, hquiet⟩ := hunread.1 h
          cases he
          rw [hreported] at hquiet
          cases hquiet
        · rcases Catalog.readDocument_error hdocument with ⟨f, rfl⟩ | ⟨r, rfl⟩
          · cases hreported
          · cases r with
            | fault f => exact f.isLine_message
            | _ => cases hreported
    | ok v =>
      have hnot := Catalog.not_unread_of_document hread hdocument
      dsimp only
      cases hvalue : Selection.ofValue v with
      | error f => exact .told hnot rfl f.isLine_message
      | ok s => exact .selection hnot (Selection.acceptsWord_of_ofValue hvalue)

/-- What is given besides the file does not keep the selection from being told about. -/
theorem taken_openSelection {o : GenerateOptions} {name : String} (ho : o.selection = some name)
    (hnull : (PathName.ofText name).hasNull = false) :
    Taken d (PathName.ofText name) (openSelection d o) := by
  have hfile := taken_readSelectionFile (d := d) hnull
  unfold openSelection
  simp only [ho]
  cases hselection : readSelectionFile d (PathName.ofText name) with
  | error e =>
    rw [hselection] at hfile
    exact hfile
  | ok s =>
    rw [hselection] at hfile
    cases hfile with
    | selection hread hword =>
      have hmade (filename baud : Value) : Taken d (PathName.ofText name)
          (Selection.make (.list (s.features.map .text)) filename baud) := by
        cases hmake : Selection.make (.list (s.features.map .text)) filename baud with
        | ok s' => exact .selection hread (Selection.acceptsWord_of_make hmake)
        | error e =>
          rw [Selection.make_named] at hmake
          obtain ⟨f, -, rfl⟩ := mapError_error hmake
          exact .told hread rfl f.isLine_message
      simp only [bind, Except.bind]
      split
      · exact .selection hread hword
      · exact hmade _ _

end FirmataSketch.Command
