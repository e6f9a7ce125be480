import FirmataSketch.Proofs.Selection.Made
import FirmataSketch.Proofs.Sketch.Drawing
import FirmataSketch.Proofs.Web.Bodies
import FirmataSketch.Web.Answer

/-! Answers with sketches from the shipped catalog: what a request with a file name, a baud and
features comes to. -/

namespace FirmataSketch.Web

open Disk (PathName)

variable {features : List String} {filename : String} {baud : Int}

/-- What a request comes to when there is no sketch: the builder tells its own reasons. -/
def refusal (e : Failure) : Except Failure Answer :=
  if e.isOwn then .ok (.refused e.message) else .error e

section

variable {rules : Rules} {catalog : Catalog} {home : PathName} {clock : Clock}
  {fields : List (String × Value)}

theorem answerSketch_of_misfit (h : Misfit rules fields) (answer : Selection → Sketch → Answer) :
    (answerSketch catalog clock fields answer rules).result =
      .ok (.malformed (complaints rules fields)) := by
  rw [answerSketch, ofFields_of_misfit h]

theorem answerSketch_of_fits {r : Request} (hr : r.Fits rules fields)
    (answer : Selection → Sketch → Answer) :
    (answerSketch (Catalog.shipped home) clock fields answer rules).result =
      match Selection.drawn home clock r.selection with
      | .ok (s, sketch) => .ok (answer s sketch)
      | .error e => refusal e := by
  have hindex := Catalog.shipped_index home
  unfold answerSketch
  simp only [ofFields_ok_iff.2 hr, render, Traced.andThen, Traced.ofExcept, hindex]
  cases r.selection with
  | error e => rfl
  | ok s =>
    simp only [Selection.drawn, Except.mapError, bind, Except.bind]
    cases hsketch : (s.draft.sketch (Catalog.shippedIndex home) clock none).result with
    | error e => rfl
    | ok sketch => rfl

/-- Fields that have their types already are taken as they are. -/
theorem fits_fieldsOf (hfilename : rules.text (.text filename) = .ok filename)
    (hfeatures : ∀ s ∈ features, rules.text (.text s) = .ok s) :
    Request.Fits ⟨filename, baud, features⟩ rules (fieldsOf features filename baud) := by
  refine ⟨hfilename, rules.integer_int baud, features.map .text, (rules.items_ok_iff _ _).2 rfl, ?_⟩
  rw [List.map_map]
  exact List.map_congr_left hfeatures

end

theorem answerSketch_result (home : PathName) (clock : Clock) (features : List String)
    (filename : String) (baud : Int) (answer : Selection → Sketch → Answer) :
    (answerSketch (Catalog.shipped home) clock (fieldsOf features filename baud) answer).result =
      match Selection.drawn home clock
        ((Selection.ofParts features filename baud).mapError .selection) with
      | .ok (s, sketch) => .ok (answer s sketch)
      | .error e => refusal e := by
  rw [← selection_request]
  exact answerSketch_of_fits (fits_fieldsOf rfl fun _ _ => rfl) answer

end FirmataSketch.Web
