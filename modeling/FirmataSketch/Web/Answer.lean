import FirmataSketch.Catalog.Load
import FirmataSketch.Sketch.Generate
import FirmataSketch.Web.Request

/-! Answers to web requests. -/

namespace FirmataSketch.Web

inductive Route where
  | features
  | defaults
  | generate
  | download
  deriving DecidableEq, Repr

inductive Answer where
  | record (body : Value)
  | attachment (filename content : String)
  /-- The builder refuses the request. -/
  | refused (detail : String)
  /-- The body does not have the form of a request. -/
  | malformed (complaints : List Complaint)

namespace Answer

def status : Answer → Nat
  | .record _ => 200
  | .attachment _ _ => 200
  | .refused _ => 400
  | .malformed _ => 422

def attachmentType : String := "text/plain; charset=utf-8"

def disposition (filename : String) : String := "attachment; filename=\"" ++ filename ++ "\""

end Answer

def defaults : Value :=
  .record [("filename", .text Settings.defaultFilename), ("baud", .int Settings.defaultBaud),
    ("allowed_baud_rates", Settings.allowedBaudValue), ("features", Settings.defaultFeaturesValue)]

def render (catalog : Catalog) (clock : Clock) (r : Request) : Traced (Selection × Sketch) :=
  Traced.andThen (.ofExcept r.selection) fun s =>
    Traced.andThen (.ofExcept (catalog.index.mapError .misuse)) fun index =>
      (s.draft.sketch index clock none).andThen fun sketch =>
        ⟨[.served s.sketchFilename s.features], .ok (s, sketch)⟩

/-- Answers with the sketch, or with the reason why there is none. A failure that is not the
builder's own is passed on. -/
def answerSketch (catalog : Catalog) (clock : Clock) (fields : List (String × Value))
    (answer : Selection → Sketch → Answer) (rules : Rules := .usual) : Traced Answer :=
  match Request.ofFields fields rules with
  | .error complaints => ⟨[], .ok (.malformed complaints)⟩
  | .ok r =>
    let t := render catalog clock r
    ⟨t.events, match t.result with
      | .ok (s, sketch) => .ok (answer s sketch)
      | .error e => if e.isOwn then .ok (.refused e.message) else .error e⟩

def respond (catalog : Catalog) (clock : Clock) (fields : List (String × Value)) (route : Route)
    (rules : Rules := .usual) : Traced Answer :=
  match route with
  | .features => ⟨[], .ok (.record catalog.toValue)⟩
  | .defaults => ⟨[], .ok (.record defaults)⟩
  | .generate => answerSketch catalog clock fields (fun s sketch =>
      .record (.record [("filename", .text s.sketchFilename), ("sketch", .text sketch.text)])) rules
  | .download => answerSketch catalog clock fields (fun s sketch =>
      .attachment s.sketchFilename sketch.text) rules

end FirmataSketch.Web
