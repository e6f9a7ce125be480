import FirmataSketch.Proofs.Command.Steps

/-! Runs of the command that generates sketches, when it prints them: nothing but the sketch, or
nothing but the reason why there is none. -/

namespace FirmataSketch.Command

open Outcome (bind_error)

theorem shown_of_debug {events : List Event} (h : ∀ v ∈ events, v.level = .debug) :
    shown false events = "" := by
  have hnone : events.filter (fun v => false || v.level != .debug) = [] := by
    rw [List.filter_eq_nil_iff]
    intro v hv
    rw [h v hv]
    decide
  rw [shown, hnone]
  rfl

/-- A command that prints a text and ends well. -/
def printed (s : Surroundings) (text : String) : Report :=
  { ending := .exit 0, disk := s.disk, stdout := text }

/-- A command that stops without having done anything: it tells the reason if the reason is the
builder's own. -/
def stopped (s : Surroundings) (e : Failure) : Report :=
  if e.isOwn then
    { ending := .exit 1, disk := s.disk, stderr := "Error: " ++ e.message ++ "\n" }
  else { ending := .failure e, disk := s.disk }

/-- The outcome of the command that prints the sketch of a selection. -/
def outcome (s : Surroundings) (made : Except Failure Selection) : Report :=
  match Selection.drawn s.home s.clock made with
  | .ok (_, sketch) => printed s sketch.text
  | .error e => stopped s e

variable {s : Surroundings} {o : GenerateOptions}

/-- With the shipped catalog, nothing is told but the details of the drawing. -/
theorem shown_drawn (hcatalog : o.catalog = none) : shown false (drawn s o).events = "" := by
  refine shown_of_debug fun v hv => ?_
  cases hopen : openSelection s.disk o with
  | error e =>
    rw [drawn_shipped_of_error hcatalog hopen] at hv
    cases hv
  | ok selection =>
    rw [drawn_shipped_of_ok hcatalog hopen, Traced.events_andThen_quiet (fun _ => rfl)] at hv
    exact Draft.level_of_mem_events hv

theorem runGenerate_stdout {made : Except Failure Selection} (hstdout : o.toStdout = true)
    (hcatalog : o.catalog = none) (hmade : openSelection s.disk o = made)
    (hown : ∀ e, made = .error e → e.isReported = e.isOwn) :
    runGenerate s false o = outcome s made := by
  have hresult : (drawn s o).result = Selection.drawn s.home s.clock made :=
    hmade ▸ drawn_shipped_result hcatalog
  unfold outcome
  cases hdrawn : Selection.drawn s.home s.clock made with
  | ok p =>
    rw [runGenerate_printed hstdout (hresult.trans hdrawn), shown_drawn hcatalog]
    rfl
  | error e =>
    have hkind : e.isReported = e.isOwn := by
      rcases bind_error hdrawn with h | ⟨selection, -, h⟩
      · exact hown e h
      · rcases bind_error h with h | ⟨sketch, -, h⟩
        · exact Draft.sketch_error h
        · cases h
    rw [runGenerate_unprinted hstdout (hresult.trans hdrawn), shown_drawn hcatalog]
    dsimp only
    rw [failed, stopped, hkind, String.empty_append]

end FirmataSketch.Command
